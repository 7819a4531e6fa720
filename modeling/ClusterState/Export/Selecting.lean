import ClusterState.Export.Preservation

/-! # When an export selects as the cluster does

A resource keeps its managed-by labels when it selects by them itself. The template that
is selected stands in another resource, which then loses its own.
-/

namespace ClusterState.Export

/-- A label that is taken out of every resource. -/
def Scrubbed (key : String) : Prop := key ∈ RUNTIME_LABELS ∨ key ∈ RUNTIME_ANNOTATIONS

instance : DecidablePred Scrubbed := fun key =>
  inferInstanceAs (Decidable (key ∈ RUNTIME_LABELS ∨ key ∈ RUNTIME_ANNOTATIONS))

/-- A label of a template whose resource selects by no managed-by label. -/
def Lost (resource : Json) (labels : Labels) (key : String) : Prop :=
  key ∈ MANAGED_BY_LABEL_KEYS ∧ labels.lookup key = some "terraform" ∧
    requiresManagedByLabels resource = false

def Selector.OfService : Selector → Prop
  | service _ => True
  | workload _ => False

/-- A selection loses no label of the template and keeps one of a service's selector. -/
def StaysSelected (resource : Json) (selector : Selector) (labels : Labels) : Prop :=
  (∀ label ∈ selector.labels, ¬Lost resource labels label.1) ∧
    (selector.OfService → ∃ label ∈ selector.labels, ¬Scrubbed label.1)

/-- A template that is not selected has a label that tells why, or a service selects nothing. -/
def StaysUnselected (resource : Json) (selector : Selector) (labels : Labels) : Prop :=
  (selector.OfService ∧ ∀ label ∈ selector.labels, Scrubbed label.1) ∨
    ∃ label ∈ selector.labels, ¬Scrubbed label.1 ∧ (Lost resource labels label.1 ∨
      (labels.lookup label.1).map replaceText ≠ some (replaceText label.2))

/-! ## Who selects by managed-by labels -/

section Requiring

variable {j value : Json} {key : String}

theorem requires_of_lookup {fields : Fields} (hget : fields.lookup key = some value)
    (h : requiresManagedByLabels value = true ∨
      (key ∈ ["selector", "matchLabels"] ∧ hasManagedBy value = true)) :
    requiresInFields fields = true := by
  induction fields with
  | nil => cases hget
  | cons field fields ih =>
    obtain ⟨key', item⟩ := field
    rw [requiresInFields]
    by_cases heq : key = key'
    · subst heq
      rw [List.lookup_cons, beq_self_eq_true] at hget
      obtain rfl := Option.some.inj hget
      rcases h with hrequires | ⟨hselecting, hmanaged⟩
      · rw [hrequires, Bool.or_true, Bool.true_or]
      · rw [List.contains_iff_mem.mpr hselecting, hmanaged, Bool.and_true, Bool.true_or, Bool.true_or]
    · rw [List.lookup_cons, beq_eq_false_iff_ne.mpr heq] at hget
      rw [ih hget, Bool.or_true]

theorem requires_of_get (hget : j.get key = some value)
    (h : requiresManagedByLabels value = true ∨
      (key ∈ ["selector", "matchLabels"] ∧ hasManagedBy value = true)) :
    requiresManagedByLabels j = true := by
  cases j with
  | obj fields =>
    rw [requiresManagedByLabels]
    exact requires_of_lookup hget h
  | _ => cases hget

theorem requires_of_inSpec (hin : inSpec key j = some value)
    (h : requiresManagedByLabels value = true ∨
      (key ∈ ["selector", "matchLabels"] ∧ hasManagedBy value = true)) :
    requiresManagedByLabels j = true := by
  obtain ⟨spec, hspec, hget⟩ := Option.bind_eq_some_iff.mp hin
  exact requires_of_get hspec (.inl (requires_of_get hget h))

theorem requires_of_inWorkload (hin : inWorkload key j = some value)
    (h : requiresManagedByLabels value = true) : requiresManagedByLabels j = true := by
  obtain ⟨kind, -, hin⟩ := Option.bind_eq_some_iff.mp hin
  split at hin
  · exact requires_of_inSpec hin (.inl h)
  · split at hin
    · obtain ⟨template, htemplate, hin⟩ := Option.bind_eq_some_iff.mp hin
      exact requires_of_inSpec htemplate (.inl (requires_of_inSpec hin (.inl h)))
    · cases hin

theorem isSome_lookup_asFields {labels : Labels} {label : String × String} (h : label ∈ labels) :
    ((asFields labels).lookup label.1).isSome = true := by
  induction labels with
  | nil => cases h
  | cons first labels ih =>
    change (((first.1, Json.str first.2) :: asFields labels).lookup label.1).isSome = true
    rw [List.lookup_cons]
    by_cases heq : label.1 = first.1
    · rw [beq_iff_eq.mpr heq]
      rfl
    · rw [beq_eq_false_iff_ne.mpr heq]
      rcases List.mem_cons.mp h with rfl | hmem
      · exact absurd rfl heq
      · exact ih hmem

theorem hasManagedBy_of_mem {labels : Labels} {label : String × String} (h : label ∈ labels)
    (hkey : label.1 ∈ MANAGED_BY_LABEL_KEYS) : hasManagedBy (.obj (asFields labels)) = true :=
  List.any_eq_true.mpr ⟨label.1, hkey, isSome_lookup_asFields h⟩

theorem requires_of_selector {selector : Selector} {label : String × String}
    (h : selector? j = some selector) (hlabel : label ∈ selector.labels)
    (hkey : label.1 ∈ MANAGED_BY_LABEL_KEYS) : requiresManagedByLabels j = true := by
  unfold selector? at h
  split at h
  · obtain ⟨labels, hlabels, rfl⟩ := Option.map_eq_some_iff.mp h
    obtain ⟨value, hvalue, hlabels⟩ := Option.bind_eq_some_iff.mp hlabels
    obtain rfl := labels?_eq_some.mp hlabels
    exact requires_of_inSpec hvalue (.inr ⟨by simp, hasManagedBy_of_mem hlabel hkey⟩)
  · obtain ⟨labels, hlabels, rfl⟩ := Option.map_eq_some_iff.mp h
    obtain ⟨value, hvalue, hlabels⟩ := Option.bind_eq_some_iff.mp hlabels
    cases hget : value.get "matchLabels" with
    | none =>
      rw [labelsAt_of_none hget] at hlabels
      split at hlabels <;> cases hlabels
      cases hlabel
    | some labels' =>
      rw [labelsAt_of_some hget] at hlabels
      obtain rfl := labels?_eq_some.mp hlabels
      exact requires_of_inWorkload hvalue
        (requires_of_get hget (.inr ⟨by simp, hasManagedBy_of_mem hlabel hkey⟩))

end Requiring

/-! ## The labels that are left -/

section Left

variable {preserve : Bool} {labels : Labels} {key : String}

theorem nodup_of_labels? {j : Json} (hdistinct : Distinct j) (h : labels? j = some labels) :
    (labels.map Prod.fst).Nodup := by
  obtain rfl := labels?_eq_some.mp h
  cases hdistinct with
  | obj _ hkeys _ =>
    rw [asFields, List.map_map] at hkeys
    exact hkeys

theorem nodup_of_labelsAt {j : Json} (hdistinct : Distinct j) (h : labelsAt key j = some labels) :
    (labels.map Prod.fst).Nodup := by
  cases hget : j.get key with
  | none =>
    rw [labelsAt_of_none hget] at h
    split at h <;> cases h
    exact List.nodup_nil
  | some value =>
    rw [labelsAt_of_some hget] at h
    exact nodup_of_labels? (hdistinct.of_get hget) h

theorem nodup_of_templateLabels? {j : Json} (hdistinct : Distinct j)
    (h : templateLabels? j = some labels) : (labels.map Prod.fst).Nodup := by
  obtain ⟨template, htemplate, hlabels⟩ := Option.bind_eq_some_iff.mp h
  obtain ⟨kind, hkind, htemplate⟩ := Option.bind_eq_some_iff.mp htemplate
  have hdistinct' : Distinct template := by
    split at htemplate
    · exact hdistinct.inSpec htemplate
    · split at htemplate
      · obtain ⟨holder, hholder, htemplate⟩ := Option.bind_eq_some_iff.mp htemplate
        exact (hdistinct.inSpec hholder).inSpec htemplate
      · cases htemplate
  unfold labelsOfTemplate at hlabels
  split at hlabels
  · rename_i metadata hmetadata
    exact nodup_of_labelsAt (hdistinct'.of_get hmetadata) hlabels
  · split at hlabels <;> cases hlabels
    exact List.nodup_nil

theorem mem_keys_of_cleanLabels {label : String × String} (h : label ∈ cleanLabels preserve labels) :
    label.1 ∈ labels.map Prod.fst := by
  obtain ⟨original, hmem, rfl⟩ := List.mem_map.mp (List.mem_filter.mp h).1
  exact List.mem_map.mpr ⟨original, hmem, rfl⟩

theorem lookup_cleanLabels (hnodup : (labels.map Prod.fst).Nodup) :
    (cleanLabels preserve labels).lookup key = (labels.lookup key).bind fun text =>
      if isRuntime preserve key (.str (replaceText text)) then none else some (replaceText text) := by
  induction labels with
  | nil => rfl
  | cons label labels ih =>
    rw [List.map_cons, List.nodup_cons] at hnodup
    rw [cleanLabels_cons, List.lookup_cons]
    by_cases heq : key = label.1
    · subst heq
      rw [beq_self_eq_true]
      simp only [Option.bind_some]
      split
      · refine lookup_of_not_mem fun hmem => hnodup.1 ?_
        obtain ⟨left, hleft, hkey⟩ := List.mem_map.mp hmem
        rw [← hkey]
        exact mem_keys_of_cleanLabels hleft
      · rw [List.lookup_cons, beq_self_eq_true]
    · rw [beq_eq_false_iff_ne.mpr heq]
      split
      · exact ih hnodup.2
      · rw [List.lookup_cons, beq_eq_false_iff_ne.mpr heq]
        exact ih hnodup.2

theorem isRuntime_iff {text : String} : isRuntime preserve key (.str (replaceText text)) = true ↔
    Scrubbed key ∨ (preserve = false ∧ key ∈ MANAGED_BY_LABEL_KEYS ∧ text = "terraform") := by
  have hterraform : replaceText text = "terraform" ↔ text = "terraform" :=
    replaceText_eq_iff (by decide) (by decide)
  have hstr : ((Json.str (replaceText text)).str? == some "terraform") = true ↔ text = "terraform" := by
    rw [beq_iff_eq]
    exact Iff.trans Option.some_inj hterraform
  rw [isRuntime, Bool.or_eq_true, Bool.or_eq_true, Bool.and_eq_true, Bool.and_eq_true, hstr,
    List.contains_iff_mem, List.contains_iff_mem, List.contains_iff_mem, Bool.not_eq_true',
    Scrubbed, and_assoc]
  exact or_right_comm

end Left

/-! ## Selection before and after -/

section Selecting

variable {resource : Json} {preserve : Bool} {selector : Selector} {labels : Labels}

theorem matches_iff : selector.Matches labels ↔
    (∀ label ∈ selector.labels, labels.lookup label.1 = some label.2) ∧
      (selector.OfService → selector.labels ≠ []) := by
  cases selector with
  | service required => exact and_congr_right fun _ => (true_imp_iff).symm
  | workload required => exact and_congr_right fun _ => (false_imp_iff _).symm

theorem labels_clean : (selector.clean preserve).labels = cleanLabels preserve selector.labels := by
  cases selector <;> rfl

theorem ofService_clean : (selector.clean preserve).OfService ↔ selector.OfService := by
  cases selector <;> rfl

theorem mem_cleanLabels {required : Labels} {left : String × String}
    (hmanaged : ∀ label ∈ required, label.1 ∈ MANAGED_BY_LABEL_KEYS → preserve = true) :
    left ∈ cleanLabels preserve required ↔
      ∃ label ∈ required, ¬Scrubbed label.1 ∧ left = (label.1, replaceText label.2) := by
  constructor
  · intro h
    obtain ⟨hmem, hkept⟩ := List.mem_filter.mp h
    obtain ⟨label, hlabel, rfl⟩ := List.mem_map.mp hmem
    rw [Bool.not_eq_true'] at hkept
    refine ⟨label, hlabel, fun hscrubbed => ?_, rfl⟩
    exact Bool.false_ne_true (hkept.symm.trans (isRuntime_iff.mpr (.inl hscrubbed)))
  · rintro ⟨label, hlabel, hkept, rfl⟩
    refine List.mem_filter.mpr ⟨List.mem_map.mpr ⟨label, hlabel, rfl⟩, ?_⟩
    rw [Bool.not_eq_true', Bool.eq_false_iff]
    intro hruntime
    rcases isRuntime_iff.mp hruntime with hscrubbed | ⟨hpreserve, hkey, -⟩
    · exact hkept hscrubbed
    · exact Bool.false_ne_true (hpreserve.symm.trans (hmanaged label hlabel hkey))

theorem lookup_left_iff {key text : String} (hnodup : (labels.map Prod.fst).Nodup)
    (hkept : ¬Scrubbed key) :
    (cleanLabels (requiresManagedByLabels resource) labels).lookup key = some (replaceText text) ↔
      ¬Lost resource labels key ∧ (labels.lookup key).map replaceText = some (replaceText text) := by
  rw [lookup_cleanLabels hnodup, Lost]
  cases labels.lookup key with
  | none => simp
  | some value =>
    rw [Option.bind_some, Option.map_some]
    by_cases hruntime : isRuntime (requiresManagedByLabels resource) key (.str (replaceText value)) = true
    · rw [if_pos hruntime]
      rcases isRuntime_iff.mp hruntime with hscrubbed | ⟨hpreserve, hkey, hvalue⟩
      · exact absurd hscrubbed hkept
      · exact ⟨nofun, fun h => absurd ⟨hkey, congrArg some hvalue, hpreserve⟩ h.1⟩
    · rw [if_neg hruntime]
      refine ⟨fun h => ⟨?_, h⟩, fun h => h.2⟩
      rintro ⟨hkey, hvalue, hpreserve⟩
      exact hruntime (isRuntime_iff.mpr (.inr ⟨hpreserve, hkey, Option.some.inj hvalue⟩))

theorem matches_clean_iff (hmanaged : ∀ label ∈ selector.labels,
    label.1 ∈ MANAGED_BY_LABEL_KEYS → preserve = true) (hnodup : (labels.map Prod.fst).Nodup) :
    (selector.clean preserve).Matches (cleanLabels (requiresManagedByLabels resource) labels) ↔
      (∀ label ∈ selector.labels, ¬Scrubbed label.1 → ¬Lost resource labels label.1 ∧
        (labels.lookup label.1).map replaceText = some (replaceText label.2)) ∧
      (selector.OfService → ∃ label ∈ selector.labels, ¬Scrubbed label.1) := by
  rw [matches_iff, ofService_clean, labels_clean]
  refine and_congr ?_ (imp_congr_right fun _ => ?_)
  · constructor
    · intro h label hlabel hkept
      exact (lookup_left_iff hnodup hkept).mp
        (h _ ((mem_cleanLabels hmanaged).mpr ⟨label, hlabel, hkept, rfl⟩))
    · intro h left hleft
      obtain ⟨label, hlabel, hkept, rfl⟩ := (mem_cleanLabels hmanaged).mp hleft
      exact (lookup_left_iff hnodup hkept).mpr (h label hlabel hkept)
  · constructor
    · intro h
      obtain ⟨left, hleft⟩ := List.exists_mem_of_ne_nil _ h
      obtain ⟨label, hlabel, hkept, -⟩ := (mem_cleanLabels hmanaged).mp hleft
      exact ⟨label, hlabel, hkept⟩
    · rintro ⟨label, hlabel, hkept⟩
      exact List.ne_nil_of_mem ((mem_cleanLabels hmanaged).mpr ⟨label, hlabel, hkept, rfl⟩)

theorem not_scrubbed_of_managed {key : String} (h : key ∈ MANAGED_BY_LABEL_KEYS) : ¬Scrubbed key := by
  revert key
  decide

end Selecting

/-- An export selects as before just where no selected template loses a managed-by label, no
service's selector is emptied, and no label that told the two apart is scrubbed or replaced. -/
theorem export_preserves_selection_iff (selecting selected : Resource) (selector : Selector)
    (labels : Labels) (selecting' selected' : Json)
    (hselector : selector? selecting.json = some selector)
    (hlabels : templateLabels? selected.json = some labels)
    (hselecting : stripResource selecting.json = some selecting')
    (hselected : stripResource selected.json = some selected') :
    ∃ selector' labels', selector? selecting' = some selector' ∧
      templateLabels? selected' = some labels' ∧
      ((selector'.Matches labels' ↔ selector.Matches labels) ↔
        (selector.Matches labels → StaysSelected selected.json selector labels) ∧
        (¬selector.Matches labels → StaysUnselected selected.json selector labels)) := by
  refine ⟨_, _, selector?_strip selecting.distinct hselector hselecting,
    templateLabels?_strip selected.distinct hlabels hselected, ?_⟩
  have hnodup := nodup_of_templateLabels? selected.distinct hlabels
  have hafter := @matches_clean_iff selected.json _ selector labels
    (fun label => requires_of_selector hselector) hnodup
  rw [hafter]
  by_cases hbefore : selector.Matches labels
  · rw [iff_true_right hbefore, imp_iff_right hbefore]
    obtain ⟨hall, -⟩ := matches_iff.mp hbefore
    rw [and_iff_left (fun h => absurd hbefore h), StaysSelected]
    refine and_congr_left fun _ => ⟨fun h label hlabel hlost => ?_, fun h label hlabel _ => ?_⟩
    · exact (h label hlabel (not_scrubbed_of_managed hlost.1)).1 hlost
    · exact ⟨h label hlabel, congrArg (Option.map replaceText) (hall label hlabel)⟩
  · rw [iff_false_right hbefore, imp_iff_right hbefore,
      and_iff_right (fun h => absurd h hbefore), StaysUnselected]
    constructor
    · intro h
      by_contra hnot
      rw [not_or] at hnot
      refine h ⟨fun label hlabel hkept => ?_, fun hservice => ?_⟩
      · by_contra hdiffers
        refine hnot.2 ⟨label, hlabel, hkept, ?_⟩
        rwa [not_and_or, not_not] at hdiffers
      · by_contra hnone
        push Not at hnone
        exact hnot.1 ⟨hservice, hnone⟩
    · rintro (⟨hservice, hscrubbed⟩ | ⟨label, hlabel, hkept, hdiffers⟩) ⟨hall, hsome⟩
      · obtain ⟨label, hlabel, hkept⟩ := hsome hservice
        exact hkept (hscrubbed label hlabel)
      · rcases hdiffers with hlost | hne
        · exact (hall label hlabel hkept).1 hlost
        · exact hne (hall label hlabel hkept).2

/-! ## A selection that is lost -/

def shopLabels : Labels := [("app", "shop"), ("managed-by", "terraform")]

def shopService : Resource where
  json := .obj [("kind", .str "Service"),
    ("metadata", .obj [("name", .str "shop")]),
    ("spec", .obj [("selector", .obj (asFields shopLabels))])]
  distinct := distinct_of_hasDistinctKeys (by decide)

/-- A deployment whose pods have it, and which selects them without. -/
def shopDeployment : Resource where
  json := .obj [("kind", .str "Deployment"),
    ("metadata", .obj [("name", .str "shop")]),
    ("spec", .obj [("selector", .obj [("matchLabels", .obj [("app", .str "shop")])]),
      ("template", .obj [("metadata", .obj [("labels", .obj (asFields shopLabels))])])])]
  distinct := distinct_of_hasDistinctKeys (by decide)

theorem selector_shopService : selector? shopService.json = some (.service shopLabels) := by rfl

theorem labels_shopDeployment : templateLabels? shopDeployment.json = some shopLabels := by rfl

theorem isSome_shopService : (stripResource shopService.json).isSome = true := by decide

theorem isSome_shopDeployment : (stripResource shopDeployment.json).isSome = true := by decide

theorem export_preserves_selection_shop :
    ∃ selector' labels', selector? ((stripResource shopService.json).get isSome_shopService) = some selector' ∧
      templateLabels? ((stripResource shopDeployment.json).get isSome_shopDeployment) = some labels' ∧
      ((selector'.Matches labels' ↔ (Selector.service shopLabels).Matches shopLabels) ↔
        ((Selector.service shopLabels).Matches shopLabels →
          StaysSelected shopDeployment.json (.service shopLabels) shopLabels) ∧
        (¬(Selector.service shopLabels).Matches shopLabels →
          StaysUnselected shopDeployment.json (.service shopLabels) shopLabels)) :=
  export_preserves_selection_iff shopService shopDeployment (.service shopLabels) shopLabels _ _
    selector_shopService labels_shopDeployment (Option.some_get _).symm (Option.some_get _).symm

theorem matches_shop : (Selector.service shopLabels).Matches shopLabels :=
  matches_iff.mpr ⟨by decide, fun _ => List.cons_ne_nil _ _⟩

/-- The service keeps its managed-by label and the pods lose theirs. -/
theorem export_loses_selection : ¬∀ (selecting selected : Resource) (selector selector' : Selector)
    (labels labels' : Labels) (selecting' selected' : Json),
    selector? selecting.json = some selector → templateLabels? selected.json = some labels →
    stripResource selecting.json = some selecting' → stripResource selected.json = some selected' →
    selector? selecting' = some selector' → templateLabels? selected' = some labels' →
    (selector'.Matches labels' ↔ selector.Matches labels) := by
  intro h
  have hselecting := (Option.some_get isSome_shopService).symm
  have hselected := (Option.some_get isSome_shopDeployment).symm
  have hafter := (h shopService shopDeployment _ _ _ _ _ _ selector_shopService
    labels_shopDeployment hselecting hselected
    (selector?_strip shopService.distinct selector_shopService hselecting)
    (templateLabels?_strip shopDeployment.distinct labels_shopDeployment hselected)).mpr matches_shop
  have hkept : ("managed-by", "terraform") ∈
      cleanLabels (requiresManagedByLabels shopService.json) shopLabels := by decide
  have hlost : (cleanLabels (requiresManagedByLabels shopDeployment.json) shopLabels).lookup
      "managed-by" = none := by decide
  have hlookup := (matches_iff.mp hafter).1 _ hkept
  rw [hlost] at hlookup
  cases hlookup

end ClusterState.Export
