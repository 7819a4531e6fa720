import ClusterState.Export.Selection

/-! # What scrubbing leaves of a resource

Paths of a resource lead to what they led to before, only scrubbed. Maps of labels lose
some of their entries.
-/

namespace ClusterState.Export

open Data.PythonText (replace_eq_or)

/-- What `scrub_runtime_fields` makes of a normalized document. -/
def clean (preserve : Bool) (j : Json) : Json :=
  scrubRuntimeFields preserve (normalizeEmbeddedStrings j)

def cleanEntry (preserve : Bool) (key : String) (item : Json) : Option Json :=
  if isRuntime preserve key (normalizeEmbeddedStrings item) then none
  else if isEmptied key (clean preserve item) then none
  else some (clean preserve item)

variable {preserve : Bool} {fields : Fields} {key : String} {j : Json}

theorem lookup_of_not_mem {α : Type} {entries : List (String × α)}
    (h : key ∉ entries.map Prod.fst) : entries.lookup key = none := by
  induction entries with
  | nil => rfl
  | cons entry entries ih =>
    rw [List.map_cons, List.mem_cons, not_or] at h
    rw [List.lookup_cons, beq_eq_false_iff_ne.mpr h.1]
    exact ih h.2

def cleanFields (preserve : Bool) (fields : Fields) : Fields :=
  scrubFields preserve (normalizeFields fields)

theorem cleanFields_cons {item : Json} : cleanFields preserve ((key, item) :: fields) =
    match cleanEntry preserve key item with
    | some left => (key, left) :: cleanFields preserve fields
    | none => cleanFields preserve fields := by
  rw [cleanFields, normalizeFields, scrubFields, cleanEntry]
  split
  · rfl
  · simp only
    change (if isEmptied key (clean preserve item) then _ else _) = _
    split <;> rfl

theorem keys_cleanFields : (cleanFields preserve fields).map Prod.fst ⊆ fields.map Prod.fst := by
  induction fields with
  | nil => exact List.Subset.refl _
  | cons field fields ih =>
    obtain ⟨key, item⟩ := field
    rw [cleanFields_cons]
    split
    · exact List.cons_subset_cons _ ih
    · exact List.subset_cons_of_subset _ ih

theorem lookup_cleanFields (hnodup : (fields.map Prod.fst).Nodup) :
    (cleanFields preserve fields).lookup key =
      (fields.lookup key).bind (cleanEntry preserve key) := by
  induction fields with
  | nil => rfl
  | cons field fields ih =>
    obtain ⟨key', item⟩ := field
    rw [List.map_cons, List.nodup_cons] at hnodup
    rw [cleanFields_cons, List.lookup_cons]
    by_cases heq : key = key'
    · subst heq
      rw [beq_self_eq_true]
      simp only [Option.bind_some]
      split
      · rename_i left hleft
        rw [List.lookup_cons, beq_self_eq_true, hleft]
      · rename_i hnone
        rw [hnone]
        exact lookup_of_not_mem fun hmem => hnodup.1 (keys_cleanFields hmem)
    · have hne := beq_eq_false_iff_ne.mpr heq
      rw [hne, ← ih hnodup.2]
      split
      · rw [List.lookup_cons, hne]
      · rfl

theorem mem_of_lookup {α : Type} {entries : List (String × α)} {value : α}
    (h : entries.lookup key = some value) : (key, value) ∈ entries := by
  obtain ⟨front, back, rfl, -⟩ := List.lookup_eq_some_iff.mp h
  exact List.mem_append_right _ List.mem_cons_self

theorem Distinct.of_get {value : Json} (h : Distinct j) (hget : j.get key = some value) :
    Distinct value := by
  cases h with
  | obj fields hkeys hall => exact hall (key, value) (mem_of_lookup hget)
  | _ => cases hget

/-! ## Paths -/

def pathKeys : List String := ["kind", "spec", "selector", "template", "metadata", "jobTemplate"]

theorem cleanEntry_path (hkey : key ∈ pathKeys) {item : Json} :
    cleanEntry preserve key item = some (clean preserve item) := by
  have hplain : ∀ key ∈ pathKeys, RUNTIME_LABELS.contains key = false ∧
      MANAGED_BY_LABEL_KEYS.contains key = false ∧ RUNTIME_ANNOTATIONS.contains key = false ∧
      ["annotations", "labels", "matchLabels"].contains key = false := by decide
  obtain ⟨hlabels, hmanaged, hannotations, hmaps⟩ := hplain key hkey
  have hruntime : ∀ item, isRuntime preserve key item = false := by
    intro item
    rw [isRuntime, hlabels, hmanaged, hannotations]
    simp
  have hemptied : ∀ item, isEmptied key item = false := by
    intro item
    rw [isEmptied, hmaps, Bool.false_and]
  rw [cleanEntry, hruntime, hemptied]
  rfl

theorem clean_obj : clean preserve (.obj fields) = .obj (cleanFields preserve fields) := by
  rw [clean, normalizeEmbeddedStrings, scrubRuntimeFields, cleanFields]

theorem get_clean (hdistinct : Distinct j) :
    (clean preserve j).get key = (j.get key).bind (cleanEntry preserve key) := by
  cases hdistinct with
  | obj fields hkeys hall =>
    rw [clean_obj]
    exact lookup_cleanFields hkeys
  | _ => rfl

theorem get_clean_path (hdistinct : Distinct j) (hkey : key ∈ pathKeys) :
    (clean preserve j).get key = (j.get key).map (clean preserve) := by
  rw [get_clean hdistinct]
  cases j.get key with
  | none => rfl
  | some item => exact cleanEntry_path hkey

theorem inSpec_clean (hdistinct : Distinct j) (hkey : key ∈ pathKeys) :
    inSpec key (clean preserve j) = (inSpec key j).map (clean preserve) := by
  rw [inSpec, inSpec, get_clean_path hdistinct (by simp [pathKeys])]
  cases hspec : j.get "spec" with
  | none => rfl
  | some spec => exact get_clean_path (hdistinct.of_get hspec) hkey

theorem Distinct.inSpec {value : Json} (h : Distinct j) (hvalue : inSpec key j = some value) :
    Distinct value := by
  obtain ⟨spec, hspec, hget⟩ := Option.bind_eq_some_iff.mp hvalue
  exact (h.of_get hspec).of_get hget

/-! ## Strings -/

theorem replaceText_eq_or (text : String) : replaceText text = text ∨ ' ' ∈ (replaceText text).toList := by
  have hnew : ' ' ∈ "Managed in cluster-state".toList := by decide
  rcases replace_eq_or "Managed by Terraform".toList hnew text.toList with h | h
  · exact .inl (by rw [replaceText, h, String.ofList_toList])
  · exact .inr (by rwa [replaceText, String.toList_ofList])

theorem replaceText_eq_iff {text word : String} (hword : ' ' ∉ word.toList)
    (hsame : replaceText word = word) : replaceText text = word ↔ text = word := by
  constructor
  · intro h
    rcases replaceText_eq_or text with heq | hblank
    · rw [← heq, h]
    · rw [h] at hblank
      exact absurd hblank hword
  · rintro rfl
    exact hsame

/-! ## Labels -/

def asFields (labels : Labels) : Fields := labels.map fun label => (label.1, .str label.2)

def cleanLabels (preserve : Bool) (labels : Labels) : Labels :=
  (labels.map fun label => (label.1, replaceText label.2)).filter fun label =>
    !isRuntime preserve label.1 (.str label.2)

theorem labels?_eq_some {labels : Labels} : labels? j = some labels ↔ j = .obj (asFields labels) := by
  constructor
  · intro h
    cases j with
    | obj fields =>
      rw [Json.obj.injEq]
      change fields.mapM label? = some labels at h
      induction fields generalizing labels with
      | nil =>
        cases h
        rfl
      | cons field fields ih =>
        rw [List.mapM_cons] at h
        obtain ⟨label, hlabel, h⟩ := Option.bind_eq_some_iff.mp h
        obtain ⟨rest, hrest, h⟩ := Option.bind_eq_some_iff.mp h
        cases h
        obtain ⟨text, htext, rfl⟩ := Option.map_eq_some_iff.mp hlabel
        obtain ⟨key, value⟩ := field
        cases value <;> cases htext
        rw [ih hrest]
        rfl
    | _ => cases h
  · rintro rfl
    change (asFields labels).mapM label? = some labels
    induction labels with
    | nil => rfl
    | cons label labels ih =>
      change ((label.1, Json.str label.2) :: asFields labels).mapM label? = _
      rw [List.mapM_cons, ih]
      rfl

theorem cleanLabels_cons {label : String × String} {labels : Labels} :
    cleanLabels preserve (label :: labels) =
      if isRuntime preserve label.1 (.str (replaceText label.2)) then cleanLabels preserve labels
      else (label.1, replaceText label.2) :: cleanLabels preserve labels := by
  rw [cleanLabels, List.map_cons, List.filter_cons]
  cases isRuntime preserve label.1 (.str (replaceText label.2)) <;> rfl

theorem cleanEntry_str {text : String} : cleanEntry preserve key (.str text) =
    if isRuntime preserve key (.str (replaceText text)) then none
    else some (.str (replaceText text)) := by
  have hemptied : isEmptied key (clean preserve (.str text)) = false := Bool.and_false _
  rw [cleanEntry, hemptied]
  rfl

theorem clean_asFields {labels : Labels} :
    clean preserve (.obj (asFields labels)) = .obj (asFields (cleanLabels preserve labels)) := by
  rw [clean_obj, Json.obj.injEq]
  induction labels with
  | nil => rfl
  | cons label labels ih =>
    change cleanFields preserve ((label.1, .str label.2) :: asFields labels) = _
    rw [cleanFields_cons, cleanEntry_str, cleanLabels_cons, ih]
    cases isRuntime preserve label.1 (.str (replaceText label.2)) <;> rfl

theorem labels?_clean {labels : Labels} (h : labels? j = some labels) :
    labels? (clean preserve j) = some (cleanLabels preserve labels) := by
  obtain rfl := labels?_eq_some.mp h
  exact labels?_eq_some.mpr clean_asFields

theorem labelsAt_of_some {value : Json} (h : j.get key = some value) :
    labelsAt key j = labels? value := by rw [labelsAt, h]

theorem labelsAt_of_none (h : j.get key = none) :
    labelsAt key j = if j.isDict then some [] else none := by rw [labelsAt, h]

theorem isDict_clean (h : j.isDict = true) : (clean preserve j).isDict = true := by
  cases j with
  | obj fields => rw [clean_obj]; rfl
  | _ => cases h

theorem labelsAt_clean {labels : Labels} (hdistinct : Distinct j)
    (hkey : key ∈ ["labels", "matchLabels"]) (h : labelsAt key j = some labels) :
    labelsAt key (clean preserve j) = some (cleanLabels preserve labels) := by
  have hplain : ∀ key ∈ ["labels", "matchLabels"], RUNTIME_LABELS.contains key = false ∧
      MANAGED_BY_LABEL_KEYS.contains key = false ∧ RUNTIME_ANNOTATIONS.contains key = false := by
    decide
  obtain ⟨hlabels, hmanaged, hannotations⟩ := hplain key hkey
  have hruntime : ∀ item, isRuntime preserve key item = false := by
    intro item
    rw [isRuntime, hlabels, hmanaged, hannotations]
    simp
  have hget := @get_clean preserve key j hdistinct
  cases hvalue : j.get key with
  | some value =>
    rw [labelsAt_of_some hvalue] at h
    obtain rfl := labels?_eq_some.mp h
    rw [hvalue, Option.bind_some, cleanEntry, hruntime, clean_asFields] at hget
    cases hleft : cleanLabels preserve labels with
    | nil =>
      have hemptied : isEmptied key (.obj (asFields [])) = true := by
        rw [isEmptied, List.contains_iff_mem.mpr (List.mem_cons_of_mem _ hkey)]
        rfl
      have hdict : j.isDict = true := by
        cases j with
        | obj fields => rfl
        | _ => cases hvalue
      rw [hleft, hemptied] at hget
      rw [labelsAt_of_none hget, if_pos (isDict_clean hdict)]
    | cons label rest =>
      have hemptied : isEmptied key (.obj (asFields (label :: rest))) = false := Bool.and_false _
      rw [hleft, hemptied] at hget
      rw [labelsAt_of_some hget]
      exact labels?_eq_some.mpr rfl
  | none =>
    rw [labelsAt_of_none hvalue] at h
    rw [hvalue, Option.bind_none] at hget
    split at h
    · rename_i hdict
      cases h
      rw [labelsAt_of_none hget, if_pos (isDict_clean hdict)]
      rfl
    · cases h

theorem labelsOfTemplate_clean {labels : Labels} (hdistinct : Distinct j)
    (h : labelsOfTemplate j = some labels) :
    labelsOfTemplate (clean preserve j) = some (cleanLabels preserve labels) := by
  have hget := @get_clean_path preserve "metadata" j hdistinct (by simp [pathKeys])
  unfold labelsOfTemplate at h ⊢
  cases hmetadata : j.get "metadata" with
  | some metadata =>
    rw [hmetadata] at h hget
    rw [hget]
    exact labelsAt_clean (hdistinct.of_get hmetadata) (by simp) h
  | none =>
    rw [hmetadata] at h hget
    rw [hget]
    simp only [Option.map_none] at h ⊢
    split at h
    · rename_i hdict
      cases h
      rw [if_pos (isDict_clean hdict)]
      rfl
    · cases h

/-! ## Selectors and templates -/

def selectingKinds : List String := "Service" :: "CronJob" :: workloadKinds

theorem replaceText_kind {kind : String} (h : kind ∈ selectingKinds) : replaceText kind = kind := by
  revert kind
  decide

theorem kindOf_clean (hdistinct : Distinct j) {kind : String} (hkind : kindOf j = some kind)
    (hselecting : kind ∈ selectingKinds) : kindOf (clean preserve j) = some kind := by
  obtain ⟨value, hvalue, htext⟩ := Option.bind_eq_some_iff.mp hkind
  cases value <;> cases htext
  rw [kindOf, get_clean_path hdistinct (by simp [pathKeys]), hvalue]
  exact congrArg some (replaceText_kind hselecting)

theorem kind_of_inWorkload {value : Json} (h : inWorkload key j = some value) :
    ∃ kind, kindOf j = some kind ∧ kind ∈ selectingKinds ∧ kind ≠ "Service" := by
  obtain ⟨kind, hkind, h⟩ := Option.bind_eq_some_iff.mp h
  refine ⟨kind, hkind, ?_⟩
  split at h
  · rename_i hmem
    rw [List.contains_iff_mem] at hmem
    exact ⟨List.mem_cons_of_mem _ (List.mem_cons_of_mem _ hmem), fun heq => by
      rw [heq] at hmem
      exact absurd hmem (by decide)⟩
  · split at h
    · rename_i hcron
      subst hcron
      exact ⟨by decide, by decide⟩
    · cases h

theorem inWorkload_of_kind {kind : String} (h : kindOf j = some kind) :
    inWorkload key j = if workloadKinds.contains kind then inSpec key j
      else if kind = "CronJob" then (inSpec "jobTemplate" j).bind (inSpec key) else none := by
  rw [inWorkload, h]
  rfl

theorem inWorkload_clean {value : Json} (hdistinct : Distinct j) (hkey : key ∈ pathKeys)
    (h : inWorkload key j = some value) :
    Distinct value ∧ inWorkload key (clean preserve j) = some (clean preserve value) := by
  obtain ⟨kind, hkind, hselecting, -⟩ := kind_of_inWorkload h
  rw [inWorkload_of_kind hkind] at h
  rw [inWorkload_of_kind (kindOf_clean hdistinct hkind hselecting), inSpec_clean hdistinct hkey]
  split at h
  · rename_i hplain
    rw [if_pos hplain, h]
    exact ⟨hdistinct.inSpec h, rfl⟩
  · rename_i hplain
    rw [if_neg hplain]
    split at h
    · rename_i hcron
      obtain ⟨template, htemplate, h⟩ := Option.bind_eq_some_iff.mp h
      have hdistinct' := hdistinct.inSpec htemplate
      rw [if_pos hcron, inSpec_clean hdistinct (by simp [pathKeys]), htemplate, Option.map_some,
        Option.bind_some, inSpec_clean hdistinct' hkey, h]
      exact ⟨hdistinct'.inSpec h, rfl⟩
    · cases h

theorem kindOf_clean_ne (hdistinct : Distinct j) {kind : String} (hkind : kindOf j = some kind)
    (hselecting : kind ∈ selectingKinds) (hne : kind ≠ "Service") :
    kindOf (clean preserve j) ≠ some "Service" := by
  rw [kindOf_clean hdistinct hkind hselecting]
  exact fun h => hne (Option.some.inj h)

def Selector.clean (preserve : Bool) : Selector → Selector
  | service labels => service (cleanLabels preserve labels)
  | workload labels => workload (cleanLabels preserve labels)

theorem selector?_clean {selector : Selector} (hdistinct : Distinct j)
    (h : selector? j = some selector) :
    selector? (clean preserve j) = some (selector.clean preserve) := by
  unfold selector? at h
  split at h
  · rename_i hservice
    obtain ⟨labels, hlabels, rfl⟩ := Option.map_eq_some_iff.mp h
    obtain ⟨value, hvalue, hlabels⟩ := Option.bind_eq_some_iff.mp hlabels
    rw [selector?, if_pos (kindOf_clean hdistinct hservice List.mem_cons_self),
      inSpec_clean hdistinct (by simp [pathKeys]), hvalue, Option.map_some, Option.bind_some,
      labels?_clean hlabels]
    rfl
  · obtain ⟨labels, hlabels, rfl⟩ := Option.map_eq_some_iff.mp h
    obtain ⟨value, hvalue, hlabels⟩ := Option.bind_eq_some_iff.mp hlabels
    obtain ⟨kind, hkind, hselecting, hne⟩ := kind_of_inWorkload hvalue
    obtain ⟨hdistinct', hclean⟩ := @inWorkload_clean preserve _ _ _ hdistinct
      (by simp [pathKeys]) hvalue
    rw [selector?, if_neg (kindOf_clean_ne hdistinct hkind hselecting hne), hclean,
      Option.bind_some, labelsAt_clean hdistinct' (by simp) hlabels]
    rfl

theorem templateLabels?_clean {labels : Labels} (hdistinct : Distinct j)
    (h : templateLabels? j = some labels) :
    templateLabels? (clean preserve j) = some (cleanLabels preserve labels) := by
  obtain ⟨template, htemplate, hlabels⟩ := Option.bind_eq_some_iff.mp h
  obtain ⟨hdistinct', hclean⟩ := @inWorkload_clean preserve _ _ _ hdistinct
    (by simp [pathKeys]) htemplate
  rw [templateLabels?, hclean, Option.bind_some]
  exact labelsOfTemplate_clean hdistinct' hlabels

end ClusterState.Export
