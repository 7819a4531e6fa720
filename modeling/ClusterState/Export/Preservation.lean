import ClusterState.Export.Scrubbing

/-! # Export and selection

What `strip_resource` does beside scrubbing touches no selector and no template. So a
selection changes just where labels of the one side are scrubbed and those of the other
are not.
-/

namespace ClusterState.Export

/-! ## Beside scrubbing -/

section Dictionaries

variable {fields : Fields} {key key' : String} {value : Json}

theorem lookup_pop_ne (h : key' ≠ key) : (pop key fields).lookup key' = fields.lookup key' := by
  induction fields with
  | nil => rfl
  | cons field fields ih =>
    rw [pop, List.filter_cons]
    change (if _ then _ :: pop key fields else pop key fields).lookup key' = _
    by_cases hkey : field.1 = key
    · rw [if_neg (by simp [hkey]), ih, List.lookup_cons, beq_eq_false_iff_ne.mpr (hkey ▸ h)]
    · rw [if_pos (by simp [hkey]), List.lookup_cons, List.lookup_cons, ih]

theorem lookup_popAll {keys : List String} (h : key' ∉ keys) :
    (popAll keys fields).lookup key' = fields.lookup key' := by
  induction keys generalizing fields with
  | nil => rfl
  | cons key keys ih =>
    rw [List.mem_cons, not_or] at h
    change (popAll keys (pop key fields)).lookup key' = _
    rw [ih h.2, lookup_pop_ne h.1]

theorem lookup_set : (set key value fields).lookup key = some value := by
  induction fields with
  | nil => rw [set, List.lookup_cons, beq_self_eq_true]
  | cons field fields ih =>
    rw [set]
    by_cases hkey : field.1 = key
    · rw [if_pos (beq_iff_eq.mpr hkey), hkey, List.lookup_cons, beq_self_eq_true]
    · rw [if_neg (by simpa using hkey), List.lookup_cons, beq_eq_false_iff_ne.mpr (Ne.symm hkey)]
      exact ih

theorem lookup_set_ne (h : key' ≠ key) : (set key value fields).lookup key' = fields.lookup key' := by
  induction fields with
  | nil => rw [set, List.lookup_cons, beq_eq_false_iff_ne.mpr h]
  | cons field fields ih =>
    rw [set]
    by_cases hkey : field.1 = key
    · rw [if_pos (beq_iff_eq.mpr hkey), List.lookup_cons, List.lookup_cons,
        beq_eq_false_iff_ne.mpr (hkey ▸ h)]
    · rw [if_neg (by simpa using hkey), List.lookup_cons, List.lookup_cons, ih]

end Dictionaries

def selectionKeys : List String := ["selector", "template", "jobTemplate"]

structure Same (a b : Fields) : Prop where
  kind : kindOf (.obj a) = kindOf (.obj b)
  spec : ∀ key ∈ selectionKeys, inSpec key (.obj a) = inSpec key (.obj b)

variable {a b c : Fields}

theorem Same.refl (a : Fields) : Same a a := ⟨rfl, fun _ _ => rfl⟩

theorem Same.trans (h : Same a b) (h' : Same b c) : Same a c :=
  ⟨h.kind.trans h'.kind, fun key hkey => (h.spec key hkey).trans (h'.spec key hkey)⟩

theorem same_of_lookup (hkind : a.lookup "kind" = b.lookup "kind")
    (hspec : a.lookup "spec" = b.lookup "spec") : Same a b := by
  refine ⟨?_, fun key _ => ?_⟩
  · change (a.lookup "kind").bind Json.str? = (b.lookup "kind").bind Json.str?
    rw [hkind]
  · change (a.lookup "spec").bind (fun spec => spec.get key) = (b.lookup "spec").bind fun spec => spec.get key
    rw [hspec]

theorem same_set_spec {spec spec' : Fields} (hspec : a.lookup "spec" = some (.obj spec))
    (h : ∀ key ∈ selectionKeys, spec'.lookup key = spec.lookup key) :
    Same (set "spec" (.obj spec') a) a := by
  refine ⟨?_, fun key hkey => ?_⟩
  · change ((set "spec" (.obj spec') a).lookup "kind").bind Json.str? =
      (a.lookup "kind").bind Json.str?
    rw [lookup_set_ne (by decide)]
  · change ((set "spec" (.obj spec') a).lookup "spec").bind (fun spec => spec.get key) =
      (a.lookup "spec").bind fun spec => spec.get key
    rw [lookup_set, hspec]
    exact h key hkey

theorem dict_eq_some {j : Json} {fields : Fields} : dict j = some fields ↔ j = .obj fields := by
  cases j <;> simp [dict]

theorem same_onSpec {f : Fields → Fields} (hf : ∀ fields, ∀ key ∈ selectionKeys,
    (f fields).lookup key = fields.lookup key) (h : onSpec f a = some b) : Same b a := by
  unfold onSpec at h
  split at h
  · cases h
    exact .refl a
  · rename_i value hvalue
    obtain ⟨spec, hspec, h⟩ := Option.bind_eq_some_iff.mp h
    cases h
    rw [dict_eq_some.mp hspec] at hvalue
    exact same_set_spec hvalue (hf spec)

theorem lookup_stripService {spec : Fields} {key : String} (hkey : key ∈ selectionKeys) :
    (stripService spec).lookup key = spec.lookup key := by
  have hne : ∀ key ∈ selectionKeys, key ∉ ["clusterIP", "clusterIPs"] ∧
      key ∉ ["healthCheckNodePort", "ipFamilies", "ipFamilyPolicy"] ∧
      key ≠ "sessionAffinityConfig" := by decide
  obtain ⟨hcluster, hfamilies, haffinity⟩ := hne key hkey
  unfold stripService
  dsimp only
  have hfirst : (if (spec.lookup "clusterIP").bind Json.str? ≠ some "None" then
      popAll ["clusterIP", "clusterIPs"] spec else spec).lookup key = spec.lookup key := by
    split
    · exact lookup_popAll hcluster
    · rfl
  refine Eq.trans ?_ hfirst
  generalize (if (spec.lookup "clusterIP").bind Json.str? ≠ some "None" then
      popAll ["clusterIP", "clusterIPs"] spec else spec) = first
  split
  · exact lookup_popAll hfamilies
  · rw [lookup_pop_ne haffinity, lookup_popAll hfamilies]

theorem same_stripKind {metadata : Fields} {kind : String} (hkind : kindOf (.obj a) = some kind)
    (hselecting : kind ∈ selectingKinds) (h : stripKind metadata a = some b) : Same b a := by
  have hlookup : (a.lookup "kind").bind Json.str? = some kind := hkind
  unfold stripKind at h
  rw [hlookup] at h
  simp only [selectingKinds, workloadKinds, List.mem_cons, List.not_mem_nil, or_false] at hselecting
  rcases hselecting with rfl | rfl | rfl | rfl | rfl | rfl | rfl
  · exact same_onSpec (fun _ _ => lookup_stripService) h
  all_goals
    cases h
    exact .refl a

theorem same_restore {original : Fields}
    (h : restoreStatefulsetVolumeClaimLabels a original = some b) : Same b a := by
  unfold restoreStatefulsetVolumeClaimLabels at h
  split at h
  · cases h
    exact .refl a
  · obtain ⟨spec₀, -, h⟩ := Option.bind_eq_some_iff.mp h
    obtain ⟨templates₀, -, h⟩ := Option.bind_eq_some_iff.mp h
    obtain ⟨byName, -, h⟩ := Option.bind_eq_some_iff.mp h
    obtain ⟨spec, hspec, h⟩ := Option.bind_eq_some_iff.mp h
    obtain ⟨templates, -, h⟩ := Option.bind_eq_some_iff.mp h
    obtain ⟨restored, -, h⟩ := Option.bind_eq_some_iff.mp h
    cases h
    split
    · rename_i items hitems
      unfold getDict at hspec
      split at hspec
      · rename_i value hvalue
        rw [dict_eq_some.mp hspec] at hvalue
        refine same_set_spec hvalue fun key hkey => lookup_set_ne ?_
        rintro rfl
        exact absurd hkey (by decide)
      · cases hspec
        cases hitems
    · exact .refl a

theorem same_strip {r r' : Json} (hdistinct : Distinct r) {kind : String} (hkind : kindOf r = some kind)
    (hselecting : kind ∈ selectingKinds) (h : stripResource r = some r') :
    ∃ exported, r' = .obj exported ∧ ∃ cleaned,
      clean (requiresManagedByLabels r) r = .obj cleaned ∧ Same exported cleaned := by
  obtain ⟨original, horiginal, h⟩ := Option.bind_eq_some_iff.mp h
  obtain rfl := dict_eq_some.mp horiginal
  obtain ⟨metadata, -, h⟩ := Option.bind_eq_some_iff.mp h
  obtain ⟨trimmed, -, h⟩ := Option.bind_eq_some_iff.mp h
  obtain ⟨exported, hexported, h⟩ := Option.bind_eq_some_iff.mp h
  obtain ⟨restored, hrestored, h⟩ := Option.bind_eq_some_iff.mp h
  cases h
  refine ⟨restored, rfl, cleanFields (requiresManagedByLabels (.obj original)) original, clean_obj, ?_⟩
  have hstripped : Same (pop "status" (set "metadata" (.obj trimmed)
      (cleanFields (requiresManagedByLabels (.obj original)) original)))
      (cleanFields (requiresManagedByLabels (.obj original)) original) := by
    apply same_of_lookup
    · rw [lookup_pop_ne (by decide), lookup_set_ne (by decide)]
    · rw [lookup_pop_ne (by decide), lookup_set_ne (by decide)]
  refine (same_restore hrestored).trans ((same_stripKind ?_ hselecting hexported).trans hstripped)
  rw [← kindOf_clean hdistinct hkind hselecting, clean_obj]
  exact hstripped.kind

theorem inWorkload_congr {j j' : Json} {key : String} (hkind : kindOf j = kindOf j')
    (hkey : inSpec key j = inSpec key j') (hcron : inSpec "jobTemplate" j = inSpec "jobTemplate" j') :
    inWorkload key j = inWorkload key j' := by
  rw [inWorkload, inWorkload, hkind, hkey, hcron]

theorem Same.selector? (h : Same a b) : selector? (.obj a) = Export.selector? (.obj b) := by
  rw [Export.selector?, Export.selector?, h.kind, h.spec "selector" (by decide),
    inWorkload_congr h.kind (h.spec "selector" (by decide)) (h.spec "jobTemplate" (by decide))]

theorem Same.templateLabels? (h : Same a b) :
    templateLabels? (.obj a) = Export.templateLabels? (.obj b) := by
  rw [Export.templateLabels?, Export.templateLabels?,
    inWorkload_congr h.kind (h.spec "template" (by decide)) (h.spec "jobTemplate" (by decide))]

theorem kind_of_selector {j : Json} {selector : Selector} (h : selector? j = some selector) :
    ∃ kind, kindOf j = some kind ∧ kind ∈ selectingKinds := by
  unfold selector? at h
  split at h
  · rename_i hservice
    exact ⟨"Service", hservice, List.mem_cons_self⟩
  · obtain ⟨labels, hlabels, -⟩ := Option.map_eq_some_iff.mp h
    obtain ⟨value, hvalue, -⟩ := Option.bind_eq_some_iff.mp hlabels
    obtain ⟨kind, hkind, hselecting, -⟩ := kind_of_inWorkload hvalue
    exact ⟨kind, hkind, hselecting⟩

theorem selector?_strip {r r' : Json} {selector : Selector} (hdistinct : Distinct r)
    (h : selector? r = some selector) (hstrip : stripResource r = some r') :
    selector? r' = some (selector.clean (requiresManagedByLabels r)) := by
  obtain ⟨kind, hkind, hselecting⟩ := kind_of_selector h
  obtain ⟨exported, rfl, cleaned, hcleaned, hsame⟩ := same_strip hdistinct hkind hselecting hstrip
  rw [hsame.selector?, ← hcleaned]
  exact selector?_clean hdistinct h

theorem templateLabels?_strip {r r' : Json} {labels : Labels} (hdistinct : Distinct r)
    (h : templateLabels? r = some labels) (hstrip : stripResource r = some r') :
    templateLabels? r' = some (cleanLabels (requiresManagedByLabels r) labels) := by
  obtain ⟨template, htemplate, -⟩ := Option.bind_eq_some_iff.mp h
  obtain ⟨kind, hkind, hselecting, -⟩ := kind_of_inWorkload htemplate
  obtain ⟨exported, rfl, cleaned, hcleaned, hsame⟩ := same_strip hdistinct hkind hselecting hstrip
  rw [hsame.templateLabels?, ← hcleaned]
  exact templateLabels?_clean hdistinct h

end ClusterState.Export
