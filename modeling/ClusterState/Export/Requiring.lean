import ClusterState.Export.Settling

/-! # What the selectors require

Scrubbing a document does not change whether a selector in it requires the managed-by
labels, unless the selector is scrubbed.
-/

namespace ClusterState.Export

def selectorKeys : List String := ["selector", "matchLabels"]

def entryRequires (field : String × Json) : Bool :=
  (selectorKeys.contains field.1 && hasManagedBy field.2) || requiresManagedByLabels field.2

def HoldsSelector (j : Json) : Prop :=
  ∃ fields key selected, Json.Part (.obj fields) j ∧ (key, .obj selected) ∈ fields ∧ key ∈ selectorKeys

def EntryHoldsSelector (field : String × Json) : Prop :=
  (field.1 ∈ selectorKeys ∧ field.2.isDict = true) ∨ HoldsSelector field.2

variable {preserve : Bool} {fields : Fields} {key : String} {item j : Json} {field : String × Json}

theorem requires_obj :
    requiresManagedByLabels (.obj fields) = true ↔ ∃ field ∈ fields, entryRequires field = true := by
  rw [requiresManagedByLabels]
  induction fields with
  | nil => exact iff_of_false Bool.false_ne_true fun ⟨_, h, _⟩ => List.not_mem_nil h
  | cons field fields ih =>
    rw [requiresInFields, List.exists_mem_cons_iff, ← ih, Bool.or_eq_true]
    exact Iff.rfl

theorem requires_arr {items : List Json} : requiresManagedByLabels (.arr items) = true ↔
    ∃ item ∈ items, requiresManagedByLabels item = true := by
  rw [requiresManagedByLabels]
  induction items with
  | nil => exact iff_of_false Bool.false_ne_true fun ⟨_, h, _⟩ => List.not_mem_nil h
  | cons item items ih => rw [requiresInItems, List.exists_mem_cons_iff, ← ih, Bool.or_eq_true]

theorem entryRequires_iff : entryRequires field = true ↔
    (field.1 ∈ selectorKeys ∧ hasManagedBy field.2 = true) ∨
      requiresManagedByLabels field.2 = true := by
  rw [entryRequires, Bool.or_eq_true, Bool.and_eq_true, List.contains_iff_mem]

theorem lookup_isSome_iff {α : Type} {entries : List (String × α)} :
    (entries.lookup key).isSome = true ↔ ∃ value, (key, value) ∈ entries := by
  constructor
  · intro h
    obtain ⟨value, hvalue⟩ := Option.isSome_iff_exists.mp h
    exact ⟨value, mem_of_lookup hvalue⟩
  · rintro ⟨value, hvalue⟩
    cases h : entries.lookup key with
    | some value => rfl
    | none =>
      rw [List.lookup_eq_none_iff] at h
      exact absurd (h _ hvalue) (by simp)

theorem hasManagedBy_iff : hasManagedBy j = true ↔
    ∃ fields, j = .obj fields ∧ ∃ key ∈ MANAGED_BY_LABEL_KEYS, ∃ value, (key, value) ∈ fields := by
  constructor
  · intro h
    cases j with
    | obj fields =>
      obtain ⟨key, hkey, hvalue⟩ := List.any_eq_true.mp h
      exact ⟨fields, rfl, key, hkey, lookup_isSome_iff.mp hvalue⟩
    | _ => cases h
  · rintro ⟨fields, rfl, key, hkey, hvalue⟩
    exact List.any_eq_true.mpr ⟨key, hkey, lookup_isSome_iff.mpr hvalue⟩

theorem isDict_of_hasManagedBy (h : hasManagedBy j = true) : j.isDict = true := by
  obtain ⟨fields, rfl, -⟩ := hasManagedBy_iff.mp h
  rfl

theorem HoldsSelector.of_field (h : EntryHoldsSelector field) (hmem : field ∈ fields) :
    HoldsSelector (.obj fields) := by
  obtain ⟨key, item⟩ := field
  rcases h with ⟨hkey, hdict⟩ | ⟨inner, key', selected, hpart, hselected, hkey'⟩
  · cases item with
    | obj selected => exact ⟨fields, key, selected, .refl _, hmem, hkey⟩
    | _ => cases hdict
  · exact ⟨inner, key', selected, hpart.field hmem, hselected, hkey'⟩

theorem holdsSelector_of_requires (h : requiresManagedByLabels j = true) : HoldsSelector j := by
  induction j using Json.inductionOn with
  | obj fields ih =>
    obtain ⟨field, hfield, hrequires⟩ := requires_obj.mp h
    refine .of_field ?_ hfield
    rcases entryRequires_iff.mp hrequires with ⟨hkey, hmanaged⟩ | hitem
    · exact .inl ⟨hkey, isDict_of_hasManagedBy hmanaged⟩
    · exact .inr (ih field hfield hitem)
  | arr items ih =>
    obtain ⟨item, hitem, hrequires⟩ := requires_arr.mp h
    obtain ⟨inner, key, selected, hpart, hselected⟩ := ih item hitem hrequires
    exact ⟨inner, key, selected, hpart.item hitem, hselected⟩
  | _ => cases h

theorem entryRequires_of_holds (h : ¬ EntryHoldsSelector field) : entryRequires field = false := by
  rw [Bool.eq_false_iff]
  intro hrequires
  rcases entryRequires_iff.mp hrequires with ⟨hkey, hmanaged⟩ | hitem
  · exact h (.inl ⟨hkey, isDict_of_hasManagedBy hmanaged⟩)
  · exact h (.inr (holdsSelector_of_requires hitem))

/-! ## Scrubbing -/

theorem hasManagedBy_of_clean (h : hasManagedBy (clean preserve j) = true) : hasManagedBy j = true := by
  obtain ⟨inner, hinner, key, hkey, value, hvalue⟩ := hasManagedBy_iff.mp h
  cases j with
  | obj fields =>
    rw [clean_obj, Json.obj.injEq] at hinner
    subst hinner
    obtain ⟨item, hitem, -⟩ := mem_cleanFields.mp hvalue
    exact hasManagedBy_iff.mpr ⟨fields, rfl, key, hkey, item, hitem⟩
  | arr items =>
    rw [clean_arr] at hinner
    cases hinner
  | _ => cases hinner

theorem requires_of_clean (h : requiresManagedByLabels (clean preserve j) = true) :
    requiresManagedByLabels j = true := by
  induction j using Json.inductionOn with
  | obj fields ih =>
    rw [clean_obj] at h
    obtain ⟨⟨key, left⟩, hfield, hrequires⟩ := requires_obj.mp h
    obtain ⟨item, hitem, hleft⟩ := mem_cleanFields.mp hfield
    obtain ⟨-, -, rfl⟩ := cleanEntry_eq_some.mp hleft
    refine requires_obj.mpr ⟨_, hitem, ?_⟩
    rcases entryRequires_iff.mp hrequires with ⟨hkey, hmanaged⟩ | hclean
    · exact entryRequires_iff.mpr (.inl ⟨hkey, hasManagedBy_of_clean hmanaged⟩)
    · exact entryRequires_iff.mpr (.inr (ih _ hitem hclean))
  | arr items ih =>
    rw [clean_arr] at h
    obtain ⟨left, hleft, hrequires⟩ := requires_arr.mp h
    obtain ⟨item, hitem, rfl⟩ := List.mem_map.mp hleft
    exact requires_arr.mpr ⟨item, hitem, ih item hitem hrequires⟩
  | _ => cases h

def RuntimeClear (j : Json) : Prop :=
  ∀ fields, Json.Part (.obj fields) j → ∀ field ∈ fields,
    field.1 ∈ RUNTIME_LABELS ++ RUNTIME_ANNOTATIONS → ¬ EntryHoldsSelector field

theorem RuntimeClear.value (h : RuntimeClear (.obj fields)) (hmem : (key, item) ∈ fields) :
    RuntimeClear item := fun inner hpart => h inner (hpart.field hmem)

theorem RuntimeClear.item_of {items : List Json} (h : RuntimeClear (.arr items)) (hmem : item ∈ items) :
    RuntimeClear item := fun inner hpart => h inner (hpart.item hmem)

theorem isRuntime_true : isRuntime true key item = true ↔ key ∈ RUNTIME_LABELS ++ RUNTIME_ANNOTATIONS := by
  rw [isRuntime, Bool.not_true, Bool.false_and, Bool.false_and, Bool.or_false, Bool.or_eq_true,
    List.contains_iff_mem, List.contains_iff_mem, List.mem_append]

theorem hasManagedBy_clean (h : hasManagedBy j = true) : hasManagedBy (clean true j) = true := by
  obtain ⟨fields, rfl, key, hkey, value, hvalue⟩ := hasManagedBy_iff.mp h
  have hplain : ∀ key ∈ MANAGED_BY_LABEL_KEYS, key ∉ RUNTIME_LABELS ++ RUNTIME_ANNOTATIONS ∧
      ["annotations", "labels", "matchLabels"].contains key = false := by decide
  obtain ⟨hruntime, hmaps⟩ := hplain key hkey
  have hleft : cleanEntry true key value = some (clean true value) := by
    refine cleanEntry_eq_some.mpr ⟨?_, ?_, rfl⟩
    · exact Bool.eq_false_iff.mpr fun h => hruntime (isRuntime_true.mp h)
    · rw [isEmptied, hmaps, Bool.false_and]
  rw [clean_obj]
  exact hasManagedBy_iff.mpr ⟨_, rfl, key, hkey, _, mem_cleanFields.mpr ⟨value, hvalue, hleft⟩⟩

theorem isEmptyDict_iff : isEmptyDict j = true ↔ j = .obj [] := by
  unfold isEmptyDict
  split
  · exact iff_of_true rfl rfl
  · rename_i hne
    exact iff_of_false Bool.false_ne_true fun h => hne h

theorem entryRequires_clean (hclear : field.1 ∈ RUNTIME_LABELS ++ RUNTIME_ANNOTATIONS →
    ¬ EntryHoldsSelector field) (h : entryRequires field = true)
    (hitem : requiresManagedByLabels field.2 = true →
      requiresManagedByLabels (clean true field.2) = true) :
    cleanEntry true field.1 field.2 = some (clean true field.2) ∧
      entryRequires (field.1, clean true field.2) = true := by
  have hrequires : entryRequires (field.1, clean true field.2) = true := by
    rcases entryRequires_iff.mp h with ⟨hkey, hmanaged⟩ | hrequires
    · exact entryRequires_iff.mpr (.inl ⟨hkey, hasManagedBy_clean hmanaged⟩)
    · exact entryRequires_iff.mpr (.inr (hitem hrequires))
  refine ⟨cleanEntry_eq_some.mpr ⟨?_, ?_, rfl⟩, hrequires⟩
  · refine Bool.eq_false_iff.mpr fun hruntime => ?_
    rw [entryRequires_of_holds (hclear (isRuntime_true.mp hruntime))] at h
    cases h
  · refine Bool.eq_false_iff.mpr fun hemptied => ?_
    rw [isEmptied, Bool.and_eq_true] at hemptied
    rw [isEmptyDict_iff.mp hemptied.2] at hrequires
    rcases entryRequires_iff.mp hrequires with ⟨-, hmanaged⟩ | hrequires
    · cases hmanaged
    · cases hrequires

theorem requires_clean_true (hclear : RuntimeClear j) (h : requiresManagedByLabels j = true) :
    requiresManagedByLabels (clean true j) = true := by
  induction j using Json.inductionOn with
  | obj fields ih =>
    obtain ⟨field, hfield, hrequires⟩ := requires_obj.mp h
    obtain ⟨hleft, hrequires'⟩ := entryRequires_clean (hclear fields (.refl _) field hfield) hrequires
      (ih field hfield (hclear.value hfield))
    rw [clean_obj]
    refine requires_obj.mpr ⟨(field.1, clean true field.2), ?_, hrequires'⟩
    exact mem_cleanFields.mpr ⟨field.2, hfield, hleft⟩
  | arr items ih =>
    obtain ⟨item, hitem, hrequires⟩ := requires_arr.mp h
    rw [clean_arr]
    exact requires_arr.mpr ⟨_, List.mem_map_of_mem hitem,
      ih item hitem (hclear.item_of hitem) hrequires⟩
  | _ => cases h

/-- Scrubbing does not change what the selectors require. -/
theorem requires_clean (hclear : RuntimeClear j) :
    requiresManagedByLabels (clean (requiresManagedByLabels j) j) = requiresManagedByLabels j := by
  rw [Bool.eq_iff_iff]
  refine ⟨requires_of_clean, fun h => ?_⟩
  rw [h]
  exact requires_clean_true hclear h

end ClusterState.Export
