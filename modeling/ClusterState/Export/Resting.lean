import ClusterState.Export.Requiring

/-! # What is at rest

What `strip_resource` does beside scrubbing finds nothing to do in its own result.
-/

namespace ClusterState.Export

variable {fields : Fields} {key key' : String} {value value' : Json} {field : String × Json}
  {preserve : Bool}

/-! ## Dictionaries -/

theorem mem_pop : field ∈ pop key fields ↔ field ∈ fields ∧ field.1 ≠ key := by
  rw [pop, List.mem_filter, bne_iff_ne]

theorem mem_popAll {keys : List String} :
    field ∈ popAll keys fields ↔ field ∈ fields ∧ field.1 ∉ keys := by
  induction keys generalizing fields with
  | nil => simp [popAll]
  | cons key keys ih =>
    change field ∈ popAll keys (pop key fields) ↔ _
    rw [ih, mem_pop, List.mem_cons, not_or, and_assoc]

theorem pop_eq_self (h : ∀ field ∈ fields, field.1 ≠ key) : pop key fields = fields :=
  List.filter_eq_self.mpr fun field hfield => bne_iff_ne.mpr (h field hfield)

theorem popAll_eq_self {keys : List String} (h : ∀ field ∈ fields, field.1 ∉ keys) :
    popAll keys fields = fields := by
  induction keys with
  | nil => rfl
  | cons key keys ih =>
    have hkey : ∀ field ∈ fields, field.1 ≠ key := fun field hfield heq =>
      h field hfield (heq ▸ List.mem_cons_self)
    change popAll keys (pop key fields) = fields
    rw [pop_eq_self hkey]
    exact ih fun field hfield hmem => h field hfield (List.mem_cons_of_mem key hmem)

theorem popAll_sublist {keys : List String} : (popAll keys fields).Sublist fields := by
  induction keys generalizing fields with
  | nil => exact List.Sublist.refl _
  | cons key keys ih => exact (@ih (pop key fields)).trans List.filter_sublist

theorem mem_set (h : field ∈ set key value fields) : field = (key, value) ∨ field ∈ fields := by
  induction fields with
  | nil => exact .inl (List.mem_singleton.mp h)
  | cons head fields ih =>
    rw [set] at h
    split at h
    · rename_i heq
      rcases List.mem_cons.mp h with h | h
      · exact .inl (h.trans (congrArg (·, value) (beq_iff_eq.mp heq)))
      · exact .inr (List.mem_cons_of_mem _ h)
    · rcases List.mem_cons.mp h with h | h
      · exact .inr (h ▸ List.mem_cons_self)
      · exact (ih h).imp_right (List.mem_cons_of_mem _)

theorem set_eq_self (h : fields.lookup key = some value) : set key value fields = fields := by
  induction fields with
  | nil => cases h
  | cons head fields ih =>
    obtain ⟨k, v⟩ := head
    rw [List.lookup_cons] at h
    rw [set]
    by_cases heq : k = key
    · subst heq
      rw [beq_self_eq_true] at h ⊢
      cases h
      rfl
    · rw [beq_eq_false_iff_ne.mpr (Ne.symm heq)] at h
      rw [beq_eq_false_iff_ne.mpr heq]
      exact congrArg ((k, v) :: ·) (ih h)

theorem set_set : set key value' (set key value fields) = set key value' fields := by
  induction fields with
  | nil => simp [set]
  | cons head fields ih =>
    obtain ⟨k, v⟩ := head
    by_cases heq : k = key
    · simp [set, heq]
    · simp [set, heq, ih]

theorem keys_set : (set key value fields).map Prod.fst =
    if key ∈ fields.map Prod.fst then fields.map Prod.fst else fields.map Prod.fst ++ [key] := by
  induction fields with
  | nil => rfl
  | cons head fields ih =>
    obtain ⟨k, v⟩ := head
    by_cases heq : k = key
    · simp [set, heq]
    · rw [set, if_neg (by simpa using heq), List.map_cons, ih, List.map_cons]
      by_cases hmem : key ∈ fields.map Prod.fst
      · rw [if_pos hmem, if_pos (List.mem_cons_of_mem k hmem)]
      · rw [if_neg hmem, if_neg (fun h => (List.mem_cons.mp h).elim (Ne.symm heq) hmem), List.cons_append]

theorem nodup_set (h : (fields.map Prod.fst).Nodup) : ((set key value fields).map Prod.fst).Nodup := by
  rw [keys_set]
  split
  · exact h
  · rename_i hmem
    exact List.nodup_append.mpr ⟨h, List.nodup_singleton key, fun a ha b hb heq =>
      hmem (List.mem_singleton.mp hb ▸ heq ▸ ha)⟩

theorem lookup_of_mem (hnodup : (fields.map Prod.fst).Nodup) (h : (key, value) ∈ fields) :
    fields.lookup key = some value := by
  obtain ⟨value', hvalue'⟩ := Option.isSome_iff_exists.mp (lookup_isSome_iff.mpr ⟨value, h⟩)
  have hmem := mem_of_lookup hvalue'
  have heq := List.inj_on_of_nodup_map hnodup h hmem rfl
  rw [hvalue', (Prod.mk.inj heq).2]

/-! ## Settled dictionaries -/

theorem Settled.subset {inner : Fields} (h : Settled preserve fields) (hsubset : inner ⊆ fields) :
    Settled preserve inner := fun field hfield => h field (hsubset hfield)

theorem Settled.pop (h : Settled preserve fields) : Settled preserve (pop key fields) :=
  h.subset List.filter_sublist.subset

theorem Settled.popAll {keys : List String} (h : Settled preserve fields) :
    Settled preserve (popAll keys fields) := h.subset popAll_sublist.subset

theorem Settled.set (h : Settled preserve fields) (hvalue : cleanEntry preserve key value = some value) :
    Settled preserve (set key value fields) := by
  intro field hfield
  rcases mem_set hfield with rfl | hfield
  · exact hvalue
  · exact h field hfield

def Plain (key : String) : Prop :=
  key ∉ RUNTIME_LABELS ++ RUNTIME_ANNOTATIONS ∧ key ∉ MANAGED_BY_LABEL_KEYS

instance : Decidable (Plain key) := by
  unfold Plain
  infer_instance

theorem isRuntime_plain (h : Plain key) : isRuntime preserve key value = false := by
  have hlabels : RUNTIME_LABELS.contains key = false := by
    rw [Bool.eq_false_iff]
    exact fun hmem => h.1 (List.mem_append_left _ (List.contains_iff_mem.mp hmem))
  have hannotations : RUNTIME_ANNOTATIONS.contains key = false := by
    rw [Bool.eq_false_iff]
    exact fun hmem => h.1 (List.mem_append_right _ (List.contains_iff_mem.mp hmem))
  have hmanaged : MANAGED_BY_LABEL_KEYS.contains key = false := by
    rw [Bool.eq_false_iff]
    exact fun hmem => h.2 (List.contains_iff_mem.mp hmem)
  rw [isRuntime, hlabels, hannotations, hmanaged]
  simp

theorem cleanEntry_of_settled {inner : Fields} (hkey : Plain key) (h : Settled preserve inner)
    (hemptied : isEmptied key (.obj inner) = false) :
    cleanEntry preserve key (.obj inner) = some (.obj inner) :=
  cleanEntry_eq_some.mpr ⟨isRuntime_plain hkey, h.clean_eq.symm ▸ hemptied, h.clean_eq⟩

theorem isEmptied_of_ne {inner : Fields} (h : inner ≠ []) : isEmptied key (.obj inner) = false := by
  cases inner with
  | nil => exact absurd rfl h
  | cons field inner => exact Bool.and_false _

/-! ## What is required -/

theorem requires_filter {keeps : String × Json → Bool}
    (h : ∀ field ∈ fields, keeps field = false → entryRequires field = false) :
    requiresManagedByLabels (.obj (fields.filter keeps)) = requiresManagedByLabels (.obj fields) := by
  rw [Bool.eq_iff_iff, requires_obj, requires_obj]
  constructor
  · rintro ⟨field, hfield, hrequires⟩
    exact ⟨field, (List.mem_filter.mp hfield).1, hrequires⟩
  · rintro ⟨field, hfield, hrequires⟩
    refine ⟨field, List.mem_filter.mpr ⟨hfield, ?_⟩, hrequires⟩
    cases hkeeps : keeps field with
    | true => rfl
    | false =>
      rw [h field hfield hkeeps] at hrequires
      cases hrequires

theorem requires_pop (h : ∀ field ∈ fields, field.1 = key → entryRequires field = false) :
    requiresManagedByLabels (.obj (pop key fields)) = requiresManagedByLabels (.obj fields) :=
  requires_filter fun field hfield hkey => h field hfield (by simpa using hkey)

theorem requires_popAll {keys : List String}
    (h : ∀ field ∈ fields, field.1 ∈ keys → entryRequires field = false) :
    requiresManagedByLabels (.obj (popAll keys fields)) = requiresManagedByLabels (.obj fields) := by
  induction keys generalizing fields with
  | nil => rfl
  | cons key keys ih =>
    change requiresManagedByLabels (.obj (popAll keys (pop key fields))) = _
    rw [ih, requires_pop]
    · exact fun field hfield hkey => h field hfield (hkey ▸ List.mem_cons_self)
    · exact fun field hfield hkey => h field (mem_pop.mp hfield).1 (List.mem_cons_of_mem _ hkey)

theorem requires_set (hlookup : fields.lookup key = some value)
    (h : entryRequires (key, value') = entryRequires (key, value)) :
    requiresManagedByLabels (.obj (set key value' fields)) = requiresManagedByLabels (.obj fields) := by
  rw [requiresManagedByLabels, requiresManagedByLabels]
  induction fields with
  | nil => cases hlookup
  | cons head fields ih =>
    obtain ⟨k, v⟩ := head
    rw [List.lookup_cons] at hlookup
    rw [set]
    by_cases heq : k = key
    · subst heq
      rw [beq_self_eq_true] at hlookup ⊢
      cases hlookup
      exact congrArg (· || requiresInFields fields) h
    · rw [beq_eq_false_iff_ne.mpr (Ne.symm heq)] at hlookup
      rw [beq_eq_false_iff_ne.mpr heq]
      exact congrArg (entryRequires (k, v) || ·) (ih hlookup)

theorem requires_set_new (hlookup : fields.lookup key = none)
    (h : entryRequires (key, value) = false) :
    requiresManagedByLabels (.obj (set key value fields)) = requiresManagedByLabels (.obj fields) := by
  rw [requiresManagedByLabels, requiresManagedByLabels]
  induction fields with
  | nil =>
    change (entryRequires (key, value) || false) = false
    rw [h]
    rfl
  | cons head fields ih =>
    obtain ⟨k, v⟩ := head
    rw [List.lookup_cons] at hlookup
    rw [set]
    by_cases heq : k = key
    · subst heq
      rw [beq_self_eq_true] at hlookup
      cases hlookup
    · rw [beq_eq_false_iff_ne.mpr (Ne.symm heq)] at hlookup
      rw [beq_eq_false_iff_ne.mpr heq]
      exact congrArg (entryRequires (k, v) || ·) (ih hlookup)

theorem entryRequires_plain (hkey : key ∉ selectorKeys) :
    entryRequires (key, value) = requiresManagedByLabels value := by
  have hcontains : selectorKeys.contains key = false := by
    rw [Bool.eq_false_iff]
    exact fun hmem => hkey (List.contains_iff_mem.mp hmem)
  rw [entryRequires, hcontains, Bool.false_and, Bool.false_or]

/-! ## The metadata -/

section Trim

variable {keeps : String × Json → Bool} {metadata trimmed : Fields}

theorem trim_cases (h : trim key keeps metadata = some trimmed) :
    (trimmed = metadata ∧ ∀ value, metadata.lookup key = some value → value.truthy = false) ∨
      ∃ map, metadata.lookup key = some (.obj map) ∧
        ((map.filter keeps = [] ∧ trimmed = pop key metadata) ∨
          (map.filter keeps ≠ [] ∧ trimmed = set key (.obj (map.filter keeps)) metadata)) := by
  unfold trim at h
  split at h
  · rename_i hnone
    cases h
    refine .inl ⟨rfl, fun value hvalue => ?_⟩
    rw [hnone] at hvalue
    cases hvalue
  · rename_i value hvalue
    split at h
    · rename_i hfalsy
      cases h
      refine .inl ⟨rfl, fun value' hvalue' => ?_⟩
      cases hvalue.symm.trans hvalue'
      simpa using hfalsy
    · obtain ⟨map, hmap, h⟩ := Option.bind_eq_some_iff.mp h
      rw [dict_eq_some.mp hmap] at hvalue
      refine .inr ⟨map, hvalue, ?_⟩
      cases h
      split
      · rename_i hempty
        exact .inl ⟨List.isEmpty_iff.mp hempty, rfl⟩
      · rename_i hempty
        exact .inr ⟨fun hnil => hempty (List.isEmpty_iff.mpr hnil), rfl⟩

def Trimmed (key : String) (keeps : String × Json → Bool) (metadata : Fields) : Prop :=
  ∀ value, metadata.lookup key = some value → value.truthy = true →
    ∃ map, value = .obj map ∧ ∀ field ∈ map, keeps field = true

theorem Trimmed.trim_eq (h : Trimmed key keeps metadata) : trim key keeps metadata = some metadata := by
  unfold trim
  split
  · rfl
  · rename_i value hvalue
    split
    · rfl
    · rename_i htruthy
      obtain ⟨map, rfl, hall⟩ := h value hvalue (by simpa using htruthy)
      change some (if (map.filter keeps).isEmpty then _ else _) = _
      rw [List.filter_eq_self.mpr hall]
      split
      · rename_i hempty
        rw [List.isEmpty_iff] at hempty
        subst hempty
        exact absurd rfl htruthy
      · rw [set_eq_self hvalue]

theorem trimmed_of_trim (h : trim key keeps metadata = some trimmed) : Trimmed key keeps trimmed := by
  intro value hvalue htruthy
  rcases trim_cases h with ⟨rfl, hfalsy⟩ | ⟨map, hmap, ⟨-, rfl⟩ | ⟨-, rfl⟩⟩
  · rw [hfalsy value hvalue] at htruthy
    cases htruthy
  · exact absurd rfl (mem_pop.mp (mem_of_lookup hvalue)).2
  · rw [lookup_set] at hvalue
    cases hvalue
    exact ⟨_, rfl, fun field hfield => (List.mem_filter.mp hfield).2⟩

theorem lookup_trim_ne (h : trim key keeps metadata = some trimmed) (hne : key' ≠ key) :
    trimmed.lookup key' = metadata.lookup key' := by
  rcases trim_cases h with ⟨rfl, -⟩ | ⟨map, -, ⟨-, rfl⟩ | ⟨-, rfl⟩⟩
  · rfl
  · exact lookup_pop_ne hne
  · exact lookup_set_ne hne

theorem mem_trim_key (h : trim key keeps metadata = some trimmed) (hfield : field ∈ trimmed) :
    field.1 = key ∨ field ∈ metadata := by
  rcases trim_cases h with ⟨rfl, -⟩ | ⟨map, -, ⟨-, rfl⟩ | ⟨-, rfl⟩⟩
  · exact .inr hfield
  · exact .inr (mem_pop.mp hfield).1
  · exact (mem_set hfield).imp_left (congrArg Prod.fst)

theorem nodup_trim (h : trim key keeps metadata = some trimmed)
    (hnodup : (metadata.map Prod.fst).Nodup) : (trimmed.map Prod.fst).Nodup := by
  rcases trim_cases h with ⟨rfl, -⟩ | ⟨map, -, ⟨-, rfl⟩ | ⟨-, rfl⟩⟩
  · exact hnodup
  · exact hnodup.sublist (List.filter_sublist.map _)
  · exact nodup_set hnodup

theorem Settled.trim (h : trim key keeps metadata = some trimmed) (hkey : Plain key)
    (hsettled : Settled preserve metadata) : Settled preserve trimmed := by
  rcases trim_cases h with ⟨rfl, -⟩ | ⟨map, hmap, ⟨-, rfl⟩ | ⟨hne, rfl⟩⟩
  · exact hsettled
  · exact hsettled.pop
  · have hmap' := hsettled.of_mem (mem_of_lookup hmap)
    exact hsettled.set (cleanEntry_of_settled hkey (hmap'.subset List.filter_sublist.subset)
      (isEmptied_of_ne hne))

theorem requires_trim (h : trim key keeps metadata = some trimmed) (hkey : key ∉ selectorKeys)
    (hnodup : (metadata.map Prod.fst).Nodup)
    (hdropped : ∀ map, metadata.lookup key = some (.obj map) → ∀ field ∈ map, keeps field = false →
      entryRequires field = false) :
    requiresManagedByLabels (.obj trimmed) = requiresManagedByLabels (.obj metadata) := by
  rcases trim_cases h with ⟨rfl, -⟩ | ⟨map, hmap, ⟨hnil, rfl⟩ | ⟨-, rfl⟩⟩
  · rfl
  · refine requires_pop fun field hfield heq => ?_
    obtain ⟨k, v⟩ := field
    obtain rfl : k = key := heq
    cases (lookup_of_mem hnodup hfield).symm.trans hmap
    rw [entryRequires_plain hkey, ← requires_filter (hdropped map hmap), hnil]
    rfl
  · apply requires_set hmap
    rw [entryRequires_plain hkey, entryRequires_plain hkey]
    exact requires_filter (hdropped map hmap)

end Trim

def keepsOfAnnotations (field : String × Json) : Bool := !RUNTIME_ANNOTATIONS.contains field.1

def keepsLabel (field : String × Json) : Bool :=
  !(MANAGED_BY_LABEL_KEYS.contains field.1 && field.2.str? == some "terraform")

section Metadata

variable {metadata stripped : Fields}

theorem stripMetadata_eq_some : stripMetadata metadata = some stripped ↔
    ∃ between, trim "annotations" keepsOfAnnotations (popAll RUNTIME_METADATA_KEYS metadata) = some between ∧
      trim "labels" keepsLabel between = some stripped := Option.bind_eq_some_iff

theorem stripMetadata_again (h : stripMetadata metadata = some stripped) :
    stripMetadata stripped = some stripped := by
  obtain ⟨between, hannotations, hlabels⟩ := stripMetadata_eq_some.mp h
  have hkeys : ∀ field ∈ stripped, field.1 ∉ RUNTIME_METADATA_KEYS := by
    intro field hfield
    rcases mem_trim_key hlabels hfield with heq | hfield
    · rw [heq]
      decide
    · rcases mem_trim_key hannotations hfield with heq | hfield
      · rw [heq]
        decide
      · exact (mem_popAll.mp hfield).2
  have htrimmed : Trimmed "annotations" keepsOfAnnotations stripped := by
    intro value hvalue
    rw [lookup_trim_ne hlabels (by decide)] at hvalue
    exact trimmed_of_trim hannotations value hvalue
  rw [stripMetadata_eq_some, popAll_eq_self hkeys]
  exact ⟨stripped, htrimmed.trim_eq, (trimmed_of_trim hlabels).trim_eq⟩

theorem nodup_stripMetadata (h : stripMetadata metadata = some stripped)
    (hnodup : (metadata.map Prod.fst).Nodup) : (stripped.map Prod.fst).Nodup := by
  obtain ⟨between, hannotations, hlabels⟩ := stripMetadata_eq_some.mp h
  exact nodup_trim hlabels (nodup_trim hannotations (hnodup.sublist (popAll_sublist.map _)))

theorem Settled.stripMetadata (h : stripMetadata metadata = some stripped)
    (hsettled : Settled preserve metadata) : Settled preserve stripped := by
  obtain ⟨between, hannotations, hlabels⟩ := stripMetadata_eq_some.mp h
  exact (hsettled.popAll.trim hannotations (by decide)).trim hlabels (by decide)

theorem requires_stripMetadata (h : stripMetadata metadata = some stripped)
    (hnodup : (metadata.map Prod.fst).Nodup) (hsettled : Settled preserve metadata)
    (hclear : ∀ field ∈ metadata, field.1 ∈ RUNTIME_METADATA_KEYS → entryRequires field = false) :
    requiresManagedByLabels (.obj stripped) = requiresManagedByLabels (.obj metadata) := by
  obtain ⟨between, hannotations, hlabels⟩ := stripMetadata_eq_some.mp h
  have hnodup' : ((popAll RUNTIME_METADATA_KEYS metadata).map Prod.fst).Nodup :=
    hnodup.sublist (popAll_sublist.map _)
  rw [requires_trim hlabels (by decide) (nodup_trim hannotations hnodup'),
    requires_trim hannotations (by decide) hnodup', requires_popAll hclear]
  · intro map hmap field hfield hdropped
    -- the scrubbing has left no such annotation
    have hleft := (hsettled.popAll.of_mem (mem_of_lookup hmap)) field hfield
    obtain ⟨hruntime, -, -⟩ := cleanEntry_eq_some.mp hleft
    rw [keepsOfAnnotations, Bool.not_eq_false'] at hdropped
    rw [isRuntime, hdropped, Bool.or_true] at hruntime
    cases hruntime
  · intro map hmap field hfield hdropped
    rw [keepsLabel, Bool.not_eq_false', Bool.and_eq_true, beq_iff_eq] at hdropped
    obtain ⟨k, v⟩ := field
    cases v with
    | str text =>
      change (selectorKeys.contains k && false || false) = false
      rw [Bool.and_false]
      rfl
    | _ => cases hdropped.2

end Metadata

end ClusterState.Export
