import ClusterState.Export.Kinds

/-! # Claim templates

`restore_statefulset_volume_claim_labels` looks templates up by the names they have once
strings are replaced, among names that have not been replaced.
-/

namespace ClusterState.Export

section Lists

variable {α β : Type} {f : α → Option β} {xs : List α} {ys : List β} {R : α → β → Prop}

theorem mapM_eq_some : xs.mapM f = some ys ↔ List.Forall₂ (fun x y => f x = some y) xs ys := by
  induction xs generalizing ys with
  | nil =>
    rw [List.forall₂_nil_left_iff]
    exact ⟨fun h => (Option.some.inj h).symm, fun h => h ▸ rfl⟩
  | cons x xs ih =>
    rw [List.mapM_cons, List.forall₂_cons_left_iff]
    constructor
    · intro h
      obtain ⟨y, hy, h⟩ := Option.bind_eq_some_iff.mp h
      obtain ⟨ys', hys', h⟩ := Option.bind_eq_some_iff.mp h
      cases h
      exact ⟨y, ys', hy, ih.mp hys', rfl⟩
    · rintro ⟨y, ys', hy, hys', rfl⟩
      rw [hy, ih.mpr hys']
      rfl

theorem forall₂_mem_left (h : List.Forall₂ R xs ys) {x : α} (hx : x ∈ xs) : ∃ y ∈ ys, R x y := by
  induction h with
  | nil => cases hx
  | cons hxy _ ih =>
    rcases List.mem_cons.mp hx with rfl | hx
    · exact ⟨_, List.mem_cons_self, hxy⟩
    · obtain ⟨y, hy, hR⟩ := ih hx
      exact ⟨y, List.mem_cons_of_mem _ hy, hR⟩

theorem forall₂_mem_right (h : List.Forall₂ R xs ys) {y : β} (hy : y ∈ ys) : ∃ x ∈ xs, R x y := by
  induction h with
  | nil => cases hy
  | cons hxy _ ih =>
    rcases List.mem_cons.mp hy with rfl | hy
    · exact ⟨_, List.mem_cons_self, hxy⟩
    · obtain ⟨x, hx, hR⟩ := ih hy
      exact ⟨x, List.mem_cons_of_mem _ hx, hR⟩

theorem find?_forall₂ (h : List.Forall₂ R xs ys) {p : α → Bool} {q : β → Bool}
    (hpq : ∀ x y, R x y → p x = q y) : Option.Rel R (xs.find? p) (ys.find? q) := by
  induction h with
  | nil => exact .none
  | cons hxy _ ih =>
    rw [List.find?_cons, List.find?_cons, ← hpq _ _ hxy]
    split
    · exact .some hxy
    · exact ih

theorem lookup_eq_find? {κ : Type} [BEq κ] [LawfulBEq κ] {entries : List (κ × β)} {key : κ} :
    entries.lookup key = (entries.find? fun entry => entry.1 == key).map Prod.snd := by
  induction entries with
  | nil => rfl
  | cons entry entries ih =>
    rw [List.lookup_cons, List.find?_cons, BEq.comm]
    split
    · rfl
    · exact ih

end Lists

variable {preserve : Bool} {fields metadata labels managed : Fields} {key : String} {template : Json}
  {name : Option String}

/-! ## Labels of a template -/

structure Template (template : Json) (fields metadata : Fields) : Prop where
  eq : template = .obj fields
  get : getDict "metadata" fields = some metadata

theorem Template.claimName_eq (h : Template template fields metadata) :
    claimName template = (metadata.lookup "name").bind Json.str? := by
  rw [h.eq, claimName]
  change (fields.lookup "metadata").bind _ = _
  rcases getDict_eq_some.mp h.get with hlookup | ⟨hnone, rfl⟩
  · rw [hlookup]
    rfl
  · rw [hnone]
    rfl

theorem Template.templateLabel_eq (h : Template template fields metadata) :
    templateLabel key template = (metadata.lookup "labels").bind fun labels => labels.get key := by
  rw [h.eq, templateLabel]
  change ((fields.lookup "metadata").bind _).bind _ = _
  rcases getDict_eq_some.mp h.get with hlookup | ⟨hnone, rfl⟩
  · rw [hlookup]
    rfl
  · rw [hnone]
    rfl

theorem template_set : Template (.obj (set "metadata" (.obj metadata) fields))
    (set "metadata" (.obj metadata) fields) metadata :=
  ⟨rfl, getDict_eq_some.mpr (.inl lookup_set)⟩

theorem lookup_filter_managed : (labels.filter fun label => MANAGED_BY_LABEL_KEYS.contains label.1).lookup key =
    if key ∈ MANAGED_BY_LABEL_KEYS then labels.lookup key else none := by
  induction labels with
  | nil => simp
  | cons label labels ih =>
    obtain ⟨k, v⟩ := label
    rw [List.filter_cons, List.lookup_cons]
    by_cases heq : key = k
    · subst heq
      by_cases hmem : key ∈ MANAGED_BY_LABEL_KEYS
      · simp [hmem]
      · rw [if_neg (by simpa using hmem), ih, if_neg hmem, if_neg hmem]
    · rw [beq_eq_false_iff_ne.mpr heq]
      split
      · rw [List.lookup_cons, beq_eq_false_iff_ne.mpr heq, ih]
      · exact ih

/-- The labels in the metadata, where anything false stands for none. -/
def heldLabels (metadata : Fields) : Option Fields :=
  match metadata.lookup "labels" with
  | some labels => if labels.truthy then dict labels else some []
  | none => some []

theorem heldLabels_eq_some : heldLabels metadata = some labels ↔
    metadata.lookup "labels" = some (.obj labels) ∨
      labels = [] ∧ ∀ value, metadata.lookup "labels" = some value → value.truthy = false := by
  unfold heldLabels
  split
  · rename_i value hvalue
    rw [hvalue]
    split
    · rename_i htruthy
      rw [dict_eq_some, Option.some.injEq]
      refine ⟨.inl, fun h => h.resolve_right fun hfalsy => ?_⟩
      rw [hfalsy.2 value rfl] at htruthy
      cases htruthy
    · rename_i hfalsy
      rw [Option.some.injEq, Option.some.injEq]
      constructor
      · intro h
        refine .inr ⟨h.symm, fun value' hvalue' => ?_⟩
        cases hvalue'
        simpa using hfalsy
      · rintro (rfl | ⟨rfl, -⟩)
        · cases labels with
          | nil => rfl
          | cons label labels => exact absurd rfl hfalsy
        · rfl
  · rename_i hnone
    rw [hnone, Option.some.injEq]
    exact ⟨fun h => .inr ⟨h.symm, nofun⟩, fun h => (h.resolve_left nofun).1.symm⟩

theorem Template.claimLabels_eq (h : Template template fields metadata) :
    claimLabels template = (heldLabels metadata).map fun labels => (claimName template,
      labels.filter fun label => MANAGED_BY_LABEL_KEYS.contains label.1) := by
  rw [claimLabels, h.claimName_eq, h.eq]
  change (getDict "metadata" fields).bind _ = _
  rw [h.get, Option.bind_some, heldLabels]
  cases metadata.lookup "labels" with
  | none => rfl
  | some value =>
    cases htruthy : value.truthy with
    | true => cases value <;> simp [dict, htruthy]
    | false => simp [htruthy]

theorem template_of_claimLabels (h : (claimLabels template).isSome) :
    ∃ fields metadata, Template template fields metadata := by
  obtain ⟨claim, hclaim⟩ := Option.isSome_iff_exists.mp h
  obtain ⟨fields, hfields, hclaim⟩ := Option.bind_eq_some_iff.mp hclaim
  obtain ⟨metadata, hmetadata, -⟩ := Option.bind_eq_some_iff.mp hclaim
  exact ⟨fields, metadata, dict_eq_some.mp hfields, hmetadata⟩

theorem Template.templateLabel_held (h : Template template fields metadata)
    (hlabels : heldLabels metadata = some labels) : templateLabel key template = labels.lookup key := by
  rw [h.templateLabel_eq]
  rcases heldLabels_eq_some.mp hlabels with hlookup | ⟨rfl, hfalsy⟩
  · rw [hlookup]
    rfl
  · cases hlookup : metadata.lookup "labels" with
    | none => rfl
    | some value =>
      cases value with
      | obj labels =>
        cases labels with
        | nil => rfl
        | cons label labels => cases hfalsy _ hlookup
      | _ => rfl

/-! ## Labels that are restored -/

def mergeLabels (managed labels : Fields) : Fields :=
  managed.foldl (fun labels label => set label.1 label.2 labels) labels

theorem lookup_mergeLabels (hnodup : (managed.map Prod.fst).Nodup) :
    (mergeLabels managed labels).lookup key = (managed.lookup key).or (labels.lookup key) := by
  induction managed generalizing labels with
  | nil => rfl
  | cons label managed ih =>
    obtain ⟨k, v⟩ := label
    rw [List.map_cons, List.nodup_cons] at hnodup
    change (mergeLabels managed (set k v labels)).lookup key = _
    rw [ih hnodup.2, List.lookup_cons]
    by_cases heq : key = k
    · subst heq
      rw [lookup_of_not_mem hnodup.1, beq_self_eq_true, lookup_set]
      rfl
    · rw [beq_eq_false_iff_ne.mpr heq, lookup_set_ne heq]

theorem nodup_mergeLabels (h : (labels.map Prod.fst).Nodup) :
    ((mergeLabels managed labels).map Prod.fst).Nodup := by
  induction managed generalizing labels with
  | nil => exact h
  | cons label managed ih => exact ih (nodup_set h)

theorem mem_mergeLabels {field : String × Json} (h : field ∈ mergeLabels managed labels) :
    field ∈ managed ∨ field ∈ labels := by
  induction managed generalizing labels with
  | nil => exact .inr h
  | cons label managed ih =>
    rcases ih h with h | h
    · exact .inl (List.mem_cons_of_mem _ h)
    · rcases mem_set h with rfl | h
      · exact .inl List.mem_cons_self
      · exact .inr h

/-- The labels that belong to a name: those of the last template that has it. -/
def managedOf (byName : List (Option String × Fields)) (name : Option String) : Fields :=
  (byName.reverse.lookup name).getD []

def relabel (managed metadata : Fields) : Option Fields :=
  match managed with
  | [] => some metadata
  | managed => (getDict "labels" metadata).map fun labels =>
    set "labels" (.obj (mergeLabels managed labels)) metadata

theorem Template.restoreClaim_eq (h : Template template fields metadata)
    {byName : List (Option String × Fields)} : restoreClaim byName template =
      (relabel (managedOf byName (claimName template)) metadata).map fun metadata =>
        .obj (set "metadata" (.obj metadata) fields) := by
  rw [managedOf, restoreClaim, h.claimName_eq, h.eq]
  change (getDict "metadata" fields).bind _ = _
  rw [h.get, Option.bind_some]
  dsimp only
  cases byName.reverse.lookup ((metadata.lookup "name").bind Json.str?) with
  | none => rfl
  | some managed =>
    cases managed with
    | nil => rfl
    | cons label managed =>
      change (getDict "labels" metadata).bind _ = ((getDict "labels" metadata).map _).map _
      cases getDict "labels" metadata <;> rfl

end ClusterState.Export
