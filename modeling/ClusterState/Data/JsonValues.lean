import ClusterState.Data.Json

/-! # Documents as values

Two documents are alike if they differ in the order of entries only.
-/

namespace ClusterState.Json

variable {a b j part item : Json} {items items' : List Json} {fields fields' : List (String × Json)}
  {key : String}

@[elab_as_elim]
theorem inductionOn {motive : Json → Prop} (null : motive .null) (bool : ∀ b, motive (.bool b))
    (int : ∀ n, motive (.int n)) (float : ∀ x, motive (.float x)) (str : ∀ text, motive (.str text))
    (arr : ∀ items, (∀ item ∈ items, motive item) → motive (.arr items))
    (obj : ∀ fields : List (String × Json), (∀ field ∈ fields, motive field.2) →
      motive (.obj fields)) (j : Json) : motive j :=
  @Json.rec motive (fun items => ∀ item ∈ items, motive item)
    (fun fields => ∀ field ∈ fields, motive field.2) (fun field => motive field.2)
    null bool int float str arr obj (List.forall_mem_nil _)
    (fun _ _ hitem hitems => List.forall_mem_cons.mpr ⟨hitem, hitems⟩) (List.forall_mem_nil _)
    (fun _ _ hfield hfields => List.forall_mem_cons.mpr ⟨hfield, hfields⟩) (fun _ _ hitem => hitem) j

inductive Part : Json → Json → Prop
  | refl (j : Json) : Part j j
  | field {part item : Json} {key : String} {fields : List (String × Json)}
      (hfield : (key, item) ∈ fields) (h : Part part item) : Part part (.obj fields)
  | item {part item : Json} {items : List Json} (hitem : item ∈ items) (h : Part part item) :
      Part part (.arr items)

inductive Alike : Json → Json → Prop
  | null : Alike .null .null
  | bool (b : Bool) : Alike (.bool b) (.bool b)
  | int (n : Int) : Alike (.int n) (.int n)
  | float (x : Float) : Alike (.float x) (.float x)
  | str (text : String) : Alike (.str text) (.str text)
  | arr (items items' : List Json) (hlength : items.length = items'.length)
      (h : ∀ (i : Nat) a b, items[i]? = some a → items'[i]? = some b → Alike a b) :
      Alike (.arr items) (.arr items')
  | obj (fields fields' : List (String × Json))
      (hkeys : ∀ key, (fields.lookup key).isSome = (fields'.lookup key).isSome)
      (h : ∀ key a b, fields.lookup key = some a → fields'.lookup key = some b → Alike a b) :
      Alike (.obj fields) (.obj fields')

theorem alike_obj_iff : Alike (.obj fields) (.obj fields') ↔
    (∀ key, (fields.lookup key).isSome = (fields'.lookup key).isSome) ∧
      ∀ key a b, fields.lookup key = some a → fields'.lookup key = some b → Alike a b := by
  constructor
  · intro h
    cases h with
    | obj fields fields' hkeys h => exact ⟨hkeys, h⟩
  · rintro ⟨hkeys, h⟩
    exact .obj fields fields' hkeys h

theorem alike_arr_iff : Alike (.arr items) (.arr items') ↔ items.length = items'.length ∧
    ∀ (i : Nat) a b, items[i]? = some a → items'[i]? = some b → Alike a b := by
  constructor
  · intro h
    cases h with
    | arr items items' hlength h => exact ⟨hlength, h⟩
  · rintro ⟨hlength, h⟩
    exact .arr items items' hlength h

theorem mem_of_lookup (h : fields.lookup key = some a) : (key, a) ∈ fields := by
  obtain ⟨front, back, rfl, -⟩ := List.lookup_eq_some_iff.mp h
  exact List.mem_append_right _ List.mem_cons_self

theorem Alike.refl (j : Json) : Alike j j := by
  induction j using Json.inductionOn with
  | null => exact .null
  | bool b => exact .bool b
  | int n => exact .int n
  | float x => exact .float x
  | str text => exact .str text
  | arr items ih =>
    refine alike_arr_iff.mpr ⟨rfl, fun i a b ha hb => ?_⟩
    cases ha.symm.trans hb
    exact ih a (List.mem_of_getElem? ha)
  | obj fields ih =>
    refine alike_obj_iff.mpr ⟨fun _ => rfl, fun key a b ha hb => ?_⟩
    cases ha.symm.trans hb
    exact ih (key, a) (mem_of_lookup ha)

theorem alike_of_lookup (h : ∀ key', key' ≠ key → fields.lookup key' = fields'.lookup key')
    (ha : fields.lookup key = some a) (hb : fields'.lookup key = some b) :
    Alike (.obj fields) (.obj fields') ↔ Alike a b := by
  rw [alike_obj_iff]
  constructor
  · rintro ⟨-, hall⟩
    exact hall key a b ha hb
  · intro hab
    refine ⟨fun key' => ?_, fun key' a' b' ha' hb' => ?_⟩
    · by_cases heq : key' = key
      · rw [heq, ha, hb]
        rfl
      · rw [h key' heq]
    · by_cases heq : key' = key
      · subst heq
        cases ha.symm.trans ha'
        cases hb.symm.trans hb'
        exact hab
      · rw [h key' heq] at ha'
        cases ha'.symm.trans hb'
        exact .refl a'

end ClusterState.Json
