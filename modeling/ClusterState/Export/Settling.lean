import ClusterState.Data.JsonValues
import ClusterState.Export.Preservation

/-! # Scrubbing what has been scrubbed

Neither the strings nor the entries of a clean document change once more.
-/

namespace ClusterState.Export

open Data.PythonText (replace replace_replace)

/-! ## Strings -/

@[simp] theorem replaceText_replaceText (text : String) :
    replaceText (replaceText text) = replaceText text := by
  have hapart : ∀ i < "Managed in cluster-state".toList.length,
      ¬ "Managed by Terraform".toList <+: "Managed in cluster-state".toList.drop i ∧
        ¬ "Managed in cluster-state".toList.drop i <+: "Managed by Terraform".toList := by
    decide
  have htwice := @replace_replace "Managed by Terraform".toList "Managed in cluster-state".toList 'M'
    "anaged by Terraform".toList "anaged in cluster-state".toList (by decide) (by decide) (by decide)
    hapart text.toList
  have htext : (replaceText text).toList =
      replace "Managed by Terraform".toList "Managed in cluster-state".toList text.toList :=
    String.toList_ofList
  rw [replaceText, htext, htwice]
  rfl

/-! ## Entries -/

variable {preserve : Bool} {fields : Fields} {key : String} {item left j : Json}

theorem clean_arr {items : List Json} : clean preserve (.arr items) = .arr (items.map (clean preserve)) := by
  rw [clean, normalizeEmbeddedStrings, scrubRuntimeFields, Json.arr.injEq]
  induction items with
  | nil => rfl
  | cons item items ih => exact congrArg (clean preserve item :: ·) ih

theorem clean_str {text : String} : clean preserve (.str text) = .str (replaceText text) := rfl

theorem str?_clean : (normalizeEmbeddedStrings (clean preserve j)).str? =
    (normalizeEmbeddedStrings j).str? := by
  cases j with
  | str text => exact congrArg some (replaceText_replaceText text)
  | arr items =>
    rw [clean_arr]
    rfl
  | obj fields =>
    rw [clean_obj]
    rfl
  | _ => rfl

theorem isRuntime_clean : isRuntime preserve key (normalizeEmbeddedStrings (clean preserve item)) =
    isRuntime preserve key (normalizeEmbeddedStrings item) := by
  rw [isRuntime, isRuntime, str?_clean]

theorem cleanEntry_eq_some : cleanEntry preserve key item = some left ↔
    isRuntime preserve key (normalizeEmbeddedStrings item) = false ∧
      isEmptied key (clean preserve item) = false ∧ clean preserve item = left := by
  rw [cleanEntry]
  constructor
  · intro h
    split at h
    · cases h
    · rename_i hruntime
      split at h
      · cases h
      · rename_i hemptied
        exact ⟨Bool.eq_false_iff.mpr hruntime, Bool.eq_false_iff.mpr hemptied, Option.some.inj h⟩
  · rintro ⟨hruntime, hemptied, rfl⟩
    rw [hruntime, hemptied]
    rfl

def Settled (preserve : Bool) (fields : Fields) : Prop :=
  ∀ field ∈ fields, cleanEntry preserve field.1 field.2 = some field.2

theorem mem_cleanFields {field : String × Json} : field ∈ cleanFields preserve fields ↔
    ∃ item, (field.1, item) ∈ fields ∧ cleanEntry preserve field.1 item = some field.2 := by
  induction fields with
  | nil => exact iff_of_false List.not_mem_nil fun ⟨_, h, _⟩ => List.not_mem_nil h
  | cons head fields ih =>
    obtain ⟨key, item⟩ := head
    rw [cleanFields_cons]
    constructor
    · intro h
      split at h
      · rename_i left hleft
        rcases List.mem_cons.mp h with rfl | h
        · exact ⟨item, List.mem_cons_self, hleft⟩
        · obtain ⟨item', hitem', hclean⟩ := ih.mp h
          exact ⟨item', List.mem_cons_of_mem _ hitem', hclean⟩
      · obtain ⟨item', hitem', hclean⟩ := ih.mp h
        exact ⟨item', List.mem_cons_of_mem _ hitem', hclean⟩
    · rintro ⟨item', hitem', hclean⟩
      rcases List.mem_cons.mp hitem' with heq | hitem'
      · obtain ⟨hkey, rfl⟩ := Prod.mk.inj heq
        rw [← hkey, hclean, ← Prod.mk.eta (p := field)]
        exact List.mem_cons_self
      · split
        · exact List.mem_cons_of_mem _ (ih.mpr ⟨item', hitem', hclean⟩)
        · exact ih.mpr ⟨item', hitem', hclean⟩

theorem Settled.cleanFields_eq (h : Settled preserve fields) : cleanFields preserve fields = fields := by
  induction fields with
  | nil => rfl
  | cons field fields ih =>
    obtain ⟨hfield, hfields⟩ := List.forall_mem_cons.mp h
    rw [cleanFields_cons, hfield]
    exact congrArg (field :: ·) (ih hfields)

theorem Settled.clean_eq (h : Settled preserve fields) :
    clean preserve (.obj fields) = .obj fields := by rw [clean_obj, h.cleanFields_eq]

theorem settled_of_clean (h : clean preserve (.obj fields) = .obj fields) :
    Settled preserve fields := by
  rw [clean_obj, Json.obj.injEq] at h
  induction fields with
  | nil => exact List.forall_mem_nil _
  | cons field fields ih =>
    obtain ⟨key, item⟩ := field
    rw [cleanFields_cons] at h
    split at h
    · rename_i left hleft
      obtain ⟨hhead, htail⟩ := List.cons.inj h
      exact List.forall_mem_cons.mpr ⟨hleft.trans (congrArg some (Prod.mk.inj hhead).2), ih htail⟩
    · -- an entry fewer
      have hlength : (cleanFields preserve fields).length ≤ fields.length := by
        clear h ih
        induction fields with
        | nil => exact Nat.le_refl _
        | cons field fields ih =>
          rw [cleanFields_cons]
          split
          · exact Nat.succ_le_succ ih
          · exact Nat.le_succ_of_le ih
      rw [h, List.length_cons] at hlength
      omega

theorem cleanEntry_again (h : cleanEntry preserve key item = some left)
    (hclean : clean preserve (clean preserve item) = clean preserve item) :
    cleanEntry preserve key left = some left := by
  obtain ⟨hruntime, hemptied, rfl⟩ := cleanEntry_eq_some.mp h
  exact cleanEntry_eq_some.mpr ⟨isRuntime_clean.trans hruntime, hclean.symm ▸ hemptied, hclean⟩

theorem clean_clean (j : Json) : clean preserve (clean preserve j) = clean preserve j := by
  induction j using Json.inductionOn with
  | str text => exact congrArg Json.str (replaceText_replaceText text)
  | arr items ih => rwa [clean_arr, clean_arr, List.map_map, Json.arr.injEq, List.map_inj_left]
  | obj fields ih =>
    rw [clean_obj, Settled.clean_eq]
    intro field hfield
    obtain ⟨item, hitem, hleft⟩ := mem_cleanFields.mp hfield
    exact cleanEntry_again hleft (ih _ hitem)
  | _ => rfl

theorem settled_cleanFields : Settled preserve (cleanFields preserve fields) := by
  intro field hfield
  obtain ⟨item, -, hleft⟩ := mem_cleanFields.mp hfield
  exact cleanEntry_again hleft (clean_clean item)

theorem Settled.of_mem {inner : Fields} (h : Settled preserve fields) (hmem : (key, .obj inner) ∈ fields) :
    Settled preserve inner :=
  settled_of_clean (cleanEntry_eq_some.mp (h _ hmem)).2.2

end ClusterState.Export
