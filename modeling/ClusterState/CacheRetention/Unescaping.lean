import ClusterState.CacheRetention.MountIds
import ClusterState.Data.EscapeCodes
import ClusterState.MountManager.Reconcile

/-! # Two readers of the escapes of the kernel

The mount service goes over a mount point once, and the cache retention replaces the four escapes
one after the other. Both read every mount point alike, and what the kernel has escaped as it was.
-/

namespace ClusterState.MountManager

/-! ## The loop -/

/-- The `switch` of `unescapeMountInfo`. -/
def unescapedByte : List Char → Option Char
  | ['0', '4', '0'] => some ' '
  | ['0', '1', '1'] => some '\t'
  | ['0', '1', '2'] => some '\n'
  | ['1', '3', '4'] => some '\\'
  | _ => none

/-- What the loop of `unescapeMountInfo` writes from the index `i` on. -/
def unescapeFrom (s : List Char) (i : Nat) : List Char :=
  if h : i < s.length then
    if s[i] = '\\' ∧ i + 3 < s.length then
      match unescapedByte ((s.drop (i + 1)).take 3) with
      | some b => b :: unescapeFrom s (i + 4)
      | none => s[i] :: unescapeFrom s (i + 1)
    else s[i] :: unescapeFrom s (i + 1)
  else []
termination_by s.length - i

end ClusterState.MountManager

namespace ClusterState.CacheRetention

open Data.PythonText Data.EscapeCodes MountManager

variable {c : Char} {t : Text}

/-! ## Escapes -/

theorem escapeCodes_eq : escapeCodes = [(['\\', '0', '4', '0'], ' '), (['\\', '0', '1', '1'], '\t'),
    (['\\', '0', '1', '2'], '\n'), (['\\', '1', '3', '4'], '\\')] := by
  decide

theorem marked_escapeCodes : Marked '\\' escapeCodes := by decide

theorem escapeCodes_apart : ∀ code ∈ escapeCodes, ∀ other ∈ escapeCodes, code.1 <+: other.1 →
    code = other := by
  decide

theorem escapeCodes_fresh : escapeCodes.Pairwise fun earlier later => earlier.2 ∉ later.1 := by
  decide

theorem mem_escapeCodes {code : Text} : (code, c) ∈ escapeCodes ↔
    ∃ b, code = '\\' :: b ∧ unescapedByte b = some c := by
  constructor
  · intro h
    simp only [escapeCodes_eq, List.mem_cons, List.not_mem_nil, or_false, Prod.mk.injEq] at h
    rcases h with ⟨rfl, rfl⟩ | ⟨rfl, rfl⟩ | ⟨rfl, rfl⟩ | ⟨rfl, rfl⟩ <;> exact ⟨_, rfl, rfl⟩
  · rintro ⟨b, rfl, h⟩
    rw [escapeCodes_eq]
    unfold unescapedByte at h
    split at h <;> cases h <;> decide

theorem unescapedByte_length {b : Text} (h : unescapedByte b = some c) : b.length = 3 := by
  unfold unescapedByte at h
  split at h <;> first | rfl | cases h

theorem decodes_code {b u : Text} (hbyte : unescapedByte b = some c) (h : Decodes escapeCodes t u) :
    Decodes escapeCodes ('\\' :: (b ++ t)) (c :: u) :=
  @Decodes.code escapeCodes ('\\' :: b, c) t u (mem_escapeCodes.mpr ⟨b, rfl, hbyte⟩) h

theorem decodes_char {u : Text} (hplain : c = '\\' → unescapedByte (t.take 3) = none)
    (h : Decodes escapeCodes t u) : Decodes escapeCodes (c :: t) (c :: u) := by
  apply Decodes.char _ h
  rintro ⟨code, d⟩ hcode hfront
  obtain ⟨b, rfl, hbyte⟩ := mem_escapeCodes.mp hcode
  obtain ⟨rfl, hb⟩ := List.cons_prefix_cons.mp hfront
  have htake := List.prefix_iff_eq_take.mp hb
  rw [unescapedByte_length hbyte] at htake
  rw [htake, hplain rfl] at hbyte
  cases hbyte

/-- Where the loop looks at three bytes there are three, and where it does not there is no code. -/
theorem decodes_unescapeFrom (s : Text) (i : Nat) :
    Decodes escapeCodes (s.drop i) (unescapeFrom s i) := by
  fun_induction unescapeFrom s i with
  | case1 i hi hcode b hbyte ih =>
    have hrest : s.drop (i + 1) = (s.drop (i + 1)).take 3 ++ s.drop (i + 4) := by
      rw [← List.drop_drop (i := 3) (j := i + 1), List.take_append_drop]
    rw [List.drop_eq_getElem_cons hi, hcode.1, hrest]
    exact decodes_code hbyte ih
  | case2 i hi hcode hbyte ih =>
    rw [List.drop_eq_getElem_cons hi]
    exact decodes_char (fun _ => hbyte) ih
  | case3 i hi hcode ih =>
    rw [List.drop_eq_getElem_cons hi]
    apply decodes_char _ ih
    intro heq
    cases hbyte : unescapedByte ((s.drop (i + 1)).take 3) with
    | none => rfl
    | some b =>
      have hlength := unescapedByte_length hbyte
      rw [List.length_take, List.length_drop] at hlength
      exact absurd ⟨heq, by omega⟩ hcode
  | case4 i hi =>
    rw [List.drop_eq_nil_of_le (Nat.le_of_not_lt hi)]
    exact .nil

theorem decodes_unescapeMountInfo (s : Text) : Decodes escapeCodes s (unescapeMountInfo s) := by
  fun_induction unescapeMountInfo s with
  | case1 rest ih => exact @decodes_code ' ' rest ['0', '4', '0'] _ rfl ih
  | case2 rest ih => exact @decodes_code '\t' rest ['0', '1', '1'] _ rfl ih
  | case3 rest ih => exact @decodes_code '\n' rest ['0', '1', '2'] _ rfl ih
  | case4 rest ih => exact @decodes_code '\\' rest ['1', '3', '4'] _ rfl ih
  | case5 c rest h040 h011 h012 h134 ih =>
    apply decodes_char _ ih
    rintro rfl
    have hrest := List.take_append_drop 3 rest
    unfold unescapedByte
    split
    · rename_i heq
      exact absurd (heq ▸ hrest).symm (h040 _ rfl)
    · rename_i heq
      exact absurd (heq ▸ hrest).symm (h011 _ rfl)
    · rename_i heq
      exact absurd (heq ▸ hrest).symm (h012 _ rfl)
    · rename_i heq
      exact absurd (heq ▸ hrest).symm (h134 _ rfl)
    · rfl
  | case6 => exact .nil

/-- Every decoder that goes over the text once reads the same. -/
theorem eq_unescapeMountInfo {u : Text} (h : Decodes escapeCodes t u) : u = unescapeMountInfo t :=
  h.unique marked_escapeCodes escapeCodes_apart (decodes_unescapeMountInfo t)

theorem unescapeMountInfo_eq_loop (s : Text) :
    unescapeMountInfo s = if s.contains '\\' then unescapeFrom s 0 else s := by
  symm
  apply eq_unescapeMountInfo
  split
  · exact decodes_unescapeFrom s 0
  · rename_i hnone
    exact decodes_of_not_mem marked_escapeCodes fun hmem => hnone (List.contains_iff_mem.mpr hmem)

/-! ## Replacements -/

theorem escape_cases (c : Char) : (escape c, c) ∈ escapeCodes ∨ c ≠ '\\' ∧ escape c = [c] := by
  unfold escape
  split
  · rename_i code hfind
    have hcode := List.find?_some hfind
    rw [decide_eq_true_eq] at hcode
    subst hcode
    exact .inl (List.mem_of_find?_eq_some hfind)
  · rename_i hfind
    refine .inr ⟨?_, rfl⟩
    rintro rfl
    revert hfind
    decide

theorem decode_eq_unescapeMountInfo (mountpoint : Text) :
    decode mountpoint = unescapeMountInfo mountpoint :=
  eq_unescapeMountInfo (decodes_foldl marked_escapeCodes escapeCodes_fresh mountpoint)

theorem unescapeMountInfo_escapePath (path : Text) : unescapeMountInfo (escapePath path) = path :=
  (eq_unescapeMountInfo (decodes_flatMap marked_escapeCodes escape_cases path)).symm

/-- What the kernel has escaped is decoded again. -/
theorem decode_escapePath (path : Text) : decode (escapePath path) = path :=
  (decode_eq_unescapeMountInfo _).trans (unescapeMountInfo_escapePath path)

/-- One pass and four replacements read every mount point alike, and the kernel's as it was. -/
theorem unescapeMountInfo_inverts : (∀ path, unescapeMountInfo (escapePath path) = path) ∧
    ∀ mountpoint, decode mountpoint = unescapeMountInfo mountpoint :=
  ⟨unescapeMountInfo_escapePath, decode_eq_unescapeMountInfo⟩

/-- An escape that only the replacements make is not read as one. -/
example : decode "\\134040".toList = "\\040".toList := by decide

end ClusterState.CacheRetention
