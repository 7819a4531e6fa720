import ClusterState.Data.PythonText

/-! # Escape codes

A decoder goes over a text once, or replaces one code after the other in all of it. The results
are the same if no replacement makes a code that is still to be replaced.
-/

namespace ClusterState.Data.EscapeCodes

open PythonText

variable {codes : List (Text × Char)} {code : Text × Char} {marker c : Char} {l t u v : Text}

/-- The second text is what a decoder reads that goes over the first one once. -/
inductive Decodes (codes : List (Text × Char)) : Text → Text → Prop
  | nil : Decodes codes [] []
  | code {code : Text × Char} {t u : Text} (h : code ∈ codes) (hrest : Decodes codes t u) :
    Decodes codes (code.1 ++ t) (code.2 :: u)
  | char {c : Char} {t u : Text} (h : ∀ code ∈ codes, ¬code.1 <+: c :: t)
    (hrest : Decodes codes t u) : Decodes codes (c :: t) (c :: u)

/-- The marker starts every code and is nowhere else in one. -/
def Marked (marker : Char) (codes : List (Text × Char)) : Prop :=
  ∀ code ∈ codes, code.1 = marker :: code.1.tail ∧ marker ∉ code.1.tail

instance : Decidable (Marked marker codes) := inferInstanceAs (Decidable (∀ _ ∈ _, _))

/-! ## One pass -/

theorem decodes_nil (t : Text) : Decodes [] t t := by
  induction t with
  | nil => exact .nil
  | cons c t ih => exact .char (fun _ => nofun) ih

theorem decodes_of_not_mem (hmarked : Marked marker codes) (ht : marker ∉ t) : Decodes codes t t := by
  induction t with
  | nil => exact .nil
  | cons c t ih =>
    apply Decodes.char
    · intro code hcode hfront
      rw [(hmarked code hcode).1] at hfront
      exact ht ((List.cons_prefix_cons.mp hfront).1 ▸ List.mem_cons_self)
    · exact ih fun hmem => ht (List.mem_cons_of_mem c hmem)

theorem Decodes.char_inv (hplain : ∀ code ∈ codes, ¬code.1 <+: c :: t) (h : Decodes codes (c :: t) u) :
    ∃ v, u = c :: v ∧ Decodes codes t v := by
  generalize hs : c :: t = s at h
  cases h with
  | nil => cases hs
  | code hcode hrest => exact absurd ⟨_, hs.symm⟩ (hplain _ hcode)
  | char _ hrest =>
    cases hs
    exact ⟨_, rfl, hrest⟩

theorem Decodes.code_inv (hcode : code ∈ codes)
    (hapart : ∀ other ∈ codes, other.1 <+: code.1 ∨ code.1 <+: other.1 → other = code)
    (hne : code.1 ≠ []) (h : Decodes codes (code.1 ++ t) u) :
    ∃ v, u = code.2 :: v ∧ Decodes codes t v := by
  generalize hs : code.1 ++ t = s at h
  cases h with
  | nil => exact absurd (List.append_eq_nil_iff.mp hs).1 hne
  | @code other rest v hother hrest =>
    have hcomparable := List.prefix_or_prefix_of_prefix (List.prefix_append other.1 rest)
      (hs ▸ List.prefix_append code.1 t)
    obtain rfl := hapart other hother hcomparable
    exact ⟨v, rfl, List.append_cancel_left hs ▸ hrest⟩
  | char hplain _ => exact absurd ⟨t, hs⟩ (hplain code hcode)

theorem Decodes.append_inv (hmarked : Marked marker codes) (hl : marker ∉ l)
    (h : Decodes codes (l ++ t) u) : ∃ v, u = l ++ v ∧ Decodes codes t v := by
  induction l generalizing u with
  | nil => exact ⟨u, rfl, h⟩
  | cons c l ih =>
    have hplain : ∀ code ∈ codes, ¬code.1 <+: c :: (l ++ t) := by
      intro code hcode hfront
      rw [(hmarked code hcode).1] at hfront
      exact hl ((List.cons_prefix_cons.mp hfront).1 ▸ List.mem_cons_self)
    obtain ⟨v, rfl, hv⟩ := h.char_inv hplain
    obtain ⟨w, rfl, hw⟩ := ih (fun hmem => hl (List.mem_cons_of_mem c hmem)) hv
    exact ⟨w, rfl, hw⟩

/-- What no code stands for was there before. -/
theorem Decodes.prefix_of_prefix (hfresh : ∀ code ∈ codes, code.2 ∉ l) (h : Decodes codes t u)
    (hl : l <+: u) : l <+: t := by
  induction l generalizing t u with
  | nil => exact List.nil_prefix
  | cons c l ih =>
    have hrest : ∀ code ∈ codes, code.2 ∉ l := fun code hcode hmem =>
      hfresh code hcode (List.mem_cons_of_mem c hmem)
    cases h with
    | nil => exact absurd (List.prefix_nil.mp hl) (List.cons_ne_nil c l)
    | @code code t u hcode _ =>
      obtain ⟨rfl, -⟩ := List.cons_prefix_cons.mp hl
      exact absurd List.mem_cons_self (hfresh code hcode)
    | char _ htail =>
      obtain ⟨rfl, hl'⟩ := List.cons_prefix_cons.mp hl
      exact List.cons_prefix_cons.mpr ⟨rfl, ih hrest htail hl'⟩

theorem Decodes.unique (hmarked : Marked marker codes)
    (hapart : ∀ code ∈ codes, ∀ other ∈ codes, code.1 <+: other.1 → code = other)
    (h : Decodes codes t u) (h' : Decodes codes t v) : u = v := by
  induction h generalizing v with
  | nil =>
    generalize hs : ([] : Text) = s at h'
    cases h' with
    | nil => rfl
    | @code code _ _ hcode _ =>
      rw [(hmarked code hcode).1] at hs
      cases hs
    | char _ _ => cases hs
  | @code code t u hcode _ ih =>
    have hne : code.1 ≠ [] := (hmarked code hcode).1 ▸ List.cons_ne_nil _ _
    have hcomparable : ∀ other ∈ codes, other.1 <+: code.1 ∨ code.1 <+: other.1 → other = code := by
      rintro other hother (hle | hle)
      · exact hapart other hother code hcode hle
      · exact (hapart code hcode other hother hle).symm
    obtain ⟨w, rfl, hw⟩ := h'.code_inv hcode hcomparable hne
    rw [ih hw]
  | char hplain _ ih =>
    obtain ⟨w, rfl, hw⟩ := h'.char_inv hplain
    rw [ih hw]

theorem Decodes.eq_or_shorter (hlong : ∀ code ∈ codes, 1 < code.1.length) (h : Decodes codes t u) :
    (u = t ∧ ∀ code ∈ codes, ¬code.1 <:+: t) ∨
      u.length < t.length ∧ ∃ code ∈ codes, code.1 <:+: t := by
  induction h with
  | nil =>
    refine .inl ⟨rfl, fun code hcode hinfix => ?_⟩
    have hlength := hlong code hcode
    rw [List.infix_nil.mp hinfix] at hlength
    cases hlength
  | @code code t u hcode _ ih =>
    have hle : u.length ≤ t.length := by
      rcases ih with ⟨rfl, -⟩ | ⟨hlt, -⟩
      · exact le_rfl
      · exact hlt.le
    refine .inr ⟨?_, code, hcode, [], t, rfl⟩
    have hlength := hlong code hcode
    rw [List.length_cons, List.length_append]
    omega
  | @char c t u hplain _ ih =>
    rcases ih with ⟨rfl, hnone⟩ | ⟨hlt, code, hcode, hinfix⟩
    · refine .inl ⟨rfl, fun code hcode hinfix => ?_⟩
      rcases List.infix_cons_iff.mp hinfix with hfront | hinfix
      · exact hplain code hcode hfront
      · exact hnone code hcode hinfix
    · exact .inr ⟨Nat.succ_lt_succ hlt, code, hcode, hinfix.trans (List.suffix_cons c t).isInfix⟩

/-! ## One code after the other -/

/-- A code may be replaced after the others if these stand for nothing that is in it. -/
theorem Decodes.replaced {body : Text} (hmarked : Marked marker (codes ++ [(marker :: body, c)]))
    (hfresh : ∀ other ∈ codes, other.2 ∉ marker :: body) (h : Decodes codes t u) :
    Decodes (codes ++ [(marker :: body, c)]) t (replace (marker :: body) [c] u) := by
  have hlast : (marker :: body, c) ∈ codes ++ [(marker :: body, c)] :=
    List.mem_append_right _ (List.mem_singleton.mpr rfl)
  have hbody : marker ∉ body := (hmarked _ hlast).2
  induction h with
  | nil => exact .nil
  | @code other t u hother _ ih =>
    have hne : marker ∉ [other.2] := by
      intro hmem
      exact hfresh other hother (List.mem_singleton.mp hmem ▸ List.mem_cons_self)
    have hkept := @replace_other body [c] marker [other.2] hne u
    rw [List.singleton_append, List.singleton_append] at hkept
    rw [hkept]
    exact .code (List.mem_append_left _ hother) ih
  | @char d t u hplain hrest ih =>
    by_cases hfront : marker :: body <+: d :: t
    · -- the code is there, and the pass has changed nothing in it
      obtain ⟨rfl, rest, rfl⟩ := List.cons_prefix_cons.mp hfront
      obtain ⟨w, rfl, -⟩ := hrest.append_inv (fun other hother =>
        hmarked other (List.mem_append_left _ hother)) hbody
      obtain ⟨w', hw', hdecodes⟩ := ih.append_inv hmarked hbody
      rw [replace_other hbody, List.append_cancel_left_eq] at hw'
      subst hw'
      rw [← List.cons_append, ← List.cons_append, replace_occurrence (List.cons_ne_nil _ _)]
      exact .code hlast hdecodes
    · have hstays : ¬marker :: body <+: d :: u := by
        intro hfront'
        obtain ⟨rfl, hle⟩ := List.cons_prefix_cons.mp hfront'
        have hthere := hrest.prefix_of_prefix (fun other hother hmem =>
          hfresh other hother (List.mem_cons_of_mem _ hmem)) hle
        exact hfront (List.cons_prefix_cons.mpr ⟨rfl, hthere⟩)
      rw [replace_cons hstays]
      refine .char (fun other hother => ?_) ih
      rcases List.mem_append.mp hother with hother | hother
      · exact hplain other hother
      · exact List.mem_singleton.mp hother ▸ hfront

/-- Replacing one code after the other decodes, as long as no code stands for a character of a
later one. -/
theorem decodes_foldl (hmarked : Marked marker codes)
    (hfresh : codes.Pairwise fun earlier later => earlier.2 ∉ later.1) (t : Text) :
    Decodes codes t (codes.foldl (fun s code => replace code.1 [code.2] s) t) := by
  induction codes using List.reverseRecOn with
  | nil => exact decodes_nil t
  | append_singleton codes code ih =>
    obtain ⟨hothers, -, hlast⟩ := List.pairwise_append.mp hfresh
    have hdecodes := ih (fun other hother => hmarked other (List.mem_append_left _ hother)) hothers
    obtain ⟨hcode, -⟩ := hmarked code (List.mem_append_right _ (List.mem_singleton.mpr rfl))
    obtain ⟨old, c⟩ := code
    rw [List.foldl_append]
    dsimp only [List.foldl] at hcode ⊢
    rw [hcode] at hmarked hlast ⊢
    exact hdecodes.replaced hmarked fun other hother => hlast other hother _ (List.mem_singleton.mpr rfl)

/-! ## Encoding -/

theorem decodes_flatMap {encode : Char → Text} (hmarked : Marked marker codes)
    (hencode : ∀ c, (encode c, c) ∈ codes ∨ c ≠ marker ∧ encode c = [c]) (t : Text) :
    Decodes codes (t.flatMap encode) t := by
  induction t with
  | nil => exact .nil
  | cons c t ih =>
    rw [List.flatMap_cons]
    rcases hencode c with hcode | ⟨hne, hplain⟩
    · exact .code hcode ih
    · rw [hplain]
      refine .char (fun code hcode hfront => ?_) ih
      rw [(hmarked code hcode).1] at hfront
      exact hne (List.cons_prefix_cons.mp hfront).1.symm

end ClusterState.Data.EscapeCodes
