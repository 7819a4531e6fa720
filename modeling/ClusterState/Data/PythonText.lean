import Mathlib

/-! # Text as Python splits it

`str.split` and `str.splitlines` know more white space and more line ends than the writers of
the text, and `str.replace` goes over it from left to right.
-/

namespace ClusterState.Data.PythonText

abbrev Text := List Char

/-- `str.isspace` -/
def isSpace (c : Char) : Bool :=
  c ∈ ['\t', '\n', '\x0b', '\x0c', '\r', '\x1c', '\x1d', '\x1e', '\x1f', ' ', '\u0085', '\u00a0',
    '\u1680', '\u2028', '\u2029', '\u202f', '\u205f', '\u3000'] ||
    (0x2000 ≤ c.toNat && c.toNat ≤ 0x200a)

/-- The characters at which `str.splitlines` ends a line. -/
def endsLine (c : Char) : Bool :=
  c ∈ ['\n', '\x0b', '\x0c', '\r', '\x1c', '\x1d', '\x1e', '\u0085', '\u2028', '\u2029']

def split (s : Text) : List Text := (s.splitOnP isSpace).filter (· ≠ [])

/-- The lines of a text, with what has been read of the first one. -/
def linesFrom (line : Text) : Text → List Text
  | [] => if line = [] then [] else [line]
  | '\r' :: '\n' :: rest => line :: linesFrom [] rest
  | c :: rest => if endsLine c then line :: linesFrom [] rest else linesFrom (line ++ [c]) rest

def splitlines (s : Text) : List Text := linesFrom [] s

/-- Replaces `old` by `new` in what comes after the next `skip` characters. -/
def replaceFrom (old new : Text) : Nat → Text → Text
  | _, [] => []
  | skip + 1, _ :: rest => replaceFrom old new skip rest
  | 0, c :: rest =>
    if old.isPrefixOf (c :: rest) then new ++ replaceFrom old new (old.length - 1) rest
    else c :: replaceFrom old new 0 rest

def replace (old new s : Text) : Text := replaceFrom old new 0 s

def strip (s : Text) : Text := (s.dropWhile isSpace).rdropWhile isSpace

/-- Splits at `sep` what comes after the next `skip` characters, with what has been read of the
first piece. -/
def splitByFrom (sep : Text) : Text → Nat → Text → List Text
  | piece, _, [] => [piece]
  | piece, skip + 1, _ :: rest => splitByFrom sep piece skip rest
  | piece, 0, c :: rest =>
    if sep.isPrefixOf (c :: rest) then piece :: splitByFrom sep [] (sep.length - 1) rest
    else splitByFrom sep (piece ++ [c]) 0 rest

/-- `str.split(sep)` -/
def splitBy (sep s : Text) : List Text := splitByFrom sep [] 0 s

/-! ## Fields -/

section Fields

variable {f : Text} {fs : List Text}

/-- A piece of text that `split` does not take apart. -/
def Solid (f : Text) : Prop := f ≠ [] ∧ ∀ c ∈ f, isSpace c = false

theorem split_solid (hf : Solid f) : split f = [f] := by
  rw [split, List.splitOnP_eq_singleton hf.2, List.filter_singleton, decide_eq_true hf.1]
  rfl

theorem split_solid_append (hf : Solid f) (rest : Text) : split (f ++ ' ' :: rest) = f :: split rest := by
  rw [split, List.splitOnP_append_cons_of_forall_mem hf.2 ' ' (by decide), List.filter_cons,
    if_pos (decide_eq_true hf.1), split]

theorem split_intercalate (h : ∀ f ∈ fs, Solid f) : split ([' '].intercalate fs) = fs := by
  induction fs with
  | nil => rfl
  | cons f fs ih =>
    have hf := h f List.mem_cons_self
    have hfs := ih fun g hg => h g (List.mem_cons_of_mem f hg)
    cases fs with
    | nil =>
      rw [List.intercalate_singleton]
      exact split_solid hf
    | cons g fs =>
      rw [List.intercalate_cons_cons, List.append_assoc, List.singleton_append,
        split_solid_append hf, hfs]

theorem mem_of_mem_intercalate {c : Char} (h : c ∈ [' '].intercalate fs) : c = ' ' ∨ ∃ f ∈ fs, c ∈ f := by
  induction fs with
  | nil => cases h
  | cons f fs ih =>
    cases fs with
    | nil =>
      rw [List.intercalate_singleton] at h
      exact .inr ⟨f, List.mem_cons_self, h⟩
    | cons g fs =>
      rw [List.intercalate_cons_cons, List.append_assoc, List.mem_append, List.mem_append,
        List.mem_singleton] at h
      rcases h with h | h | h
      · exact .inr ⟨f, List.mem_cons_self, h⟩
      · exact .inl h
      · exact (ih h).imp_right fun ⟨f', hf', hc⟩ => ⟨f', List.mem_cons_of_mem f hf', hc⟩

end Fields

/-! ## Lines -/

section Lines

variable {line rest : Text} {lines : List Text}

theorem linesFrom_append (hline : ∀ c ∈ line, endsLine c = false) (start : Text) :
    linesFrom start (line ++ '\n' :: rest) = (start ++ line) :: linesFrom [] rest := by
  induction line generalizing start with
  | nil =>
    rw [List.append_nil, List.nil_append, linesFrom, if_pos (by decide)]
    rintro rest' habsurd
    exact absurd habsurd (by decide)
  | cons c line ih =>
    have hc := hline c List.mem_cons_self
    rw [List.cons_append, linesFrom, hc, if_neg Bool.false_ne_true,
      ih fun d hd => hline d (List.mem_cons_of_mem c hd), List.append_assoc, List.singleton_append]
    rintro rest' rfl
    exact absurd hc (by decide)

theorem splitlines_terminated (h : ∀ line ∈ lines, ∀ c ∈ line, endsLine c = false) :
    splitlines (lines.flatMap (· ++ ['\n'])) = lines := by
  unfold splitlines
  induction lines with
  | nil => rfl
  | cons line lines ih =>
    rw [List.flatMap_cons, List.append_assoc, List.singleton_append,
      linesFrom_append (h line List.mem_cons_self), List.nil_append,
      ih fun l hl => h l (List.mem_cons_of_mem line hl)]

end Lines

/-! ## Pieces -/

section Pieces

variable {sep line piece rest : Text} {lines : List Text}

theorem splitByFrom_skip (l rest : Text) :
    splitByFrom sep piece l.length (l ++ rest) = splitByFrom sep piece 0 rest := by
  induction l with
  | nil => rfl
  | cons c l ih =>
    rw [List.cons_append, List.length_cons, splitByFrom]
    exact ih

theorem splitByFrom_sep (h : sep ≠ []) (piece rest : Text) :
    splitByFrom sep piece 0 (sep ++ rest) = piece :: splitByFrom sep [] 0 rest := by
  cases sep with
  | nil => exact absurd rfl h
  | cons c sep =>
    have hfront : (c :: sep).isPrefixOf (c :: (sep ++ rest)) = true :=
      List.isPrefixOf_iff_prefix.mpr (List.prefix_append (c :: sep) rest)
    rw [List.cons_append, splitByFrom, if_pos hfront]
    exact congrArg (piece :: ·) (splitByFrom_skip sep rest)

theorem splitByFrom_line (hsep : '\n' ∉ sep) (hne : sep ≠ []) (h : ¬ sep <:+: line) :
    splitByFrom sep piece 0 (line ++ '\n' :: rest) =
      splitByFrom sep (piece ++ line ++ ['\n']) 0 rest := by
  have hnot : ∀ back, back <:+ line → ¬ sep.isPrefixOf (back ++ '\n' :: rest) = true := by
    intro back hback hfront
    have hend : back ++ ['\n'] <+: back ++ '\n' :: rest := ⟨rest, by simp⟩
    rcases List.prefix_or_prefix_of_prefix (List.isPrefixOf_iff_prefix.mp hfront) hend with hpart | hpart
    · rcases List.prefix_concat_iff.mp hpart with rfl | hpart
      · exact hsep (by simp)
      · exact h (hpart.isInfix.trans hback.isInfix)
    · exact hsep (hpart.subset (by simp))
  induction line generalizing piece with
  | nil =>
    have hfirst : ¬ sep.isPrefixOf ('\n' :: rest) = true := hnot [] (List.suffix_refl _)
    rw [List.nil_append, splitByFrom, if_neg hfirst, List.append_nil]
  | cons c line ih =>
    have hfirst : ¬ sep.isPrefixOf (c :: (line ++ '\n' :: rest)) = true := hnot _ (List.suffix_refl _)
    rw [List.cons_append, splitByFrom, if_neg hfirst, ih]
    · simp
    · exact fun hinfix => h (List.infix_cons hinfix)
    · exact fun back hback => hnot back (hback.trans (List.suffix_cons c line))

theorem splitByFrom_lines (hsep : '\n' ∉ sep) (hne : sep ≠ []) (h : ∀ line ∈ lines, ¬ sep <:+: line) :
    splitByFrom sep piece 0 (lines.flatMap (· ++ ['\n']) ++ rest) =
      splitByFrom sep (piece ++ lines.flatMap (· ++ ['\n'])) 0 rest := by
  induction lines generalizing piece with
  | nil => rw [List.flatMap_nil, List.nil_append, List.append_nil]
  | cons line lines ih =>
    obtain ⟨hline, hlines⟩ := List.forall_mem_cons.mp h
    rw [List.flatMap_cons, List.append_assoc, List.append_assoc, List.singleton_append,
      splitByFrom_line hsep hne hline, ih hlines]
    simp

end Pieces

/-! ## Replacements -/

section Replacements

variable {old new : Text} {a : Char}

theorem replaceFrom_skip (l rest : Text) :
    replaceFrom old new l.length (l ++ rest) = replaceFrom old new 0 rest := by
  induction l with
  | nil => rfl
  | cons c l ih => exact ih

theorem replace_occurrence (h : old ≠ []) (rest : Text) :
    replace old new (old ++ rest) = new ++ replace old new rest := by
  cases old with
  | nil => exact absurd rfl h
  | cons c old =>
    have hfront : (c :: old).isPrefixOf (c :: (old ++ rest)) = true :=
      List.isPrefixOf_iff_prefix.mpr (List.prefix_append (c :: old) rest)
    rw [replace, List.cons_append, replaceFrom, if_pos hfront]
    exact congrArg (new ++ ·) (replaceFrom_skip old rest)

theorem replace_cons {c : Char} {rest : Text} (h : ¬old <+: c :: rest) :
    replace old new (c :: rest) = c :: replace old new rest := by
  have hfront : ¬old.isPrefixOf (c :: rest) = true := fun hfront =>
    h (List.isPrefixOf_iff_prefix.mp hfront)
  rw [replace, replaceFrom, if_neg hfront]
  rfl

theorem replace_other {l : Text} (h : a ∉ l) (rest : Text) :
    replace (a :: old) new (l ++ rest) = l ++ replace (a :: old) new rest := by
  induction l with
  | nil => rfl
  | cons c l ih =>
    have hne : a ≠ c := fun heq => h (heq ▸ List.mem_cons_self)
    rw [List.cons_append, replace_cons fun hfront => hne (List.cons_prefix_cons.mp hfront).1,
      ih fun hmem => h (List.mem_cons_of_mem c hmem), List.cons_append]

theorem replace_eq_or (old : Text) (hnew : a ∈ new) (s : Text) :
    replace old new s = s ∨ a ∈ replace old new s := by
  unfold replace
  induction s with
  | nil => exact .inl rfl
  | cons c s ih =>
    rw [replaceFrom]
    split
    · exact .inr (List.mem_append_left _ hnew)
    · rcases ih with ih | ih
      · exact .inl (by rw [ih])
      · exact .inr (List.mem_cons_of_mem _ ih)

theorem replace_of_absent {s : Text} (h : ∀ back, back <:+ s → ¬ old <+: back) :
    replace old new s = s := by
  unfold replace
  induction s with
  | nil => rfl
  | cons c s ih =>
    rw [replaceFrom, if_neg]
    · rw [ih fun back hback => h back (hback.trans (List.suffix_cons c s))]
    · rw [List.isPrefixOf_iff_prefix]
      exact h _ (List.suffix_refl _)

theorem prefix_of_replaceFrom {first : Char} {newRest front s : Text} (hfront : first ∉ front)
    (h : front <+: replaceFrom old (first :: newRest) 0 s) : front <+: s := by
  induction s generalizing front with
  | nil => exact h
  | cons c s ih =>
    cases front with
    | nil => exact List.nil_prefix
    | cons c' front =>
      rw [List.mem_cons, not_or] at hfront
      rw [replaceFrom] at h
      split at h
      · rw [List.cons_append, List.cons_prefix_cons] at h
        exact absurd h.1.symm hfront.1
      · rw [List.cons_prefix_cons] at h ⊢
        exact ⟨h.1, ih hfront.2 h.2⟩

/-- No part of the new text is, or begins, the old one. -/
theorem absent_replaceFrom {first : Char} {oldRest newRest s : Text}
    (hold : old = first :: oldRest) (hfirst : first ∉ oldRest)
    (hnew : new = first :: newRest)
    (hapart : ∀ i < new.length, ¬ old <+: new.drop i ∧ ¬ new.drop i <+: old) (skip : Nat) :
    ∀ back, back <:+ replaceFrom old new skip s → ¬ old <+: back := by
  induction s generalizing skip with
  | nil =>
    intro back hback hstart
    have hnil : back = [] := by
      cases skip <;> exact List.suffix_nil.mp hback
    rw [hnil, hold] at hstart
    cases List.prefix_nil.mp hstart
  | cons c s ih =>
    cases skip with
    | succ skip => exact ih skip
    | zero =>
      intro back hback hstart
      rw [replaceFrom] at hback
      split at hback
      · obtain ⟨front, hfront⟩ := hback
        rcases List.append_eq_append_iff.mp hfront with ⟨between, hbetween, rfl⟩ | ⟨between, -, hrest⟩
        · have hdrop : between = new.drop front.length := by
            rw [hbetween, List.drop_left]
          by_cases hinside : front.length < new.length
          · obtain ⟨hwhole, hpart⟩ := hapart _ hinside
            rw [← hdrop] at hwhole hpart
            exact (List.prefix_or_prefix_of_prefix hstart (List.prefix_append between _)).elim
              hwhole hpart
          · rw [hdrop, List.drop_eq_nil_of_le (Nat.le_of_not_lt hinside), List.nil_append] at hstart
            exact ih _ _ (List.suffix_refl _) hstart
        · exact ih _ back ⟨between, hrest.symm⟩ hstart
      · rename_i hnot
        rcases List.suffix_cons_iff.mp hback with rfl | hback
        · rw [List.isPrefixOf_iff_prefix] at hnot
          rw [hold, List.cons_prefix_cons] at hstart hnot
          rw [hnew] at hstart
          exact hnot ⟨hstart.1, prefix_of_replaceFrom hfirst hstart.2⟩
        · exact ih 0 back hback hstart

theorem replace_replace {first : Char} {oldRest newRest : Text} (hold : old = first :: oldRest)
    (hfirst : first ∉ oldRest) (hnew : new = first :: newRest)
    (hapart : ∀ i < new.length, ¬ old <+: new.drop i ∧ ¬ new.drop i <+: old) (s : Text) :
    replace old new (replace old new s) = replace old new s :=
  replace_of_absent (absent_replaceFrom hold hfirst hnew hapart 0)

end Replacements

end ClusterState.Data.PythonText
