import Mathlib

/-! # Paths with slashes

Paths are taken apart and cleaned by their text alone: empty components and `.` go, and
`..` takes the component before it away.
-/

namespace ClusterState.Data.SlashPath

abbrev Text := List Char

def components (p : Text) : List Text := p.splitOn '/'

def isAbs (p : Text) : Bool := p.head? == some '/'

/-- One more component; the last one stands first. -/
def push (rooted : Bool) (stack : List Text) (c : Text) : List Text :=
  if c = [] ∨ c = ['.'] then stack
  else if c = ['.', '.'] then
    match stack with
    | [] => if rooted then [] else [c]
    | top :: rest => if top = ['.', '.'] then c :: stack else rest
  else c :: stack

def resolve (rooted : Bool) (cs : List Text) : List Text := cs.foldl (push rooted) []

def join (cs : List Text) : Text := ['/'].intercalate cs

/-- The shortest path that names the same. -/
def clean (p : Text) : Text :=
  let body := join (resolve (isAbs p) (components p)).reverse
  if isAbs p then '/' :: body else if body = [] then ['.'] else body

/-- Up to the last slash, cleaned. -/
def dir (p : Text) : Text := clean (p.rdropWhile (· ≠ '/'))

def trimRight (p : Text) : Text := p.rdropWhile (· = '/')

def base (p : Text) : Text :=
  if p = [] then ['.']
  else if trimRight p = [] then ['/']
  else (trimRight p).rtakeWhile (· ≠ '/')

/-- Two elements joined; empty ones in front are left out. -/
def join₂ (p q : Text) : Text :=
  if p = [] then if q = [] then [] else clean q else clean (p ++ '/' :: q)

/-! ## Rooted paths -/

variable {p q c : Text} {cs stack : List Text}

def Plain (c : Text) : Prop := c ≠ [] ∧ c ≠ ['.'] ∧ c ≠ ['.', '.'] ∧ '/' ∉ c

theorem push_plain (h : Plain c) : push true stack c = c :: stack := by
  unfold push
  rw [if_neg (not_or.mpr ⟨h.1, h.2.1⟩), if_neg h.2.2.1]

theorem plain_push (hstack : ∀ c ∈ stack, Plain c) (hc : '/' ∉ c) :
    ∀ c' ∈ push true stack c, Plain c' := by
  unfold push
  split
  · exact hstack
  · rename_i hskip
    rw [not_or] at hskip
    split
    · split
      · exact fun c' h => absurd h List.not_mem_nil
      · rename_i top rest
        rw [if_neg (hstack top List.mem_cons_self).2.2.1]
        exact fun c' h => hstack c' (List.mem_cons_of_mem _ h)
    · rename_i hdots
      intro c' h
      rcases List.mem_cons.mp h with rfl | h
      · exact ⟨hskip.1, hskip.2, hdots, hc⟩
      · exact hstack c' h

theorem plain_foldl (hstack : ∀ c ∈ stack, Plain c) (hcs : ∀ c ∈ cs, '/' ∉ c) :
    ∀ c' ∈ cs.foldl (push true) stack, Plain c' := by
  induction cs generalizing stack with
  | nil => exact hstack
  | cons c cs ih =>
    rw [List.forall_mem_cons] at hcs
    exact ih (plain_push hstack hcs.1) hcs.2

theorem foldl_plain (hcs : ∀ c ∈ cs, Plain c) :
    cs.foldl (push true) stack = cs.reverse ++ stack := by
  induction cs generalizing stack with
  | nil => rfl
  | cons c cs ih =>
    rw [List.forall_mem_cons] at hcs
    rw [List.foldl_cons, push_plain hcs.1, ih hcs.2, List.reverse_cons, List.append_assoc]
    rfl

theorem slash_not_mem_components : ∀ c ∈ components p, '/' ∉ c := by
  induction p with
  | nil => simp [components]
  | cons c p ih =>
    unfold components at ih ⊢
    rw [List.splitOn_cons_eq_if_modifyHead]
    split
    · exact List.forall_mem_cons.mpr ⟨List.not_mem_nil, ih⟩
    · rename_i hc
      cases hp : p.splitOn '/' with
      | nil => exact absurd hp (List.splitOn_ne_nil _ _)
      | cons first rest =>
        rw [hp, List.forall_mem_cons] at ih
        rw [List.modifyHead_cons, List.forall_mem_cons]
        refine ⟨fun hmem => ?_, ih.2⟩
        rcases List.mem_cons.mp hmem with rfl | hmem
        · exact hc (beq_self_eq_true _)
        · exact ih.1 hmem

theorem components_append (p q : Text) :
    components (p ++ '/' :: q) = components p ++ components q :=
  List.splitOn_append_cons_self p q

theorem components_slash (q : Text) : components ('/' :: q) = [] :: components q :=
  components_append [] q

theorem resolve_append {cs' : List Text} {rooted : Bool} :
    resolve rooted (cs ++ cs') = cs'.foldl (push rooted) (resolve rooted cs) := List.foldl_append

theorem resolve_nil_cons {rooted : Bool} : resolve rooted ([] :: cs) = resolve rooted cs := rfl

theorem plain_resolve : ∀ c ∈ resolve true (components p), Plain c :=
  plain_foldl (fun _ h => absurd h List.not_mem_nil) slash_not_mem_components

theorem components_join (hcs : ∀ c ∈ cs, Plain c) (hne : cs ≠ []) : components (join cs) = cs :=
  List.splitOn_intercalate '/' (fun c hc => (hcs c hc).2.2.2) hne

theorem resolve_join (hcs : ∀ c ∈ cs, Plain c) :
    resolve true (components ('/' :: join cs)) = cs.reverse := by
  rw [components_slash, resolve_nil_cons]
  cases cs with
  | nil => rfl
  | cons c cs =>
    rw [components_join hcs (List.cons_ne_nil _ _), resolve, foldl_plain hcs, List.append_nil]

theorem clean_of_isAbs (h : isAbs p = true) :
    clean p = '/' :: join (resolve true (components p)).reverse := by
  rw [clean, h]
  rfl

theorem isAbs_clean (h : isAbs p = true) : isAbs (clean p) = true := by
  rw [clean_of_isAbs h]
  rfl

/-- Cleaning changes the text of a path, not what it comes to. -/
theorem resolve_clean (h : isAbs p = true) :
    resolve true (components (clean p)) = resolve true (components p) := by
  rw [clean_of_isAbs h, resolve_join fun c hc => plain_resolve c (List.mem_reverse.mp hc),
    List.reverse_reverse]

theorem clean_congr (hp : isAbs p = true) (hq : isAbs q = true)
    (h : resolve true (components p) = resolve true (components q)) : clean p = clean q := by
  rw [clean_of_isAbs hp, clean_of_isAbs hq, h]

theorem clean_clean (h : isAbs p = true) : clean (clean p) = clean p :=
  clean_congr (isAbs_clean h) h (resolve_clean h)

theorem isAbs_append (h : isAbs p = true) : isAbs (p ++ q) = true := by
  cases p with
  | nil => cases h
  | cons c p => exact h

theorem resolve_append_slashes {slashes : Text} (h : ∀ c ∈ slashes, c = '/') :
    resolve true (components (p ++ slashes)) = resolve true (components p) := by
  have hempty : ∀ stack, (components slashes).foldl (push true) stack = stack := by
    induction slashes with
    | nil => exact fun _ => rfl
    | cons c slashes ih =>
      rw [List.forall_mem_cons] at h
      obtain ⟨rfl, h⟩ := h
      rw [components_slash]
      exact ih h
  cases slashes with
  | nil => rw [List.append_nil]
  | cons c slashes =>
    rw [List.forall_mem_cons] at h
    obtain ⟨rfl, h⟩ := h
    rw [components_slash] at hempty
    rw [components_append, resolve_append]
    exact hempty _

theorem isAbs_rdropWhile {f : Char → Bool} (h : isAbs p = true) (hne : p.rdropWhile f ≠ []) :
    isAbs (p.rdropWhile f) = true := by
  obtain ⟨rest, hrest⟩ := List.rdropWhile_prefix f (l := p)
  cases hdrop : p.rdropWhile f with
  | nil => exact absurd hdrop hne
  | cons c kept =>
    rw [hdrop] at hrest
    rw [← hrest] at h
    exact h

theorem exists_last_slash (h : isAbs p = true) :
    ∃ front, p = front ++ '/' :: p.rtakeWhile (· ≠ '/') ∧ p.rdropWhile (· ≠ '/') = front ++ ['/'] := by
  have hsplit : p.rdropWhile (· ≠ '/') ++ p.rtakeWhile (· ≠ '/') = p :=
    List.rdropWhile_append_rtakeWhile
  have hne : p.rdropWhile (· ≠ '/') ≠ [] := by
    intro hnil
    rw [List.rdropWhile_eq_nil_iff] at hnil
    cases p with
    | nil => cases h
    | cons c p =>
      have hc : c = '/' := by simpa [isAbs] using h
      simpa [hc] using hnil c List.mem_cons_self
  have hlast := List.rdropWhile_last_not (fun c : Char => decide (c ≠ '/')) p hne
  have hslash : (p.rdropWhile (· ≠ '/')).getLast hne = '/' := by simpa using hlast
  have hfront := List.dropLast_append_getLast hne
  rw [hslash] at hfront
  refine ⟨_, ?_, hfront.symm⟩
  conv_lhs => rw [← hsplit, ← hfront]
  rw [List.append_assoc]
  rfl

theorem clean_dir_base (h : isAbs p = true) (hne : trimRight p ≠ []) :
    clean (dir (trimRight p) ++ '/' :: base (trimRight p)) = clean p := by
  have habs : isAbs (trimRight p) = true := isAbs_rdropWhile h hne
  have htrim : trimRight (trimRight p) = trimRight p := List.rdropWhile_idempotent _ _
  obtain ⟨front, hfront, hdir⟩ := exists_last_slash habs
  have hbase : base (trimRight p) = (trimRight p).rtakeWhile (· ≠ '/') := by
    rw [base, if_neg hne, htrim, if_neg hne]
  have habs' : isAbs (front ++ ['/']) = true := by
    rw [← hdir]
    apply isAbs_rdropWhile habs
    rw [hdir]
    exact List.append_ne_nil_of_right_ne_nil _ (List.cons_ne_nil _ _)
  have hroot : isAbs (dir (trimRight p)) = true := by
    rw [dir, hdir]
    exact isAbs_clean habs'
  apply clean_congr (isAbs_append hroot) h
  calc resolve true (components (dir (trimRight p) ++ '/' :: base (trimRight p)))
      = (components (base (trimRight p))).foldl (push true)
          (resolve true (components (dir (trimRight p)))) := by
        rw [components_append, resolve_append]
    _ = (components (base (trimRight p))).foldl (push true) (resolve true (components front)) := by
        rw [dir, hdir, resolve_clean habs', resolve_append_slashes (by simp)]
    _ = resolve true (components (trimRight p)) := by
        rw [hbase, ← resolve_append, ← components_append, ← hfront]
    _ = resolve true (components p) := by
        have hsplit : trimRight p ++ p.rtakeWhile (· = '/') = p := List.rdropWhile_append_rtakeWhile
        conv_rhs => rw [← hsplit]
        refine (resolve_append_slashes fun c hc => ?_).symm
        have hslash : decide (c = '/') = true :=
          @List.mem_rtakeWhile_imp _ (fun c => decide (c = '/')) _ _ hc
        exact of_decide_eq_true hslash

end ClusterState.Data.SlashPath
