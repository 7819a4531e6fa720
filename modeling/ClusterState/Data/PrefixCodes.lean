import Mathlib

/-! # Codes that show their own end

Whatever follows an encoded value, the value can be read off again. A text that is put
together from such codes determines its parts.
-/

namespace ClusterState.Data.PrefixCodes

variable {α β γ σ : Type*} {f : α → List σ} {g : β → List σ} {a b : α} {l l' x y : List σ} {q : σ}

/-- No encoded value goes on into another one. -/
def SelfDelimiting (f : α → List σ) : Prop :=
  ∀ ⦃a b : α⦄ ⦃x y : List σ⦄, f a ++ x = f b ++ y → a = b ∧ x = y

namespace SelfDelimiting

theorem of_read {read : List σ → Option (α × List σ)} (h : ∀ a x, read (f a ++ x) = some (a, x)) :
    SelfDelimiting f := by
  intro a b x y heq
  have hread : some (a, x) = some (b, y) := by
    rw [← h a x, heq, h b y]
  exact Prod.mk.inj (Option.some.inj hread)

theorem append (hf : SelfDelimiting f) (hg : SelfDelimiting g) :
    SelfDelimiting fun p : α × β => f p.1 ++ g p.2 := by
  rintro ⟨a, b⟩ ⟨a', b'⟩ x y heq
  dsimp only at heq
  rw [List.append_assoc, List.append_assoc] at heq
  obtain ⟨rfl, hrest⟩ := hf heq
  obtain ⟨rfl, hxy⟩ := hg hrest
  exact ⟨rfl, hxy⟩

theorem between (hf : SelfDelimiting f) (l r : List σ) : SelfDelimiting fun a => l ++ f a ++ r := by
  intro a b x y heq
  dsimp only at heq
  rw [List.append_assoc, List.append_assoc, List.append_assoc, List.append_assoc] at heq
  obtain ⟨hab, heq⟩ := hf (List.append_cancel_left heq)
  exact ⟨hab, List.append_cancel_left heq⟩

/-- Values one after another, up to a mark that starts none of them. -/
theorem marked (hf : SelfDelimiting f) (hne : ∀ a, f a ≠ []) (hq : ∀ a, (f a).head? ≠ some q) :
    SelfDelimiting fun l : List α => l.flatMap f ++ [q] := by
  have hstart (a : α) (l : List α) (x y : List σ) : [q] ++ x ≠ (a :: l).flatMap f ++ [q] ++ y := by
    intro heq
    have hhead := congrArg List.head? heq
    rw [List.flatMap_cons, List.append_assoc, List.append_assoc,
      List.head?_append_of_ne_nil _ (hne a)] at hhead
    exact hq a hhead.symm
  intro l l' x y heq
  dsimp only at heq
  induction l generalizing l' with
  | nil =>
    cases l' with
    | nil => exact ⟨rfl, List.append_cancel_left heq⟩
    | cons b l' => exact (hstart b l' x y heq).elim
  | cons a l ih =>
    cases l' with
    | nil => exact (hstart a l y x heq.symm).elim
    | cons b l' =>
      rw [List.flatMap_cons, List.flatMap_cons, List.append_assoc, List.append_assoc, List.append_assoc,
        List.append_assoc] at heq
      obtain ⟨rfl, hrest⟩ := hf heq
      rw [← List.append_assoc, ← List.append_assoc] at hrest
      obtain ⟨rfl, hxy⟩ := ih hrest
      exact ⟨rfl, hxy⟩

theorem flatMap_injective (hf : SelfDelimiting f) (hne : ∀ a, f a ≠ []) :
    Function.Injective fun l : List α => l.flatMap f := by
  intro l l' heq
  dsimp only at heq
  induction l generalizing l' with
  | nil =>
    cases l' with
    | nil => rfl
    | cons b l' => exact (hne b (List.append_eq_nil_iff.mp heq.symm).1).elim
  | cons a l ih =>
    cases l' with
    | nil => exact (hne a (List.append_eq_nil_iff.mp heq).1).elim
    | cons b l' =>
      rw [List.flatMap_cons, List.flatMap_cons] at heq
      obtain ⟨rfl, hrest⟩ := hf heq
      exact congrArg (a :: ·) (ih hrest)

theorem span_inj {p : σ → Prop} (hl : ∀ c ∈ l, p c) (hl' : ∀ c ∈ l', p c) (hq : ¬p q)
    (heq : l ++ q :: x = l' ++ q :: y) : l = l' ∧ x = y := by
  induction l generalizing l' with
  | nil =>
    cases l' with
    | nil => exact ⟨rfl, List.tail_eq_of_cons_eq heq⟩
    | cons c l' =>
      obtain rfl := List.head_eq_of_cons_eq heq
      exact (hq (hl' _ List.mem_cons_self)).elim
  | cons c l ih =>
    cases l' with
    | nil =>
      obtain rfl := List.head_eq_of_cons_eq heq
      exact (hq (hl _ List.mem_cons_self)).elim
    | cons c' l' =>
      obtain ⟨rfl, hrest⟩ := List.cons.inj heq
      obtain ⟨-, hl⟩ := List.forall_mem_cons.mp hl
      obtain ⟨-, hl'⟩ := List.forall_mem_cons.mp hl'
      obtain ⟨rfl, hxy⟩ := ih hl hl' hrest
      exact ⟨rfl, hxy⟩

/-- Symbols of one kind, up to a symbol that is not of this kind. -/
theorem of_kind {p : σ → Prop} (hinj : Function.Injective f) (hp : ∀ a, ∀ c ∈ f a, p c) (hq : ¬p q) :
    SelfDelimiting fun a => f a ++ [q] := by
  intro a b x y heq
  dsimp only at heq
  rw [List.append_assoc, List.append_assoc] at heq
  obtain ⟨hab, hxy⟩ := span_inj (hp a) (hp b) hq heq
  exact ⟨hinj hab, hxy⟩

end SelfDelimiting

end ClusterState.Data.PrefixCodes
