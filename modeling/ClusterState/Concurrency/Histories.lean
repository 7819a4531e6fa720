import Mathlib

/-! # Histories

What happens at some point of a history may depend on everything before it.
-/

namespace ClusterState.Concurrency

universe u v

variable {α : Type u} {P Q : List α → α → Prop} {before since : List α} {e : α}

theorem getLast?_filterMap_append {β : Type v} (f : α → Option β) (l : List α) (a : α) :
    ((l ++ [a]).filterMap f).getLast? = (f a).or ((l.filterMap f).getLast?) := by
  rw [List.filterMap_append, List.getLast?_append]
  cases h : f a <;> simp [h]

/-- At some point after `before` an element of `since` stands where `P` holds of
it and of all that went before. -/
def Sometime (P : List α → α → Prop) (before since : List α) : Prop :=
  ∃ between e after, since = between ++ e :: after ∧ P (before ++ between) e

theorem not_sometime_nil : ¬Sometime P before [] := by
  rintro ⟨between, e, after, h, -⟩
  cases between <;> cases h

theorem sometime_cons :
    Sometime P before (e :: since) ↔ P before e ∨ Sometime P (before ++ [e]) since := by
  constructor
  · rintro ⟨between, e', after, h, hP⟩
    cases between with
    | nil =>
      obtain ⟨rfl, rfl⟩ := List.cons.inj h
      rw [List.append_nil] at hP
      exact .inl hP
    | cons e'' between =>
      obtain ⟨rfl, rfl⟩ := List.cons.inj h
      refine .inr ⟨between, e', after, rfl, ?_⟩
      rw [List.append_assoc]
      exact hP
  · rintro (hP | ⟨between, e', after, rfl, hP⟩)
    · refine ⟨[], e, since, rfl, ?_⟩
      rw [List.append_nil]
      exact hP
    · refine ⟨e :: between, e', after, rfl, ?_⟩
      rw [List.append_assoc] at hP
      exact hP

theorem Sometime.imp (h : Sometime P before since)
    (hPQ : ∀ between, ∀ e ∈ since, P (before ++ between) e → Q (before ++ between) e) :
    Sometime Q before since := by
  obtain ⟨between, e, after, rfl, hP⟩ := h
  refine ⟨between, e, after, rfl, hPQ between e ?_ hP⟩
  exact List.mem_append_right _ List.mem_cons_self

theorem sometime_congr
    (hPQ : ∀ between, ∀ e ∈ since, P (before ++ between) e ↔ Q (before ++ between) e) :
    Sometime P before since ↔ Sometime Q before since :=
  ⟨fun h => h.imp fun between e he => (hPQ between e he).mp,
    fun h => h.imp fun between e he => (hPQ between e he).mpr⟩

end ClusterState.Concurrency
