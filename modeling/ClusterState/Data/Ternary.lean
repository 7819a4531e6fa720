import Mathlib

/-! # Conditions that may be unknown

A condition on a missing value is neither true nor false. Connectives are Kleene's strong
ones. A guard acts when its condition is true; a constraint objects when it is false.
-/

namespace ClusterState.Data

/-- `none` is unknown. -/
abbrev Ternary := Option Bool

namespace Ternary

def neg : Ternary → Ternary := Option.map (! ·)

def conj : Ternary → Ternary → Ternary
  | some true, b => b
  | some false, _ => some false
  | none, some false => some false
  | none, _ => none

def disj : Ternary → Ternary → Ternary
  | some false, b => b
  | some true, _ => some true
  | none, some true => some true
  | none, _ => none

section Values

variable {α : Type} (p : α → Prop) [DecidablePred p]

/-- A condition on a value, unknown when the value is missing. -/
def test (a : Option α) : Ternary := a.map fun a => decide (p a)

def isNull (a : Option α) : Ternary := some a.isNone

def isNotNull (a : Option α) : Ternary := some a.isSome

def isIn [DecidableEq α] (a : Option α) : List α → Ternary
  | [] => some false
  | b :: bs => disj (test (· = b) a) (isIn a bs)

def between [LE α] [DecidableRel (α := α) (· ≤ ·)] (low high : α) (a : Option α) : Ternary :=
  conj (test (low ≤ ·) a) (test (· ≤ high) a)

end Values

/-! ## When a condition is true, and when it is false -/

section Truth

variable {a b : Ternary}

@[simp] theorem neg_eq_true : neg a = some true ↔ a = some false := by
  rcases a with _ | _ | _ <;> decide

@[simp] theorem neg_eq_false : neg a = some false ↔ a = some true := by
  rcases a with _ | _ | _ <;> decide

@[simp] theorem conj_eq_true : conj a b = some true ↔ a = some true ∧ b = some true := by
  rcases a with _ | _ | _ <;> rcases b with _ | _ | _ <;> decide

@[simp] theorem conj_eq_false : conj a b = some false ↔ a = some false ∨ b = some false := by
  rcases a with _ | _ | _ <;> rcases b with _ | _ | _ <;> decide

@[simp] theorem disj_eq_true : disj a b = some true ↔ a = some true ∨ b = some true := by
  rcases a with _ | _ | _ <;> rcases b with _ | _ | _ <;> decide

@[simp] theorem disj_eq_false : disj a b = some false ↔ a = some false ∧ b = some false := by
  rcases a with _ | _ | _ <;> rcases b with _ | _ | _ <;> decide

end Truth

section Values

variable {α : Type} {p : α → Prop} [DecidablePred p] {a : Option α} {x : α}

@[simp] theorem test_eq_true : test p a = some true ↔ ∃ x, a = some x ∧ p x := by
  cases a <;> simp [test]

@[simp] theorem test_eq_false : test p a = some false ↔ ∃ x, a = some x ∧ ¬ p x := by
  cases a <;> simp [test]

@[simp] theorem isNull_eq_true : isNull a = some true ↔ a = none := by
  cases a <;> simp [isNull]

@[simp] theorem isNull_eq_false : isNull a = some false ↔ a ≠ none := by
  cases a <;> simp [isNull]

@[simp] theorem isNotNull_eq_true : isNotNull a = some true ↔ a ≠ none := by
  cases a <;> simp [isNotNull]

@[simp] theorem isNotNull_eq_false : isNotNull a = some false ↔ a = none := by
  cases a <;> simp [isNotNull]

variable [DecidableEq α] {l : List α}

/-- A missing value is neither in a list nor outside of it. -/
theorem isIn_eq_test (h : l ≠ []) : isIn a l = test (· ∈ l) a := by
  induction l with
  | nil => exact absurd rfl h
  | cons b bs ih =>
    cases a with
    | none =>
      cases bs with
      | nil => rfl
      | cons c cs =>
        rw [isIn, ih (List.cons_ne_nil c cs)]
        rfl
    | some x =>
      have htest : isIn (some x) bs = some (decide (x ∈ bs)) := by
        cases bs with
        | nil => simp [isIn]
        | cons c cs => exact ih (List.cons_ne_nil c cs)
      rw [isIn, htest]
      by_cases hx : x = b <;> simp [test, disj, hx]

end Values

theorem between_eq_test {α : Type} [LE α] [DecidableRel (α := α) (· ≤ ·)] {low high : α}
    {a : Option α} : between low high a = test (fun x => low ≤ x ∧ x ≤ high) a := by
  cases a with
  | none => rfl
  | some x =>
    by_cases hlow : low ≤ x <;> simp [between, test, conj, hlow]

end Ternary

end ClusterState.Data
