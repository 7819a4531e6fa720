import Mathlib

/-! # Numbers in base ten

Numbers are read as `strconv` does it: `ParseUint` takes digits only, `ParseInt` a sign
before them, and both refuse what does not fit.
-/

namespace ClusterState.Data.Decimal

def digits (text : List Char) : Option Nat :=
  if text ≠ [] ∧ text.all Char.isDigit = true then some (Nat.ofDigitChars 10 text 0) else none

def parseUint (bits : Nat) (text : String) : Option Nat :=
  (digits text.toList).filter fun n => decide (n < 2 ^ bits)

/-- Whether a minus comes first, and what follows the sign. -/
def sign : List Char → Bool × List Char
  | '+' :: rest => (false, rest)
  | '-' :: rest => (true, rest)
  | text => (false, text)

def parseInt (bits : Nat) (text : String) : Option Int :=
  match (digits (sign text.toList).2).filter fun n => decide (n < 2 ^ bits) with
  | none => none
  | some n =>
    if (sign text.toList).1 then if n ≤ 2 ^ (bits - 1) then some (-n) else none
    else if n < 2 ^ (bits - 1) then some n else none

/-- `FormatInt` in base ten. -/
def formatInt (n : Int) : String := toString n

variable {bits n : Nat} {text : String}

theorem sign_of_digits {cs : List Char} (h : digits cs = some n) : sign cs = (false, cs) := by
  unfold digits at h
  split at h
  · rename_i hdigits
    cases cs with
    | nil => rfl
    | cons c cs =>
      have hc : c.isDigit = true := List.all_eq_true.mp hdigits.2 c List.mem_cons_self
      unfold sign
      split
      · rename_i heq
        obtain ⟨rfl, -⟩ := List.cons.inj heq
        exact absurd hc (by decide)
      · rename_i heq
        obtain ⟨rfl, -⟩ := List.cons.inj heq
        exact absurd hc (by decide)
      · rfl
  · cases h

theorem parseInt_of_parseUint (h : parseUint bits text = some n) :
    parseInt bits text = if n < 2 ^ (bits - 1) then some (n : Int) else none := by
  obtain ⟨hdigits, -⟩ := Option.filter_eq_some_iff.mp h
  rw [parseInt, sign_of_digits hdigits]
  change (match parseUint bits text with | none => _ | some n => _) = _
  rw [h]
  rfl

theorem digits_toDigits : digits (Nat.toDigits 10 n) = some n := by
  rw [digits, if_pos, Nat.ofDigitChars_ten_toDigits]
  refine ⟨Nat.toDigits_ne_nil, List.all_eq_true.mpr fun c hc => ?_⟩
  exact Nat.isDigit_of_mem_toDigits (by decide) le_rfl hc

theorem parseUint_formatInt (h : n < 2 ^ bits) : parseUint bits (formatInt n) = some n := by
  have htext : (formatInt n).toList = Nat.toDigits 10 n := by
    change (Nat.repr n).toList = _
    rw [Nat.repr, String.toList_ofList]
  rw [parseUint, htext, digits_toDigits, Option.filter_some, if_pos (decide_eq_true h)]

theorem parseInt_lt {m : Int} (h : parseInt bits text = some m) : m < 2 ^ (bits - 1) := by
  unfold parseInt at h
  split at h
  · cases h
  · split at h
    · split at h
      · cases h
        have hpos : (0 : Int) < 2 ^ (bits - 1) := by positivity
        omega
      · cases h
    · split at h
      · rename_i hlt
        cases h
        exact_mod_cast hlt
      · cases h

end ClusterState.Data.Decimal
