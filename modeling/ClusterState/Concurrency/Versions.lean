import Mathlib

/-! # Stores with versions

Every write to a store gets a new version. A writer that names the version it has read
replaces what it has read, or fails.
-/

namespace ClusterState.Concurrency

universe u v

/-- Objects that are stored under a key and stamped with a version. -/
class Versioned (ο : Type u) (κ : outParam (Type v)) where
  key : ο → κ
  version : ο → Nat
  stamp : Nat → ο → ο
  key_stamp : ∀ n o, key (stamp n o) = key o
  version_stamp : ∀ n o, version (stamp n o) = n

open Versioned (key version stamp)

attribute [simp] Versioned.key_stamp Versioned.version_stamp

/-- What is stored, and all that has been, latest first. -/
structure Store (ο : Type u) (κ : Type v) where
  revision : Nat
  current : κ → Option ο
  versions : List ο

namespace Store

variable {ο : Type u} {κ : Type v} {s : Store ο κ} {o o' v : ο} {k : κ}

def empty : Store ο κ := ⟨0, fun _ => none, []⟩

@[simp] theorem versions_empty : (empty : Store ο κ).versions = [] := rfl

@[simp] theorem current_empty : (empty : Store ο κ).current k = none := rfl

def remove [DecidableEq κ] (s : Store ο κ) (k : κ) : Store ο κ :=
  { s with current := Function.update s.current k none }

@[simp] theorem versions_remove [DecidableEq κ] : (s.remove k).versions = s.versions := rfl

theorem current_remove [DecidableEq κ] {k' : κ} (h : (s.remove k).current k' = some o) :
    s.current k' = some o := by
  by_cases hk : k' = k
  · subst hk
    simp [remove] at h
  · simpa [remove, hk] using h

variable [Versioned ο κ]

def next (s : Store ο κ) (o : ο) : ο := stamp (s.revision + 1) o

@[simp] theorem key_next : key (s.next o) = key o := Versioned.key_stamp _ _

@[simp] theorem version_next : version (s.next o) = s.revision + 1 := Versioned.version_stamp _ _

variable [DecidableEq κ]

def put (s : Store ο κ) (o : ο) : Store ο κ where
  revision := s.revision + 1
  current := Function.update s.current (key o) (some (s.next o))
  versions := s.next o :: s.versions

@[simp] theorem versions_put : (s.put o).versions = s.next o :: s.versions := rfl

@[simp] theorem current_put_self : (s.put o).current (key o) = some (s.next o) :=
  Function.update_self ..

theorem current_put_of_ne (h : k ≠ key o) : (s.put o).current k = s.current k :=
  Function.update_of_ne h _ _

theorem current_put (h : (s.put o).current k = some o') :
    k = key o ∧ o' = s.next o ∨ k ≠ key o ∧ s.current k = some o' := by
  by_cases hk : k = key o
  · subst hk
    rw [current_put_self] at h
    exact .inl ⟨rfl, (Option.some.inj h).symm⟩
  · rw [current_put_of_ne hk] at h
    exact .inr ⟨hk, h⟩

/-- What is stored has been written, and no two writes got the same version. -/
structure Coherent (s : Store ο κ) : Prop where
  key_eq : ∀ k o, s.current k = some o → key o = k
  mem : ∀ k o, s.current k = some o → o ∈ s.versions
  le : ∀ v ∈ s.versions, version v ≤ s.revision
  eq : ∀ v ∈ s.versions, ∀ v' ∈ s.versions, version v = version v' → v = v'

namespace Coherent

omit [DecidableEq κ] in
theorem empty : (Store.empty : Store ο κ).Coherent := by
  constructor <;> simp

theorem put (h : s.Coherent) : (s.put o).Coherent where
  key_eq k o' ho' := by
    rcases current_put ho' with ⟨rfl, rfl⟩ | ⟨-, hcurrent⟩
    · exact key_next
    · exact h.key_eq k o' hcurrent
  mem k o' ho' := by
    rcases current_put ho' with ⟨-, rfl⟩ | ⟨-, hcurrent⟩
    · exact List.mem_cons_self
    · exact List.mem_cons_of_mem _ (h.mem k o' hcurrent)
  le v hv := by
    rcases List.mem_cons.mp hv with rfl | hv
    · exact version_next.le
    · exact (h.le v hv).trans (Nat.le_succ _)
  eq v hv v' hv' heq := by
    have hlt : ∀ u ∈ s.versions, version u < version (s.next o) := by
      intro u hu
      have hle := h.le u hu
      simp only [version_next]
      omega
    rcases List.mem_cons.mp hv with rfl | hv <;> rcases List.mem_cons.mp hv' with rfl | hv'
    · rfl
    · exact absurd heq (hlt v' hv').ne'
    · exact absurd heq (hlt v hv).ne
    · exact h.eq v hv v' hv' heq

theorem remove (h : s.Coherent) : (s.remove k).Coherent where
  key_eq k' o ho := h.key_eq k' o (current_remove ho)
  mem k' o ho := h.mem k' o (current_remove ho)
  le := h.le
  eq := h.eq

omit [DecidableEq κ] in
/-- A writer that names the version of what it has read replaces what it has read. -/
theorem eq_of_version (h : s.Coherent) (hcurrent : s.current k = some o) (hv : v ∈ s.versions)
    (hversion : version o = version v) : o = v :=
  h.eq o (h.mem k o hcurrent) v hv hversion

end Coherent

end Store

end ClusterState.Concurrency
