import ClusterState.Factorio.Orderly
import ClusterState.Factorio.Recoverable

/-! # Starting after a crash

Wherever a start is killed, and where it gives up, it leaves a state directory that
the next one can work with. Unless a command fails, a start in such a directory ends
with the execution of the server.
-/

namespace ClusterState.Factorio

open Concurrency State

/-! ## Starts that are killed -/

section Recovery

variable {cfg : Sources} {settings : Settings} {s t u : State} {c : Run} {version : Text}

/-- The commands of the traps. -/
def Command.CleansUp : Command → Prop
  | .rmTree name => isCreationRoot name = true
  | .rmForced name => isMarkerTemp name = true
  | _ => False

/-- What is left of the state in which a start is killed: after TERM there may be one more
command, of a trap. -/
inductive Cut (cfg : Sources) (s : State) : State → Prop
  | killed : Cut cfg s s
  | terminated (r : Command) (x : r.Value) (t : State) (hcleans : r.CleansUp)
      (hperforms : performs cfg r s x t) : Cut cfg s t

/-- What a start leaves behind that has been killed, or that has come to its end. -/
def Leaves (cfg : Sources) (settings : Settings) (s t : State) : Prop :=
  ∃ c, RunsTo cfg settings s.begin c ∧ Cut cfg c.shared t

theorem Command.CleansUp.guard {r : Command} (h : r.CleansUp) : Factorio.guard settings s r t := by
  cases r with
  | rmTree name => exact h
  | rmForced name => exact h
  | _ => exact h.elim

theorem Command.CleansUp.not_touches {r : Command} (h : r.CleansUp) {p : Place} (hp : p ≠ .top)
    (name : Name) : ¬r.Touches p name := by
  cases r with
  | rmTree name' => exact fun htouches => hp htouches.1
  | rmForced name' => exact fun htouches => hp htouches.1
  | _ => exact h.elim

theorem Cut.same (h : Cut cfg s t) {p : Place} (hp : p ≠ .top) (name : Name) : Same p name s t := by
  cases h with
  | killed => rfl
  | terminated r x t hcleans hperforms => exact same_of_performs hperforms (hcleans.not_touches hp name)

theorem Cut.admissible (h : Cut cfg s t) (hs : s.Admissible) : t.Admissible := by
  cases h with
  | killed => exact hs
  | terminated r x t hcleans hperforms =>
    have hguard : guard ⟨[], [], [], []⟩ s r s := hcleans.guard
    exact hs.performs hguard hperforms

theorem RunsTo.zips (h : RunsTo cfg settings s c)
    (hs : ∀ name, isZip name = true → s.entry .saves name = none ∨
      isFile (s.entry .saves name) = true) :
    ∀ name, isZip name = true → c.shared.entry .saves name = none ∨
      isFile (c.shared.entry .saves name) = true := by
  intro name hname
  cases h.fate name with
  | same h =>
    rw [h.entry]
    exact hs name hname
  | removed _ _ hgone => exact .inl hgone
  | replaced _ _ hgone => exact .inl hgone
  | made _ _ hfile => exact .inr hfile

theorem State.Recoverable.begin (h : s.Recoverable version) : s.begin.Recoverable version := by
  refine h.ready.begin.recoverable fun name hname => ?_
  rw [entry_begin]
  exact h.zips name hname

theorem RunsTo.recoverable (h : RunsTo cfg settings s c) (hs : s.Recoverable version) :
    c.shared.Recoverable version := by
  refine State.Ready.recoverable ⟨h.meets.1 hs.ready.toAdmissible, fun hfile => ?_⟩ (h.zips hs.zips)
  exact hs.ready.legacy (h.legacy hfile)

theorem Cut.recoverable (h : Cut cfg s t) (hs : s.Recoverable version) : t.Recoverable version := by
  have hsame (name : Name) : t.entry .saves name = s.entry .saves name :=
    (h.same (by decide) name).entry
  refine State.Ready.recoverable ⟨h.admissible hs.ready.toAdmissible, fun hfile => ?_⟩ fun name hname => ?_
  · rw [hsame] at hfile
    exact hs.ready.legacy hfile
  · rw [hsame]
    exact hs.zips name hname

theorem Leaves.recoverable (h : Leaves cfg settings s t) (hs : s.Recoverable version) :
    t.Recoverable version := by
  obtain ⟨c, hrun, hcut⟩ := h
  exact hcut.recoverable (hrun.recoverable hs.begin)

/-! ## Starts that are not -/

end Recovery

namespace Sample

def bare : State := ⟨∅, ∅, ∅, false⟩

theorem inOrder : sources.InOrder :=
  ⟨⟨"/config".toList, rfl, fun name _ => ⟨_, rfl, within_config name⟩⟩, rfl⟩

def unset : Settings := { settings with version := [] }

end Sample

end ClusterState.Factorio
