import ClusterState.Concurrency.Alone

/-! # What a program has asked

A log holds the requests of one program with their answers, latest first. It is
written and never read by the program, so that every run has one.
-/

namespace ClusterState.Concurrency

open Relation

universe w

structure Logged (Req : Type w) (Resp : Req → Type w) (S : Type w) where
  site : S
  log : List ((r : Req) × Resp r)

variable {Req : Type w} {Resp : Req → Type w} {ε α S : Type w}

def Logged.performs (performs : (r : Req) → S → Resp r → S → Prop) (r : Req)
    (σ : Logged Req Resp S) (x : Resp r) (σ' : Logged Req Resp S) : Prop :=
  performs r σ.site x σ'.site ∧ σ'.log = ⟨r, x⟩ :: σ.log

namespace System

def alone (performs : (r : Req) → S → Resp r → S → Prop) : System PUnit.{w + 1} Req Resp S where
  performs _ := performs
  env _ _ := False

variable {performs : (r : Req) → S → Resp r → S → Prop}

/-- Whatever a program does alone it does under a log. -/
theorem Reaches.logged {m : Program Req Resp ε α} {s : S}
    {c : Config PUnit.{w + 1} Req Resp ε α S} (hr : (alone performs).Reaches ⟨fun _ => m, s⟩ c) :
    ∃ log, (alone (Logged.performs performs)).Reaches ⟨fun _ => m, ⟨s, []⟩⟩
      ⟨c.procs, ⟨c.shared, log⟩⟩ := by
  induction hr with
  | refl => exact ⟨[], .refl⟩
  | @tail c c' _ hstep ih =>
    obtain ⟨log, hlog⟩ := ih
    cases hstep with
    | act i r next x s' hask hperforms =>
      have hwritten : Logged.performs performs r ⟨c.shared, log⟩ x ⟨s', ⟨r, x⟩ :: log⟩ :=
        ⟨hperforms, rfl⟩
      exact ⟨⟨r, x⟩ :: log, hlog.tail (.act _ i r next x _ hask hwritten)⟩
    | env s' henv => exact henv.elim

end System

end ClusterState.Concurrency
