import ClusterState.Concurrency.Alone

/-! # How a run ends

A program is a well-founded tree, so no run of a single one goes on for ever. Where
every request finds an answer, a run ends with a program that has returned or raised,
unless it has stopped for good.
-/

namespace ClusterState.Concurrency

open Relation

universe u v w

namespace Program

variable {Req : Type u} {Resp : Req → Type v} {ε α β : Type w}

/-- The program makes only such requests, and returns or raises however they are answered. -/
def Orderly (allowed : Req → Prop) : Program Req Resp ε α → Prop
  | done _ => True
  | raise _ => True
  | halt => False
  | ask r next => allowed r ∧ ∀ x, (next x).Orderly allowed

variable {allowed : Req → Prop}

theorem Orderly.bind {m : Program Req Resp ε α} {f : α → Program Req Resp ε β}
    (hm : m.Orderly allowed) (hf : ∀ a, (f a).Orderly allowed) : (m >>= f).Orderly allowed := by
  change (m.bind f).Orderly allowed
  induction m with
  | done a => exact hf a
  | raise e => trivial
  | halt => exact hm.elim
  | ask r next ih => exact ⟨hm.1, fun x => ih x (hm.2 x)⟩

theorem Orderly.tryCatch {m : Program Req Resp ε α} {handle : ε → Program Req Resp ε α}
    (hm : m.Orderly allowed) (hhandle : ∀ e, (handle e).Orderly allowed) :
    (MonadExcept.tryCatch m handle).Orderly allowed := by
  change (m.tryCatch handle).Orderly allowed
  induction m with
  | done a => trivial
  | raise e => exact hhandle e
  | halt => exact hm.elim
  | ask r next ih => exact ⟨hm.1, fun x => ih x (hm.2 x)⟩

theorem Orderly.mono {allowed' : Req → Prop} {m : Program Req Resp ε α} (hm : m.Orderly allowed)
    (h : ∀ r, allowed r → allowed' r) : m.Orderly allowed' := by
  induction m with
  | done a => trivial
  | raise e => trivial
  | halt => exact hm.elim
  | ask r next ih => exact ⟨h r hm.1, fun x => ih x (hm.2 x)⟩

end Program

section Runs

variable {Req : Type u} {Resp : Req → Type v} {ε α S : Type w} {M : System PUnit.{u + 1} Req Resp S}
  {c c' : Config PUnit.{u + 1} Req Resp ε α S}

variable (M) in
/-- No request is left without an answer. -/
def System.Answers : Prop := ∀ i r s, ∃ x s', M.performs i r s x s'

variable (M) in
def System.Ended (c : Config PUnit.{u + 1} Req Resp ε α S) : Prop := ∀ c', ¬M.Step c c'

theorem System.Step.procs_cases (h : M.Step c c') :
    (∃ r next x, c.procs ⟨⟩ = .ask r next ∧ c'.procs ⟨⟩ = next x) ∨
      M.env c.shared c'.shared ∧ c'.procs = c.procs := by
  cases h with
  | act i r next x s' hask hperforms =>
    exact .inl ⟨r, next, x, hask, by simp [Config.resume]⟩
  | env s' henv => exact .inr ⟨henv, rfl⟩

theorem System.Reaches.orderly {allowed : Req → Prop} (h : M.Reaches c c')
    (hc : (c.procs ⟨⟩).Orderly allowed) : (c'.procs ⟨⟩).Orderly allowed := by
  induction h with
  | refl => exact hc
  | tail _ hstep ih =>
    rcases hstep.procs_cases with ⟨r, next, x, hask, hnext⟩ | ⟨-, hsame⟩
    · rw [hask] at ih
      rw [hnext]
      exact ih.2 x
    · rw [hsame]
      exact ih

theorem System.Ended.cases {allowed : Req → Prop} (h : M.Ended c) (hanswers : M.Answers)
    (hc : (c.procs ⟨⟩).Orderly allowed) : (∃ a, c.procs ⟨⟩ = .done a) ∨ ∃ e, c.procs ⟨⟩ = .raise e := by
  cases hm : c.procs ⟨⟩ with
  | done a => exact .inl ⟨a, rfl⟩
  | raise e => exact .inr ⟨e, rfl⟩
  | halt =>
    rw [hm] at hc
    exact hc.elim
  | ask r next =>
    obtain ⟨x, s', hperforms⟩ := hanswers ⟨⟩ r c.shared
    exact (h _ (.act c ⟨⟩ r next x s' hm hperforms)).elim

end Runs

end ClusterState.Concurrency
