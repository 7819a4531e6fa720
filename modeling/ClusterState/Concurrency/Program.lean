import Mathlib

/-! # Programs that act only through requests

A program is a tree: it returns, raises, stops for good, or asks its
surroundings one question and goes on from the answer. Nothing happens between
two questions, so a system of such programs interleaves at the questions.
A loop of a source program is unrolled a finite number of times and then
`halt`s: every finite prefix of a run is a run of a long enough unrolling, and
a halted program behaves like a crashed one.
-/

namespace ClusterState.Concurrency

universe u v w

inductive Program (Req : Type u) (Resp : Req → Type v) (ε α : Type w) where
  | done (a : α)
  | raise (e : ε)
  | halt
  | ask (r : Req) (next : Resp r → Program Req Resp ε α)

namespace Program

variable {Req : Type u} {Resp : Req → Type v} {ε α β : Type w}

protected def bind : Program Req Resp ε α → (α → Program Req Resp ε β) → Program Req Resp ε β
  | done a, f => f a
  | raise e, _ => raise e
  | halt, _ => halt
  | ask r next, f => ask r (fun x => (next x).bind f)

protected def tryCatch : Program Req Resp ε α → (ε → Program Req Resp ε α) → Program Req Resp ε α
  | done a, _ => done a
  | raise e, handle => handle e
  | halt, _ => halt
  | ask r next, handle => ask r (fun x => (next x).tryCatch handle)

/-- Runs a program to its end and says how it ended. -/
def attempt : Program Req Resp ε α → Program Req Resp ε (Except ε α)
  | done a => done (.ok a)
  | raise e => done (.error e)
  | halt => halt
  | ask r next => ask r (fun x => (next x).attempt)

def outcome {ε' : Type w} : Program Req Resp ε α → Program Req Resp ε' (Except ε α)
  | done a => done (.ok a)
  | raise e => done (.error e)
  | halt => halt
  | ask r next => ask r (fun x => (next x).outcome)

def ofExcept : Except ε α → Program Req Resp ε α
  | .ok a => done a
  | .error e => raise e

instance : Monad (Program Req Resp ε) where
  pure := done
  bind := Program.bind

instance : MonadExceptOf ε (Program Req Resp ε) where
  throw := raise
  tryCatch := Program.tryCatch

def Only (quiet : Req → Prop) : Program Req Resp ε α → Prop
  | done _ => True
  | raise _ => True
  | halt => True
  | ask r next => quiet r ∧ ∀ x, (next x).Only quiet

def Issues (r : Req) : Program Req Resp ε α → Prop
  | done _ => False
  | raise _ => False
  | halt => False
  | ask r' next => r' = r ∨ ∃ x, (next x).Issues r

variable {quiet : Req → Prop}

theorem Only.of_issues {r : Req} {m : Program Req Resp ε α} (hm : m.Only quiet) (h : m.Issues r) :
    quiet r := by
  induction m with
  | done a => exact h.elim
  | raise e => exact h.elim
  | halt => exact h.elim
  | ask r' next ih =>
    rcases h with rfl | ⟨x, hx⟩
    · exact hm.1
    · exact ih x (hm.2 x) hx

theorem Issues.bind {r : Req} {m : Program Req Resp ε α} {f : α → Program Req Resp ε β}
    (h : m.Issues r) : (m >>= f).Issues r := by
  change (m.bind f).Issues r
  induction m with
  | done a => exact h.elim
  | raise e => exact h.elim
  | halt => exact h.elim
  | ask r' next ih =>
    rcases h with rfl | ⟨x, hx⟩
    · exact .inl rfl
    · exact .inr ⟨x, ih x hx⟩

theorem Issues.attempt {r : Req} {m : Program Req Resp ε α} (h : m.Issues r) :
    m.attempt.Issues r := by
  induction m with
  | done a => exact h.elim
  | raise e => exact h.elim
  | halt => exact h.elim
  | ask r' next ih =>
    rcases h with rfl | ⟨x, hx⟩
    · exact .inl rfl
    · exact .inr ⟨x, ih x hx⟩

theorem Only.mono {quiet' : Req → Prop} {m : Program Req Resp ε α} (hm : m.Only quiet)
    (h : ∀ r, quiet r → quiet' r) : m.Only quiet' := by
  induction m with
  | done a => trivial
  | raise e => trivial
  | halt => trivial
  | ask r next ih => exact ⟨h r hm.1, fun x => ih x (hm.2 x)⟩

theorem Only.bind {m : Program Req Resp ε α} {f : α → Program Req Resp ε β}
    (hm : m.Only quiet) (hf : ∀ a, (f a).Only quiet) : (m >>= f).Only quiet := by
  change (m.bind f).Only quiet
  induction m with
  | done a => exact hf a
  | raise e => trivial
  | halt => trivial
  | ask r next ih => exact ⟨hm.1, fun x => ih x (hm.2 x)⟩

theorem Only.attempt {m : Program Req Resp ε α} (hm : m.Only quiet) : m.attempt.Only quiet := by
  induction m with
  | done a => trivial
  | raise e => trivial
  | halt => trivial
  | ask r next ih => exact ⟨hm.1, fun x => ih x (hm.2 x)⟩

@[simp] theorem only_pure (a : α) : (pure a : Program Req Resp ε α).Only quiet := trivial

@[simp] theorem only_done (a : α) : (done a : Program Req Resp ε α).Only quiet := trivial

@[simp] theorem only_raise (e : ε) : (raise e : Program Req Resp ε α).Only quiet := trivial

@[simp] theorem only_throw (e : ε) : (throw e : Program Req Resp ε α).Only quiet := trivial

@[simp] theorem only_halt : (halt : Program Req Resp ε α).Only quiet := trivial

theorem attempt_bind_ofExcept (m : Program Req Resp ε α) : m.attempt >>= ofExcept = m := by
  change m.attempt.bind ofExcept = m
  induction m with
  | done a => rfl
  | raise e => rfl
  | halt => rfl
  | ask r next ih => exact congrArg (ask r) (funext ih)

/-! ## Carrying requests out by programs -/

section Interp

variable {Req' : Type u} {Resp' : Req' → Type v} {Resp : Req → Type w} {ε α β : Type w}
  (impl : (r : Req) → Program Req' Resp' ε (Resp r))

/-- The program in which every request is a program of finer requests. -/
def interp : Program Req Resp ε α → Program Req' Resp' ε α
  | done a => done a
  | raise e => raise e
  | halt => halt
  | ask r next => (impl r).bind fun x => (next x).interp

variable {impl}

theorem bind_bind {γ : Type w} (m : Program Req' Resp' ε γ) (f : γ → Program Req' Resp' ε α)
    (g : α → Program Req' Resp' ε β) : (m.bind f).bind g = m.bind fun x => (f x).bind g := by
  induction m with
  | done a => rfl
  | raise e => rfl
  | halt => rfl
  | ask r next ih => exact congrArg (ask r) (funext ih)

theorem interp_bind (m : Program Req Resp ε α) (f : α → Program Req Resp ε β) :
    (m >>= f).interp impl = m.interp impl >>= fun a => (f a).interp impl := by
  change (m.bind f).interp impl = (m.interp impl).bind fun a => (f a).interp impl
  induction m with
  | done a => rfl
  | raise e => rfl
  | halt => rfl
  | ask r next ih =>
    change (impl r).bind _ = ((impl r).bind _).bind _
    rw [bind_bind]
    exact congrArg (impl r).bind (funext ih)

def Returns {γ : Type w} : Program Req' Resp' ε γ → Prop
  | done _ => True
  | raise _ => False
  | halt => True
  | ask _ next => ∀ x, (next x).Returns

theorem Returns.bind {γ : Type w} {m : Program Req' Resp' ε γ} {f : γ → Program Req' Resp' ε α}
    (hm : m.Returns) (hf : ∀ a, (f a).Returns) : (m >>= f).Returns := by
  change (m.bind f).Returns
  induction m with
  | done a => exact hf a
  | raise e => exact hm.elim
  | halt => trivial
  | ask r next ih => exact fun x => ih x (hm x)

theorem Returns.bind_attempt {γ : Type w} {m : Program Req' Resp' ε γ}
    {f : γ → Program Req' Resp' ε α} (hm : m.Returns) :
    m.bind (fun a => (f a).attempt) = (m.bind f).attempt := by
  induction m with
  | done a => rfl
  | raise e => exact hm.elim
  | halt => rfl
  | ask r next ih => exact congrArg (ask r) (funext fun x => ih x (hm x))

theorem interp_attempt (himpl : ∀ r, (impl r).Returns) (m : Program Req Resp ε α) :
    m.attempt.interp impl = (m.interp impl).attempt := by
  induction m with
  | done a => rfl
  | raise e => rfl
  | halt => rfl
  | ask r next ih =>
    rw [interp, ← (himpl r).bind_attempt]
    exact congrArg (impl r).bind (funext ih)

end Interp

end Program

end ClusterState.Concurrency
