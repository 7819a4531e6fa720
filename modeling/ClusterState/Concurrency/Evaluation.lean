import ClusterState.Concurrency.Program

/-! # Running one program alone

When nothing else acts, a program runs from the answers of its surroundings to an
outcome: it returns, it raises, or it never comes to an end because it halts or
because a request is never answered.
-/

namespace ClusterState.Concurrency.Program

universe u v w x

variable {Req : Type u} {Resp : Req → Type v} {ε α β : Type w} {S : Type x}

/-- The outcome, `none` if there is none, and the state the program leaves. -/
def eval (respond : (r : Req) → S → Option (Resp r × S)) :
    Program Req Resp ε α → S → Option (Except ε α) × S
  | done a, s => (some (.ok a), s)
  | raise e, s => (some (.error e), s)
  | halt, s => (none, s)
  | ask r next, s =>
    match respond r s with
    | some (y, s') => (next y).eval respond s'
    | none => (none, s)

variable {respond : (r : Req) → S → Option (Resp r × S)}

@[simp] theorem eval_pure (a : α) (s : S) :
    (pure a : Program Req Resp ε α).eval respond s = (some (.ok a), s) := rfl

@[simp] theorem eval_done (a : α) (s : S) :
    (done a : Program Req Resp ε α).eval respond s = (some (.ok a), s) := rfl

@[simp] theorem eval_throw (e : ε) (s : S) :
    (throw e : Program Req Resp ε α).eval respond s = (some (.error e), s) := rfl

theorem eval_ask {r : Req} {next : Resp r → Program Req Resp ε α} {s s' : S} {y : Resp r}
    (h : respond r s = some (y, s')) :
    (ask r next).eval respond s = (next y).eval respond s' := by
  rw [eval, h]

theorem eval_bind (m : Program Req Resp ε α) (f : α → Program Req Resp ε β) (s : S) :
    (m >>= f).eval respond s = match m.eval respond s with
      | (some (.ok a), s') => (f a).eval respond s'
      | (some (.error e), s') => (some (.error e), s')
      | (none, s') => (none, s') := by
  change (m.bind f).eval respond s = _
  induction m generalizing s with
  | done a => rfl
  | raise e => rfl
  | halt => rfl
  | ask r next ih =>
    cases hr : respond r s with
    | none => simp only [Program.bind, eval, hr]
    | some p =>
      obtain ⟨y, s'⟩ := p
      simp only [Program.bind, eval, hr]
      exact ih y s'

theorem eval_attempt (m : Program Req Resp ε α) (s : S) :
    m.attempt.eval respond s =
      ((m.eval respond s).1.map Except.ok, (m.eval respond s).2) := by
  induction m generalizing s with
  | done a => rfl
  | raise e => rfl
  | halt => rfl
  | ask r next ih =>
    cases hr : respond r s with
    | none => simp only [attempt, eval, hr, Option.map_none]
    | some p =>
      obtain ⟨y, s'⟩ := p
      simp only [attempt, eval, hr]
      exact ih y s'

theorem eval_outcome {ε' : Type w} (m : Program Req Resp ε α) (s : S) :
    (m.outcome : Program Req Resp ε' (Except ε α)).eval respond s =
      ((m.eval respond s).1.map Except.ok, (m.eval respond s).2) := by
  induction m generalizing s with
  | done a => rfl
  | raise e => rfl
  | halt => rfl
  | ask r next ih =>
    cases hr : respond r s with
    | none => simp only [outcome, eval, hr, Option.map_none]
    | some p =>
      obtain ⟨y, s'⟩ := p
      simp only [outcome, eval, hr]
      exact ih y s'

theorem eval_bind_ok {m : Program Req Resp ε α} {f : α → Program Req Resp ε β} {s s' : S} {a : α}
    (h : m.eval respond s = (some (.ok a), s')) :
    (m >>= f).eval respond s = (f a).eval respond s' := by
  rw [eval_bind, h]

theorem eval_bind_error {m : Program Req Resp ε α} {f : α → Program Req Resp ε β} {s s' : S}
    {e : ε} (h : m.eval respond s = (some (.error e), s')) :
    (m >>= f).eval respond s = (some (.error e), s') := by
  rw [eval_bind, h]

theorem eval_keeps {R : S → Prop} {quiet : Req → Prop}
    (hR : ∀ r y s s', quiet r → respond r s = some (y, s') → R s → R s')
    {m : Program Req Resp ε α} (hm : m.Only quiet) {s : S} (hs : R s) :
    R (m.eval respond s).2 := by
  induction m generalizing s with
  | done a => exact hs
  | raise e => exact hs
  | halt => exact hs
  | ask r next ih =>
    cases hr : respond r s with
    | none =>
      rw [eval, hr]
      exact hs
    | some p =>
      obtain ⟨y, s'⟩ := p
      rw [eval_ask hr]
      exact ih y (hm.2 y) (hR r y s s' hm.1 hr hs)

theorem eval_preserves {R : S → Prop} (hR : ∀ r y s s', respond r s = some (y, s') → R s → R s')
    (m : Program Req Resp ε α) {s : S} (hs : R s) : R (m.eval respond s).2 := by
  have honly : m.Only fun _ => True := by
    induction m with
    | ask r next ih => exact ⟨trivial, ih⟩
    | _ => trivial
  exact eval_keeps (fun r y s s' _ => hR r y s s') honly hs

/-- The same surroundings, which note down what they answer. -/
def logging (respond : (r : Req) → S → Option (Resp r × S)) (r : Req) :
    S × List Req → Option (Resp r × S × List Req)
  | (s, log) => (respond r s).map fun answer => (answer.1, answer.2, r :: log)

theorem eval_logging (m : Program Req Resp ε α) (s : S) (log : List Req) :
    ∃ log', m.eval (logging respond) (s, log) = ((m.eval respond s).1, (m.eval respond s).2, log') := by
  induction m generalizing s log with
  | done a => exact ⟨log, rfl⟩
  | raise e => exact ⟨log, rfl⟩
  | halt => exact ⟨log, rfl⟩
  | ask r next ih =>
    simp only [eval, logging]
    cases respond r s with
    | none => exact ⟨log, rfl⟩
    | some answer => exact ih answer.1 answer.2 (r :: log)

end ClusterState.Concurrency.Program

/-! ## Surroundings that fail -/

namespace ClusterState.Concurrency

universe u

/-- A call that fails, and whether a change was made nevertheless. -/
structure FailedCall (ε : Type u) where
  made : Bool
  error : ε

/-- Which calls fail. They are numbered. -/
structure Failures (ε : Type u) where
  failure : Nat → Option (FailedCall ε)

def Failures.calm {ε : Type u} : Failures ε := ⟨fun _ => none⟩

@[simp] theorem Failures.failure_calm {ε : Type u} (n : Nat) :
    (Failures.calm : Failures ε).failure n = none := rfl

end ClusterState.Concurrency
