import ClusterState.Concurrency.RelyGuarantee

/-! # Computing runs

A schedule says which process goes on for how many requests, what it is
answered, and when something happens to the state on its own. A `Responder`
carries a schedule out, and whatever a schedule leads to is reached by a run.
-/

namespace ClusterState.Concurrency

universe u v w

structure Responder {Pid Req : Type u} {Resp : Req → Type v} {S : Type w}
    (M : System Pid Req Resp S) (Reply Happening : Type*) where
  respond : Pid → (r : Req) → S → Reply → Option (Resp r × S)
  happen : Happening → S → Option S
  performs_of_respond : ∀ {i r s y x s'}, respond i r s y = some (x, s') → M.performs i r s x s'
  env_of_happen : ∀ {e s s'}, happen e s = some s' → M.env s s'

inductive Turn (Pid Reply Happening : Type*) where
  | act (i : Pid) (replies : List Reply)
  | happens (e : Happening)

namespace Responder

variable {Pid Req : Type u} {Resp : Req → Type v} {ε α S : Type w} {M : System Pid Req Resp S}
  {Reply Happening : Type*}

def under (R : Responder M Reply Happening) (allowed : Pid → Req → S → Prop)
    [∀ i r s, Decidable (allowed i r s)] : Responder (M.under allowed) Reply Happening where
  respond i r s y := if allowed i r s then R.respond i r s y else none
  happen := R.happen
  performs_of_respond := by
    intro i r s y x s' h
    split at h
    · rename_i hallowed
      exact ⟨hallowed, R.performs_of_respond h⟩
    · cases h
  env_of_happen h := R.env_of_happen h

variable (R : Responder M Reply Happening)

/-- A process goes on for as many requests as there are replies. -/
def feed (i : Pid) :
    Program Req Resp ε α → S → List Reply → Option (Program Req Resp ε α × S)
  | p, s, [] => some (p, s)
  | .ask r next, s, y :: rest =>
    match R.respond i r s y with
    | some (x, s') => feed i (next x) s' rest
    | none => none
  | _, _, _ :: _ => none

variable [DecidableEq Pid]

def execute : List (Turn Pid Reply Happening) → Config Pid Req Resp ε α S →
    Option (Config Pid Req Resp ε α S)
  | [], c => some c
  | .act i replies :: rest, c =>
    match R.feed i (c.procs i) c.shared replies with
    | some (p, s) => execute rest (c.resume i p s)
    | none => none
  | .happens e :: rest, c =>
    match R.happen e c.shared with
    | some s => execute rest ⟨c.procs, s⟩
    | none => none

variable {R}

theorem feed_reaches {i : Pid} {replies : List Reply} {c : Config Pid Req Resp ε α S}
    {p : Program Req Resp ε α} {s : S} (h : R.feed i (c.procs i) c.shared replies = some (p, s)) :
    M.Reaches c (c.resume i p s) := by
  induction replies generalizing c with
  | nil =>
    simp only [feed, Option.some.injEq, Prod.mk.injEq] at h
    obtain ⟨rfl, rfl⟩ := h
    have hsame : c.resume i (c.procs i) c.shared = c := by
      simp [Config.resume]
    rw [hsame]
    exact .refl
  | cons y rest ih =>
    cases hp : c.procs i with
    | ask r next =>
      rw [hp, feed] at h
      split at h
      · rename_i x s₁ hrespond
        have hstep : M.Step c (c.resume i (next x) s₁) :=
          .act c i r next x s₁ hp (R.performs_of_respond hrespond)
        have hrest := ih (c := c.resume i (next x) s₁) (by simpa [Config.resume] using h)
        have hidem : (c.resume i (next x) s₁).resume i p s = c.resume i p s := by
          simp [Config.resume]
        rw [hidem] at hrest
        exact .head hstep hrest
      · cases h
    | done a => rw [hp] at h; cases h
    | raise e => rw [hp] at h; cases h
    | halt => rw [hp] at h; cases h

theorem execute_reaches {turns : List (Turn Pid Reply Happening)} {c c' : Config Pid Req Resp ε α S}
    (h : R.execute turns c = some c') : M.Reaches c c' := by
  induction turns generalizing c with
  | nil =>
    cases h
    exact .refl
  | cons turn rest ih =>
    cases turn with
    | act i replies =>
      rw [execute] at h
      split at h
      · rename_i p s hfeed
        exact (feed_reaches hfeed).trans (ih h)
      · cases h
    | happens e =>
      rw [execute] at h
      split at h
      · rename_i s hhappen
        exact .head (.env c s (R.env_of_happen hhappen)) (ih h)
      · cases h

/-- A schedule whose outcome passes a check shows a run that does. -/
theorem exists_reaches {turns : List (Turn Pid Reply Happening)} {c : Config Pid Req Resp ε α S}
    {check : Config Pid Req Resp ε α S → Bool} (h : (R.execute turns c).any check = true) :
    ∃ c', M.Reaches c c' ∧ check c' = true := by
  obtain ⟨c', hrun, hcheck⟩ := (Option.any_eq_true _ _).mp h
  exact ⟨c', execute_reaches hrun, hcheck⟩

end Responder

end ClusterState.Concurrency
