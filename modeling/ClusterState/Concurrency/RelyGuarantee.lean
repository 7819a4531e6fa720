import ClusterState.Concurrency.Program

/-! # Interleaved programs and what they may rely on

Any number of programs share one state. A `System` says what a request may do
to the state and answer, and what may happen to the state on its own. A
`Discipline` adds an invariant and a guard for each request: a program that
issues requests only under their guards keeps the invariant, and may in turn
rely on everybody else doing so. `Meets` is the resulting notion of
correctness of one program; `Discipline.reachable` puts the programs together.
-/

namespace ClusterState.Concurrency

universe u v w

open Relation

structure System (Pid : Type u) (Req : Type u) (Resp : Req → Type v) (S : Type w) where
  /-- A request of a process, the state before, its answer and the state after. -/
  performs : Pid → (r : Req) → S → Resp r → S → Prop
  env : S → S → Prop

structure Discipline (Pid : Type u) (Req : Type u) (Resp : Req → Type v) (S : Type w) extends
    System Pid Req Resp S where
  inv : S → Prop
  guard : Pid → Req → S → Prop
  /-- Requests that a process may issue at any time, and whose effects it may
  treat like those of its surroundings. -/
  quiet : Pid → Req → Prop
  guard_of_quiet : ∀ i r s, quiet i r → guard i r s
  inv_performs : ∀ i r s x s', inv s → guard i r s → performs i r s x s' → inv s'
  inv_env : ∀ s s', inv s → env s s' → inv s'

/-- A configuration: what each process has left to do, and the shared state. -/
structure Config (Pid : Type u) (Req : Type u) (Resp : Req → Type v) (ε α : Type w)
    (S : Type w) where
  procs : Pid → Program Req Resp ε α
  shared : S

variable {Pid Req : Type u} {Resp : Req → Type v} {ε α β S : Type w}

section Runs

variable [DecidableEq Pid] (M : System Pid Req Resp S)

def Config.resume (c : Config Pid Req Resp ε α S) (i : Pid) (p : Program Req Resp ε α) (s : S) :
    Config Pid Req Resp ε α S :=
  ⟨Function.update c.procs i p, s⟩

inductive System.Step : Config Pid Req Resp ε α S → Config Pid Req Resp ε α S → Prop
  | act (c : Config Pid Req Resp ε α S) (i : Pid) (r : Req) (next : Resp r → Program Req Resp ε α)
      (x : Resp r) (s' : S) (hask : c.procs i = .ask r next)
      (hperforms : M.performs i r c.shared x s') : System.Step c (c.resume i (next x) s')
  | env (c : Config Pid Req Resp ε α S) (s' : S) (henv : M.env c.shared s') :
      System.Step c ⟨c.procs, s'⟩

def System.Reaches : Config Pid Req Resp ε α S → Config Pid Req Resp ε α S → Prop :=
  ReflTransGen M.Step

end Runs

def System.under (M : System Pid Req Resp S) (allowed : Pid → Req → S → Prop) :
    System Pid Req Resp S where
  performs i r s x s' := allowed i r s ∧ M.performs i r s x s'
  env := M.env

namespace Discipline

variable (D : Discipline Pid Req Resp S)

/-- One step of the surroundings of process `i`, its own quiet requests included. -/
def Interferes (i : Pid) (s s' : S) : Prop :=
  D.inv s ∧ (D.env s s' ∨
    ∃ j r x, (j ≠ i ∨ D.quiet j r) ∧ D.guard j r s ∧ D.performs j r s x s')

def Rely (i : Pid) : S → S → Prop := ReflTransGen (D.Interferes i)

def Stable (i : Pid) (P : S → Prop) : Prop := ∀ s s', D.Interferes i s s' → P s → P s'

variable {D} {i : Pid}

theorem Stable.rely {P : S → Prop} (h : D.Stable i P) {s s' : S} (hr : D.Rely i s s') (hs : P s) :
    P s' := by
  induction hr with
  | refl => exact hs
  | tail _ hstep ih => exact h _ _ hstep ih

theorem Stable.and {P Q : S → Prop} (hP : D.Stable i P) (hQ : D.Stable i Q) :
    D.Stable i (fun s => P s ∧ Q s) :=
  fun s s' h hs => ⟨hP s s' h hs.1, hQ s s' h hs.2⟩

theorem Stable.const {P : Prop} : D.Stable i (fun _ => P) := fun _ _ _ h => h

variable (D i)

/-- From state `s` on, and whatever the surroundings do in between, the program
issues every request under its guard; it can only return in a state satisfying
`Q` and only raise in one satisfying `E`. -/
def Meets (Q : α → S → Prop) (E : ε → S → Prop) : Program Req Resp ε α → S → Prop
  | .done a, s => Q a s
  | .raise e, s => E e s
  | .halt, _ => True
  | .ask r next, s => ∀ s', D.Rely i s s' → D.inv s' →
      D.guard i r s' ∧ ∀ x s'', D.performs i r s' x s'' → Meets Q E (next x) s''

variable {D i} {Q : α → S → Prop} {E : ε → S → Prop}

theorem Meets.bind {Q' : β → S → Prop} {m : Program Req Resp ε α} {f : α → Program Req Resp ε β}
    {s : S} (hm : D.Meets i Q E m s) (hf : ∀ a s, Q a s → D.Meets i Q' E (f a) s) :
    D.Meets i Q' E (m >>= f) s := by
  change D.Meets i Q' E (m.bind f) s
  induction m generalizing s with
  | done a => exact hf a s hm
  | raise e => exact hm
  | halt => trivial
  | ask r next ih =>
    intro s' hr hinv
    obtain ⟨hguard, hnext⟩ := hm s' hr hinv
    exact ⟨hguard, fun x s'' hp => ih x (hnext x s'' hp)⟩

theorem Meets.tryCatch {F : ε → S → Prop} {m : Program Req Resp ε α}
    {handle : ε → Program Req Resp ε α} {s : S} (hm : D.Meets i Q F m s)
    (hh : ∀ e s, F e s → D.Meets i Q E (handle e) s) :
    D.Meets i Q E (tryCatchThe ε m handle) s := by
  change D.Meets i Q E (m.tryCatch handle) s
  induction m generalizing s with
  | done a => exact hm
  | raise e => exact hh e s hm
  | halt => trivial
  | ask r next ih =>
    intro s' hr hinv
    obtain ⟨hguard, hnext⟩ := hm s' hr hinv
    exact ⟨hguard, fun x s'' hp => ih x (hnext x s'' hp)⟩

theorem Meets.attempt {F : ε → S → Prop} {m : Program Req Resp ε α} {s : S}
    (hm : D.Meets i Q F m s) :
    D.Meets i (fun r s => (∃ a, r = .ok a ∧ Q a s) ∨ ∃ e, r = .error e ∧ F e s) E m.attempt s := by
  induction m generalizing s with
  | done a => exact .inl ⟨a, rfl, hm⟩
  | raise e => exact .inr ⟨e, rfl, hm⟩
  | halt => trivial
  | ask r next ih =>
    intro s' hr hinv
    obtain ⟨hguard, hnext⟩ := hm s' hr hinv
    exact ⟨hguard, fun x s'' hp => ih x (hnext x s'' hp)⟩

theorem Meets.outcome {ε' : Type w} {E' : ε' → S → Prop} {m : Program Req Resp ε α} {s : S}
    (hm : D.Meets i Q E m s) :
    D.Meets i (fun r s => (∃ a, r = .ok a ∧ Q a s) ∨ ∃ e, r = .error e ∧ E e s) E' m.outcome s := by
  induction m generalizing s with
  | done a => exact .inl ⟨a, rfl, hm⟩
  | raise e => exact .inr ⟨e, rfl, hm⟩
  | halt => trivial
  | ask r next ih =>
    intro s' hr hinv
    obtain ⟨hguard, hnext⟩ := hm s' hr hinv
    exact ⟨hguard, fun x s'' hp => ih x (hnext x s'' hp)⟩

theorem Meets.mono {Q' : α → S → Prop} {E' : ε → S → Prop} {m : Program Req Resp ε α} {s : S}
    (hm : D.Meets i Q E m s) (hQ : ∀ a s, Q a s → Q' a s) (hE : ∀ e s, E e s → E' e s) :
    D.Meets i Q' E' m s := by
  induction m generalizing s with
  | done a => exact hQ a s hm
  | raise e => exact hE e s hm
  | halt => trivial
  | ask r next ih =>
    intro s' hr hinv
    obtain ⟨hguard, hnext⟩ := hm s' hr hinv
    exact ⟨hguard, fun x s'' hp => ih x (hnext x s'' hp)⟩

theorem Meets.pure {a : α} {s : S} (h : Q a s) : D.Meets i Q E (Pure.pure a) s := h

theorem Meets.throw {e : ε} {s : S} (h : E e s) : D.Meets i Q E (MonadExcept.throw e) s := h

/-- A program of quiet requests keeps whatever is stable. -/
theorem Meets.of_only {P : S → Prop} (hP : D.Stable i P) {m : Program Req Resp ε α}
    (hm : m.Only (D.quiet i)) {s : S} (hs : P s) :
    D.Meets i (fun _ => P) (fun _ => P) m s := by
  induction m generalizing s with
  | done a => exact hs
  | raise e => exact hs
  | halt => trivial
  | ask r next ih =>
    intro s' hr hinv
    have hguard := D.guard_of_quiet i r s' hm.1
    refine ⟨hguard, fun x s'' hp => ih x (hm.2 x) ?_⟩
    exact hP s' s'' ⟨hinv, .inr ⟨i, r, x, .inr hm.1, hguard, hp⟩⟩ (hP.rely hr hs)

theorem Meets.only_bind {P : S → Prop} {Q' : β → S → Prop} (hP : D.Stable i P)
    {m : Program Req Resp ε α} {f : α → Program Req Resp ε β} (hm : m.Only (D.quiet i)) {s : S}
    (hs : P s) (hE : ∀ e s, P s → E e s) (hf : ∀ a s, P s → D.Meets i Q' E (f a) s) :
    D.Meets i Q' E (m >>= f) s :=
  ((Meets.of_only hP hm hs).mono (fun _ _ h => h) hE).bind hf

theorem Meets.of_permitted {m : Program Req Resp ε α} (hm : m.Only fun r => ∀ s, D.guard i r s)
    {s : S} : D.Meets i (fun _ _ => True) (fun _ _ => True) m s := by
  induction m generalizing s with
  | done a => trivial
  | raise e => trivial
  | halt => trivial
  | ask r next ih => exact fun s' _ _ => ⟨hm.1 s', fun x _ _ => ih x (hm.2 x)⟩

/-- What a program will do is not disturbed by its surroundings once its
postconditions are trivial. -/
theorem Meets.rely {m : Program Req Resp ε α} {s s' : S}
    (hm : D.Meets i (fun _ _ => True) (fun _ _ => True) m s) (hr : D.Rely i s s') :
    D.Meets i (fun _ _ => True) (fun _ _ => True) m s' := by
  cases m with
  | done a => trivial
  | raise e => trivial
  | halt => trivial
  | ask r next => exact fun t ht hinv => hm t (hr.trans ht) hinv

section Reachability

variable [DecidableEq Pid] (D)

/-- Every process is correct from here on, and the invariant holds. -/
def Sound (c : Config Pid Req Resp ε α S) : Prop :=
  D.inv c.shared ∧
    ∀ i, D.Meets i (fun _ _ => True) (fun _ _ => True) (c.procs i) c.shared

variable {D}

omit [DecidableEq Pid] in
theorem Sound.guard {c : Config Pid Req Resp ε α S} (h : D.Sound c) {i : Pid} {r : Req}
    {next : Resp r → Program Req Resp ε α} (hask : c.procs i = .ask r next) :
    D.guard i r c.shared := by
  have hm := h.2 i
  rw [hask] at hm
  exact (hm c.shared .refl h.1).1

theorem Sound.step {c c' : Config Pid Req Resp ε α S} (h : D.Sound c)
    (hstep : D.toSystem.Step c c') : D.Sound c' := by
  cases hstep with
  | act i r next x s' hask hperforms =>
    have hguard := h.guard hask
    refine ⟨D.inv_performs i r _ x s' h.1 hguard hperforms, fun j => ?_⟩
    by_cases hj : j = i
    · subst hj
      have hm := h.2 j
      rw [hask] at hm
      simpa [Config.resume] using (hm c.shared .refl h.1).2 x s' hperforms
    · have hrely : D.Rely j c.shared s' :=
        .single ⟨h.1, .inr ⟨i, r, x, .inl (Ne.symm hj), hguard, hperforms⟩⟩
      simpa [Config.resume, hj] using (h.2 j).rely hrely
  | env s' henv =>
    exact ⟨D.inv_env _ s' h.1 henv, fun j => (h.2 j).rely (.single ⟨h.1, .inl henv⟩)⟩

theorem Sound.reaches {c c' : Config Pid Req Resp ε α S} (h : D.Sound c)
    (hr : D.toSystem.Reaches c c') : D.Sound c' := by
  induction hr with
  | refl => exact h
  | tail _ hstep ih => exact ih.step hstep

/-- What guarded requests and the surroundings keep is kept by every run. -/
theorem Sound.keeps {R : S → Prop}
    (hperforms : ∀ i r s x s', D.guard i r s → D.performs i r s x s' → R s → R s')
    (henv : ∀ s s', D.env s s' → R s → R s') {c c' : Config Pid Req Resp ε α S} (h : D.Sound c)
    (hR : R c.shared) (hr : D.toSystem.Reaches c c') : R c'.shared := by
  induction hr with
  | refl => exact hR
  | tail hr hstep ih =>
    cases hstep with
    | act i r next x s' hask hstep =>
      exact hperforms i r _ x s' ((h.reaches hr).guard hask) hstep ih
    | env s' hstep => exact henv _ s' hstep ih

end Reachability

end Discipline

end ClusterState.Concurrency
