import ClusterState.Concurrency.Logging

/-! # Programs that heed what they are told

A guard says of every request after which answers it may be made. A program that heeds
it does so whatever it is told.
-/

namespace ClusterState.Concurrency

universe w

/-- Requests with their answers, latest first. -/
abbrev Answers (Req : Type w) (Resp : Req → Type w) := List ((r : Req) × Resp r)

namespace Program

variable {Req : Type w} {Resp : Req → Type w} {ε α β S : Type w}
  {guard : Req → Answers Req Resp → Prop} {Q : α → Answers Req Resp → Prop}

/-- After these answers the program makes every request under the guard, and returns only
what it may return. -/
def Heeds (guard : Req → Answers Req Resp → Prop) (Q : α → Answers Req Resp → Prop) :
    Program Req Resp ε α → Answers Req Resp → Prop
  | done a, log => Q a log
  | raise _, _ => True
  | halt, _ => True
  | ask r next, log => guard r log ∧ ∀ x, Heeds guard Q (next x) (⟨r, x⟩ :: log)

namespace Heeds

variable {log : Answers Req Resp}

theorem bind {Q' : β → Answers Req Resp → Prop} {m : Program Req Resp ε α}
    {f : α → Program Req Resp ε β} (hm : m.Heeds guard Q log)
    (hf : ∀ a log, Q a log → (f a).Heeds guard Q' log) : (m >>= f).Heeds guard Q' log := by
  change (m.bind f).Heeds guard Q' log
  induction m generalizing log with
  | done a => exact hf a log hm
  | raise e => trivial
  | halt => trivial
  | ask r next ih => exact ⟨hm.1, fun x => ih x (hm.2 x)⟩

theorem attempt {m : Program Req Resp ε α} (hm : m.Heeds guard Q log) :
    m.attempt.Heeds guard (fun result log => ∀ a, result = .ok a → Q a log) log := by
  induction m generalizing log with
  | done a =>
    rintro a' h
    cases h
    exact hm
  | raise e =>
    rintro a h
    cases h
  | halt => trivial
  | ask r next ih => exact ⟨hm.1, fun x => ih x (hm.2 x)⟩

theorem mono {Q' : α → Answers Req Resp → Prop} {m : Program Req Resp ε α}
    (hm : m.Heeds guard Q log) (hQ : ∀ a log, Q a log → Q' a log) : m.Heeds guard Q' log := by
  induction m generalizing log with
  | done a => exact hQ a log hm
  | raise e => trivial
  | halt => trivial
  | ask r next ih => exact ⟨hm.1, fun x => ih x (hm.2 x)⟩

theorem of_only {allowed : Req → Prop} (hguard : ∀ r log, allowed r → guard r log)
    {m : Program Req Resp ε α} (hm : m.Only allowed) : m.Heeds guard (fun _ _ => True) log := by
  induction m generalizing log with
  | done a => trivial
  | raise e => trivial
  | halt => trivial
  | ask r next ih => exact ⟨hguard r log hm.1, fun x => ih x (hm.2 x)⟩

/-- The guard matters for the requests only that the program may make. -/
theorem under {guard' : Req → Answers Req Resp → Prop} {allowed : Req → Prop} {m : Program Req Resp ε α}
    (hm : m.Heeds guard Q log) (honly : m.Only allowed) (h : ∀ r log, allowed r → guard' r log) :
    m.Heeds guard' Q log := by
  induction m generalizing log with
  | done a => exact hm
  | raise e => trivial
  | halt => trivial
  | ask r next ih => exact ⟨h r log honly.1, fun x => ih x (hm.2 x) (honly.2 x)⟩

theorem and {Q' : α → Answers Req Resp → Prop} {m : Program Req Resp ε α} (hm : m.Heeds guard Q log)
    (hm' : m.Heeds guard Q' log) : m.Heeds guard (fun a log => Q a log ∧ Q' a log) log := by
  induction m generalizing log with
  | done a => exact ⟨hm, hm'⟩
  | raise e => trivial
  | halt => trivial
  | ask r next ih => exact ⟨hm.1, fun x => ih x (hm.2 x) (hm'.2 x)⟩

/-- What no further answer undoes is kept. -/
theorem keeping {P : Answers Req Resp → Prop} (hP : ∀ e log, P log → P (e :: log))
    {m : Program Req Resp ε α} (hm : m.Heeds guard Q log) (h : P log) :
    m.Heeds guard (fun a log => Q a log ∧ P log) log := by
  induction m generalizing log with
  | done a => exact ⟨hm, h⟩
  | raise e => trivial
  | halt => trivial
  | ask r next ih => exact ⟨hm.1, fun x => ih x (hm.2 x) (hP _ _ h)⟩

/-- What the requests of the program do not undo is kept. -/
theorem keeping_only {P : Answers Req Resp → Prop} {allowed : Req → Prop}
    (hP : ∀ r x log, allowed r → P log → P (⟨r, x⟩ :: log)) {m : Program Req Resp ε α}
    (hm : m.Heeds guard Q log) (honly : m.Only allowed) (h : P log) :
    m.Heeds guard (fun a log => Q a log ∧ P log) log := by
  induction m generalizing log with
  | done a => exact ⟨hm, h⟩
  | raise e => trivial
  | halt => trivial
  | ask r next ih => exact ⟨hm.1, fun x => ih x (hm.2 x) (honly.2 x) (hP r x log honly.1 h)⟩

theorem suffix {m : Program Req Resp ε α} (hm : m.Heeds guard Q log) :
    m.Heeds guard (fun a log' => Q a log' ∧ log <:+ log') log :=
  hm.keeping (fun e _ h => h.trans (List.suffix_cons e _)) List.suffix_rfl

theorem ofExcept {x : Except ε α} : (Program.ofExcept x).Heeds guard (fun _ log' => log' = log) log := by
  cases x with
  | ok a => rfl
  | error e => trivial

section Fallible

variable {Resp : Req → Type w} {r : Req} {Q : Resp r → Answers Req (fun r => Except ε (Resp r)) → Prop}
  {guard : Req → Answers Req (fun r => Except ε (Resp r)) → Prop}
  {log : Answers Req (fun r => Except ε (Resp r))}

theorem of_ask (hguard : guard r log) (hQ : ∀ a, Q a (⟨r, .ok a⟩ :: log)) :
    Heeds guard Q (.ask r Program.ofExcept : Program Req (fun r => Except ε (Resp r)) ε (Resp r)) log := by
  refine ⟨hguard, fun x => ?_⟩
  cases x with
  | ok a => exact hQ a
  | error e => trivial

/-- A request whose failure is looked at, and what comes after it. -/
theorem attempt_ask {Q : Except ε α → Answers Req (fun r => Except ε (Resp r)) → Prop}
    {f : Resp r → Program Req (fun r => Except ε (Resp r)) ε α} (hguard : guard r log)
    (herror : ∀ e, Q (.error e) (⟨r, .error e⟩ :: log))
    (hok : ∀ a, (f a).attempt.Heeds guard Q (⟨r, .ok a⟩ :: log)) :
    ((.ask r Program.ofExcept : Program Req (fun r => Except ε (Resp r)) ε (Resp r)) >>=
      f).attempt.Heeds guard Q log := by
  refine ⟨hguard, fun x => ?_⟩
  cases x with
  | ok a => exact hok a
  | error e => exact herror e

end Fallible

end Heeds

/-- A program heeds the guard throughout its run, whatever its surroundings do. -/
theorem Heeds.reaches {performs : (r : Req) → S → Resp r → S → Prop} {m : Program Req Resp ε α}
    {s : Logged Req Resp S} (hm : m.Heeds guard Q s.log)
    {c : Config PUnit.{w + 1} Req Resp ε α (Logged Req Resp S)}
    (hr : (System.alone (Logged.performs performs)).Reaches ⟨fun _ => m, s⟩ c) :
    (c.procs ⟨⟩).Heeds guard Q c.shared.log := by
  induction hr with
  | refl => exact hm
  | @tail c c' _ hstep ih =>
    cases hstep with
    | act i r next x s' hask hperforms =>
      rw [hask] at ih
      have hlog : s'.log = ⟨r, x⟩ :: c.shared.log := hperforms.2
      simpa [Config.resume, hlog] using ih.2 x
    | env s' henv => exact henv.elim

/-- Every request that has been answered was made under the guard. -/
theorem Heeds.guarded {performs : (r : Req) → S → Resp r → S → Prop} {m : Program Req Resp ε α} {s : S}
    (hm : m.Heeds guard Q []) {c : Config PUnit.{w + 1} Req Resp ε α (Logged Req Resp S)}
    (hr : (System.alone (Logged.performs performs)).Reaches ⟨fun _ => m, ⟨s, []⟩⟩ c)
    {since earlier : Answers Req Resp} {r : Req} {x : Resp r}
    (hlog : c.shared.log = since ++ ⟨r, x⟩ :: earlier) : guard r earlier := by
  induction hr generalizing since with
  | refl => exact absurd hlog.symm (by simp)
  | @tail c c' hreach hstep ih =>
    cases hstep with
    | act i r' next x' s' hask hperforms =>
      have hwritten : s'.log = ⟨r', x'⟩ :: c.shared.log := hperforms.2
      have hcons : ⟨r', x'⟩ :: c.shared.log = since ++ ⟨r, x⟩ :: earlier := hwritten.symm.trans hlog
      cases since with
      | nil =>
        obtain ⟨hentry, hrest⟩ := List.cons.inj hcons
        cases hentry
        have hheeds := hm.reaches hreach
        rw [hask] at hheeds
        exact hrest ▸ hheeds.1
      | cons e since => exact ih (List.cons.inj hcons).2
    | env s' henv => exact henv.elim

/-- A program that only makes certain requests has no others answered. -/
theorem Only.answered {performs : (r : Req) → S → Resp r → S → Prop} {allowed : Req → Prop}
    {m : Program Req Resp ε α} {s : Logged Req Resp S} (hm : m.Only allowed)
    {c : Config PUnit.{w + 1} Req Resp ε α (Logged Req Resp S)}
    (hr : (System.alone (Logged.performs performs)).Reaches ⟨fun _ => m, s⟩ c) :
    (c.procs ⟨⟩).Only allowed ∧ ∃ since, c.shared.log = since ++ s.log ∧ ∀ e ∈ since, allowed e.1 := by
  induction hr with
  | refl => exact ⟨hm, [], rfl, List.forall_mem_nil _⟩
  | @tail c c' _ hstep ih =>
    obtain ⟨honly, since, hlog, hsince⟩ := ih
    cases hstep with
    | act i r next x s' hask hperforms =>
      rw [hask] at honly
      have hwritten : s'.log = ⟨r, x⟩ :: c.shared.log := hperforms.2
      refine ⟨by simpa [Config.resume] using honly.2 x, ⟨r, x⟩ :: since, ?_,
        List.forall_mem_cons.mpr ⟨honly.1, hsince⟩⟩
      change s'.log = _
      rw [hwritten, hlog]
      rfl
    | env s' henv => exact henv.elim

end Program

/-! ## A program after another one -/

section After

variable {Req : Type w} {Resp : Req → Type w} {ε α β S : Type w}
  {performs : (r : Req) → S → Resp r → S → Prop}

theorem System.Reaches.act {c : Config PUnit.{w + 1} Req Resp ε α S} {c₀ : Config PUnit.{w + 1} Req Resp ε α S}
    (hr : (alone performs).Reaches c₀ c) {r : Req} {next : Resp r → Program Req Resp ε α} {x : Resp r}
    {s : S} (hask : c.procs ⟨⟩ = .ask r next) (hp : performs r c.shared x s) :
    (alone performs).Reaches c₀ ⟨fun _ => next x, s⟩ := by
  have hstep : (alone performs).Step c (c.resume ⟨⟩ (next x) s) := .act c ⟨⟩ r next x s hask hp
  have heq : c.resume ⟨⟩ (next x) s = ⟨fun _ => next x, s⟩ := by
    simp only [Config.resume, Config.mk.injEq, and_true]
    exact funext fun _ => Function.update_self _ _ _
  exact hr.tail (heq ▸ hstep)

/-- A run of the first of two programs is a run of both. -/
theorem System.Reaches.bind {m : Program Req Resp ε α} (f : α → Program Req Resp ε β) {s : S}
    {c : Config PUnit.{w + 1} Req Resp ε α S} (hr : (alone performs).Reaches ⟨fun _ => m, s⟩ c) :
    (alone performs).Reaches ⟨fun _ => m >>= f, s⟩ ⟨fun _ => c.procs ⟨⟩ >>= f, c.shared⟩ := by
  induction hr with
  | refl => exact .refl
  | @tail c c₁ _ hstep ih =>
    cases hstep with
    | env s' henv => exact henv.elim
    | act i r next x s' hask hp =>
      have hask : c.procs ⟨⟩ = .ask r next := hask
      have hnext : (c.resume i (next x) s').procs ⟨⟩ = next x := by
        simp [Config.resume]
      rw [hnext]
      rw [hask] at ih
      exact ih.act rfl hp

/-- A run of two programs, one after the other, is still in the first one, or is a run of the
second one from where the first one has returned. -/
theorem System.Reaches.bind_cases {m : Program Req Resp ε α} {f : α → Program Req Resp ε β} {s : S}
    {c : Config PUnit.{w + 1} Req Resp ε β S} (hr : (alone performs).Reaches ⟨fun _ => m >>= f, s⟩ c) :
    (∃ c' : Config PUnit.{w + 1} Req Resp ε α S, (alone performs).Reaches ⟨fun _ => m, s⟩ c' ∧
      c.procs ⟨⟩ = c'.procs ⟨⟩ >>= f ∧ c.shared = c'.shared) ∨
    ∃ (c' : Config PUnit.{w + 1} Req Resp ε α S) (a : α), (alone performs).Reaches ⟨fun _ => m, s⟩ c' ∧
      c'.procs ⟨⟩ = .done a ∧ (alone performs).Reaches ⟨fun _ => f a, c'.shared⟩ c := by
  induction hr with
  | refl => exact .inl ⟨_, .refl, rfl, rfl⟩
  | @tail c c₁ _ hstep ih =>
    cases hstep with
    | env s' henv => exact henv.elim
    | act i r next x s' hask hp =>
      have hask : c.procs ⟨⟩ = .ask r next := hask
      have heq : c.resume i (next x) s' = ⟨fun _ => next x, s'⟩ := by
        simp only [Config.resume, Config.mk.injEq, and_true]
        exact funext fun _ => Function.update_self _ _ _
      rw [heq]
      rcases ih with ⟨c', hreach, hprocs, hshared⟩ | ⟨c', a, hreach, hdone, hrest⟩
      · rw [hask] at hprocs
        cases hfirst : c'.procs ⟨⟩ with
        | done a =>
          rw [hfirst] at hprocs
          have hnow : (alone performs).Reaches ⟨fun _ => f a, c'.shared⟩
              (⟨fun _ => f a, c'.shared⟩ : Config PUnit.{w + 1} Req Resp ε β S) := .refl
          rw [hshared] at hp
          exact .inr ⟨c', a, hreach, hfirst, hnow.act hprocs.symm hp⟩
        | raise e =>
          rw [hfirst] at hprocs
          cases hprocs
        | halt =>
          rw [hfirst] at hprocs
          cases hprocs
        | ask r' next' =>
          rw [hfirst] at hprocs
          cases hprocs
          rw [hshared] at hp
          exact .inl ⟨⟨fun _ => next' x, s'⟩, hreach.act hfirst hp, rfl, rfl⟩
      · exact .inr ⟨c', a, hreach, hdone, hrest.act hask hp⟩

end After

end ClusterState.Concurrency
