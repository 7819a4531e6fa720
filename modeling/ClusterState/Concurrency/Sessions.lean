import ClusterState.Concurrency.Execution

/-! # Calls served one after the other

A server takes one call at a time. Between two requests of a call its
surroundings may act, and the server may restart: the call is then cut off and
what the server had in memory is lost. A server whose calls all follow a
discipline follows it through any number of calls and restarts.
-/

namespace ClusterState.Concurrency

universe u v w

structure Server (Call Req : Type u) (Resp : Req → Type v) (ε S : Type w) where
  system : System PUnit.{u + 1} Req Resp S
  serve : Call → Program Req Resp ε PUnit
  restart : S → S

/-- What is left of the call that is being served, and the state. -/
structure Session (Req : Type u) (Resp : Req → Type v) (ε S : Type w) where
  current : Program Req Resp ε PUnit
  shared : S

def Program.finished {Req : Type u} {Resp : Req → Type v} {ε α : Type w} :
    Program Req Resp ε α → Bool
  | .done _ => true
  | .raise _ => true
  | _ => false

namespace Server

variable {Call Req : Type u} {Resp : Req → Type v} {ε S : Type w}

def under (V : Server Call Req Resp ε S) (allowed : Req → S → Prop) : Server Call Req Resp ε S :=
  { V with system := V.system.under fun _ => allowed }

inductive Step (V : Server Call Req Resp ε S) : Session Req Resp ε S → Session Req Resp ε S → Prop
  | call (c : Session Req Resp ε S) (k : Call) (hidle : c.current.finished = true) :
      Step V c ⟨V.serve k, c.shared⟩
  | act (c : Session Req Resp ε S) (r : Req) (next : Resp r → Program Req Resp ε PUnit) (x : Resp r)
      (s : S) (hask : c.current = .ask r next) (hperforms : V.system.performs ⟨⟩ r c.shared x s) :
      Step V c ⟨next x, s⟩
  | env (c : Session Req Resp ε S) (s : S) (henv : V.system.env c.shared s) :
      Step V c ⟨c.current, s⟩
  | restart (c : Session Req Resp ε S) : Step V c ⟨.done ⟨⟩, V.restart c.shared⟩

def Reachable (V : Server Call Req Resp ε S) (s : S) (c : Session Req Resp ε S) : Prop :=
  Relation.ReflTransGen V.Step ⟨.done ⟨⟩, s⟩ c

variable {V : Server Call Req Resp ε S} {D : Discipline PUnit.{u + 1} Req Resp S}

structure Follows (V : Server Call Req Resp ε S) (D : Discipline PUnit.{u + 1} Req Resp S) :
    Prop where
  system_eq : D.toSystem = V.system
  serves : ∀ k s, D.inv s →
    D.Meets ⟨⟩ (fun _ _ => True) (fun _ _ => True) (V.serve k) s
  restarts : ∀ s, D.inv s → D.inv (V.restart s)

def Sound (D : Discipline PUnit.{u + 1} Req Resp S) (c : Session Req Resp ε S) : Prop :=
  D.inv c.shared ∧ D.Meets ⟨⟩ (fun _ _ => True) (fun _ _ => True) c.current c.shared

theorem Sound.guard {c : Session Req Resp ε S} (h : Sound D c) {r : Req}
    {next : Resp r → Program Req Resp ε PUnit} (hask : c.current = .ask r next) :
    D.guard ⟨⟩ r c.shared := by
  have hmeets := h.2
  rw [hask] at hmeets
  exact (hmeets c.shared .refl h.1).1

theorem Follows.step (hV : V.Follows D) {c c' : Session Req Resp ε S} (h : Sound D c)
    (hstep : V.Step c c') : Sound D c' := by
  cases hstep with
  | call k hidle => exact ⟨h.1, hV.serves k _ h.1⟩
  | act r next x s hask hperforms =>
    rw [← hV.system_eq] at hperforms
    have hguard := h.guard hask
    have hmeets := h.2
    rw [hask] at hmeets
    exact ⟨D.inv_performs _ r _ x s h.1 hguard hperforms, (hmeets _ .refl h.1).2 x s hperforms⟩
  | env s henv =>
    rw [← hV.system_eq] at henv
    exact ⟨D.inv_env _ s h.1 henv, h.2.rely (.single ⟨h.1, .inl henv⟩)⟩
  | restart => exact ⟨hV.restarts _ h.1, trivial⟩

theorem Follows.steps (hV : V.Follows D) {c c' : Session Req Resp ε S} (h : Sound D c)
    (hsteps : Relation.ReflTransGen V.Step c c') : Sound D c' := by
  induction hsteps with
  | refl => exact h
  | tail _ hstep ih => exact hV.step ih hstep

theorem Follows.reachable (hV : V.Follows D) {s : S} (hs : D.inv s) {c : Session Req Resp ε S}
    (h : V.Reachable s c) : Sound D c :=
  hV.steps (show Sound D ⟨.done ⟨⟩, s⟩ from ⟨hs, trivial⟩) h

/-! ## Computing sessions -/

inductive Move (Call Reply Happening : Type*) where
  | call (k : Call)
  | act (replies : List Reply)
  | happens (e : Happening)
  | restart

variable {Reply Happening : Type*}

def execute (V : Server Call Req Resp ε S) (R : Responder V.system Reply Happening) :
    List (Move Call Reply Happening) → Session Req Resp ε S → Option (Session Req Resp ε S)
  | [], c => some c
  | .call k :: rest, c =>
    if c.current.finished then execute V R rest ⟨V.serve k, c.shared⟩ else none
  | .act replies :: rest, c =>
    match R.feed ⟨⟩ c.current c.shared replies with
    | some (p, s) => execute V R rest ⟨p, s⟩
    | none => none
  | .happens e :: rest, c =>
    match R.happen e c.shared with
    | some s => execute V R rest ⟨c.current, s⟩
    | none => none
  | .restart :: rest, c => execute V R rest ⟨.done ⟨⟩, V.restart c.shared⟩

theorem feed_steps {R : Responder V.system Reply Happening} {replies : List Reply}
    {p p' : Program Req Resp ε PUnit} {s s' : S} (h : R.feed ⟨⟩ p s replies = some (p', s')) :
    Relation.ReflTransGen V.Step ⟨p, s⟩ ⟨p', s'⟩ := by
  induction replies generalizing p s with
  | nil =>
    rw [Responder.feed] at h
    cases h
    exact .refl
  | cons y rest ih =>
    cases p with
    | ask r next =>
      rw [Responder.feed] at h
      split at h
      · rename_i x t hrespond
        exact .head (.act ⟨.ask r next, s⟩ r next x t rfl (R.performs_of_respond hrespond)) (ih h)
      · cases h
    | done a => cases h
    | raise e => cases h
    | halt => cases h

theorem execute_steps {R : Responder V.system Reply Happening}
    {moves : List (Move Call Reply Happening)} {c c' : Session Req Resp ε S}
    (h : V.execute R moves c = some c') : Relation.ReflTransGen V.Step c c' := by
  induction moves generalizing c with
  | nil =>
    cases h
    exact .refl
  | cons move rest ih =>
    cases move with
    | call k =>
      rw [execute] at h
      split at h
      · rename_i hidle
        exact .head (.call c k hidle) (ih h)
      · cases h
    | act replies =>
      rw [execute] at h
      split at h
      · rename_i p s hfeed
        exact (feed_steps hfeed).trans (ih h)
      · cases h
    | happens e =>
      rw [execute] at h
      split at h
      · rename_i s hhappen
        exact .head (.env c s (R.env_of_happen hhappen)) (ih h)
      · cases h
    | restart => exact .head (.restart c) (ih h)

theorem exists_reachable {R : Responder V.system Reply Happening}
    {moves : List (Move Call Reply Happening)} {s : S} {check : Session Req Resp ε S → Bool}
    (h : (V.execute R moves ⟨.done ⟨⟩, s⟩).any check = true) :
    ∃ c, V.Reachable s c ∧ check c = true := by
  obtain ⟨c, hrun, hcheck⟩ := (Option.any_eq_true _ _).mp h
  exact ⟨c, execute_steps hrun, hcheck⟩

end Server

end ClusterState.Concurrency
