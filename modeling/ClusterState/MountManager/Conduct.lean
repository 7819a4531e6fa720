import ClusterState.MountManager.Rules

/-! # The handlers keep to their guards

Every request and every goroutine of a worker performs its operations only when
it may, whatever the other threads do meanwhile.
-/

namespace ClusterState.MountManager

open Concurrency

section Programs

variable {d : Deployment} {A : Steps} {i : Thread} {s : State} {α β : Type}
  {P : State → Prop} {E : String → State → Prop}

theorem meets_perform_bind {o : Operation} {f : o.Value → Api β} {Q : β → State → Prop}
    (hP : (discipline d A).Stable i P) (hs : P s)
    (hperm : ∀ t, Inv d A t → P t → Permitted d A i o t)
    (hf : ∀ x t, Inv d A t → P t → A i (.own o) t → t.Answers o x →
      (discipline d A).Meets i Q E (f x) (t.after d i o x)) :
    (discipline d A).Meets i Q E (perform o >>= f) s := by
  intro t hrely hinv
  have ht := hP.rely hrely hs
  refine ⟨hperm t hinv ht, ?_⟩
  rintro x t' ⟨hallowed, hx, rfl⟩
  exact hf x t hinv ht hallowed hx

/-- A probe: what it is answered is true at that moment. -/
theorem meets_observe_bind {q : Probe} {f : q.Value → Api β} {Q : β → State → Prop}
    (hP : (discipline d A).Stable i P) (hs : P s)
    (hf : ∀ x t, Inv d A t → P t → t.Observes q x → (discipline d A).Meets i Q E (f x) t) :
    (discipline d A).Meets i Q E (observe q >>= f) s :=
  meets_perform_bind hP hs (fun _ _ _ => trivial) (fun x t hinv ht _ hx => hf x t hinv ht hx)

theorem meets_orThrow_bind {wrap : String → String} {x : Except String α} {f : α → Api β}
    {Q : β → State → Prop} (hE : ∀ e, E e s)
    (hf : ∀ a, x = .ok a → (discipline d A).Meets i Q E (f a) s) :
    (discipline d A).Meets i Q E (orThrow wrap x >>= f) s := by
  cases x with
  | ok a => exact hf a rfl
  | error e => exact hE _

theorem meets_require_bind {ok : Prop} [Decidable ok] {err : String} {f : Unit → Api β}
    {Q : β → State → Prop} (hE : ∀ e, E e s) (hf : (discipline d A).Meets i Q E (f ()) s) :
    (discipline d A).Meets i Q E (require ok err >>= f) s := by
  unfold require
  split
  · exact hf
  · exact hE _

/-! ## Helpers that may run at any time -/

theorem only_perform {o : Operation} (h : Quiet i (.own o)) : (perform o).Only (Quiet i) :=
  ⟨h, fun _ => trivial⟩

theorem only_observe (q : Probe) : (observe q).Only (Quiet i) := by
  cases i <;> exact only_perform trivial

theorem only_orThrow (wrap : String → String) (x : Except String α) :
    (orThrow wrap x).Only (Quiet i) := by
  cases x <;> trivial

variable {n : Nat}

theorem only_stop (p : ProcessId) : (stop p).Only (Quiet (.request n)) := by
  have hterminate : (perform (.terminate p)).Only (Quiet (.request n)) := only_perform trivial
  refine hterminate.bind fun _ => ?_
  refine (only_observe _).bind fun closed => ?_
  split
  · trivial
  · refine (only_observe _).bind fun _ => (only_observe _).bind fun closed => ?_
    split <;> trivial

theorem only_dupMountFD (p : ProcessId) : (dupMountFD p).Only (Quiet (.request n)) := by
  refine (only_observe _).bind fun fd => ?_
  cases fd with
  | none => trivial
  | some fd => exact (only_observe _).bind fun file => only_orThrow _ _

theorem only_waitForMount (path : String) (left : Nat) :
    (waitForMount path left).Only (Quiet (.request n)) := by
  induction left with
  | zero => trivial
  | succ left ih =>
    refine (only_observe _).bind fun x => ?_
    match x with
    | .error err => trivial
    | .ok false => trivial
    | .ok true => exact ih

theorem only_waitForWorkerSocket (localSocket : String) (left : Nat) :
    (waitForWorkerSocket localSocket left).Only (Quiet (.request n)) := by
  induction left with
  | zero => trivial
  | succ left ih =>
    refine (only_observe _).bind fun x => ?_
    cases x with
    | ok status => trivial
    | error err =>
      refine (only_observe _).bind fun passed => ?_
      split
      · trivial
      · exact ih

theorem only_unmountTarget (target : String) :
    (perform (.unmountTarget target)).Only (Quiet (.request n)) := only_perform trivial

theorem only_ensureTargetClean (targetPath : String) :
    (ensureTargetClean targetPath).Only (Quiet (.request n)) := by
  have hmkdir : (observe (.mkdirAll targetPath) >>= orThrow id).Only (Quiet (.request n)) :=
    (only_observe _).bind fun x => only_orThrow id x
  refine (only_observe _).bind fun x => ?_
  match x with
  | .error ⟨.notExist, _⟩ => exact hmkdir
  | .error ⟨.corrupted, _⟩ =>
    exact (only_unmountTarget _).bind fun x => (only_orThrow _ _).bind fun _ => hmkdir
  | .error ⟨.other, _⟩ => trivial
  | .ok true => exact hmkdir
  | .ok false => exact (only_unmountTarget _).bind fun x => (only_orThrow _ _).bind fun _ => hmkdir

theorem only_ensureTakeoverTargetPath (targetPath : String) :
    (ensureTakeoverTargetPath targetPath).Only (Quiet (.request n)) := by
  have hmkdir : (observe (.mkdirAll targetPath) >>= orThrow id).Only (Quiet (.request n)) :=
    (only_observe _).bind fun x => only_orThrow id x
  refine (only_observe _).bind fun x => ?_
  match x with
  | .error ⟨.notExist, _⟩ => exact hmkdir
  | .error ⟨.corrupted, _⟩ =>
    exact (only_unmountTarget _).bind fun x => (only_orThrow _ _).bind fun _ => hmkdir
  | .error ⟨.other, _⟩ => trivial
  | .ok false => trivial
  | .ok true =>
    refine (only_observe _).bind fun x => ?_
    match x with
    | .ok true => trivial
    | .ok false => trivial
    | .error ⟨.notExist, _⟩ => exact hmkdir
    | .error ⟨.corrupted, _⟩ => trivial
    | .error ⟨.other, _⟩ => trivial

end Programs

section Handlers

variable {d : Deployment} {A : Steps} {n m : Nat} {s : State} {P : State → Prop} {p : ProcessId}
  {F : List (LockUse String Thread)}

theorem after_quiet {o : Operation} {x : o.Value}
    (hP : (discipline d A).Stable (.request n) P) (hquiet : Quiet (.request n) (.own o))
    (hinv : Inv d A s) (hs : P s) (hallowed : A (.request n) (.own o) s) (hx : s.Answers o x) :
    P (s.after d (.request n) o x) :=
  hP s _ ⟨hinv, .inr ⟨_, .own o, x, .inr hquiet, guard_of_quiet hquiet, hallowed, hx, rfl⟩⟩ hs

theorem meets_stop (hP : (discipline d A).Stable (.request n) P) (hs : P s)
    (hp : s.Has p (fun _ => True)) :
    (discipline d A).Meets (.request n) (fun _ t => P t ∧ t.Has p (fun w => w.stopAsked = true))
      (fun _ t => P t) (stop p) s := by
  have hhas : (discipline d A).Stable (.request n) (fun t => t.Has p (fun _ => True)) :=
    stable_has fun _ _ _ _ => trivial
  have hasked : (discipline d A).Stable (.request n) (fun t => t.Has p (fun w => w.stopAsked = true)) :=
    stable_has fun _ _ hstep => hstep.stopAsked
  refine meets_perform_bind (hP.and hhas) ⟨hs, hp⟩ (fun _ _ _ => trivial) ?_
  rintro x t hinv ⟨ht, w, hw, -⟩ hallowed hx
  have ht' : P (t.after d (.request n) (.terminate p) x) :=
    after_quiet hP trivial hinv ht hallowed hx
  have hasked' : (t.after d (.request n) (.terminate p) x).Has p (fun w => w.stopAsked = true) :=
    ⟨_, State.getElem?_modifyProcess_self hw, rfl⟩
  refine (Discipline.Meets.of_only (hP.and hasked) ?_ ⟨ht', hasked'⟩).mono (fun _ _ h => h)
    (fun _ _ h => h.1)
  refine (only_observe _).bind fun closed => ?_
  split
  · trivial
  · refine (only_observe _).bind fun _ => (only_observe _).bind fun closed => ?_
    split <;> trivial

/-- The thread holds the locks of `F`, and was let in if it is one that can be
turned away. -/
def Within (d : Deployment) (i : Thread) (F : List (LockUse String Thread)) (s : State) : Prop :=
  s.locks.Held F ∧ Entered d i s

theorem stable_within {i : Thread} (hF : ∀ u ∈ F, u.thread = i) :
    (discipline d A).Stable i (Within d i F) :=
  (locking.stable_held hF).and stable_entered

theorem meets_startWeedMountProcess {cmd : Command} {ready : Api Unit}
    (hready : ready.Only (Quiet (.request n))) (hF : ∀ u ∈ F, u.thread = .request n)
    (hmem : ⟨.request n, cmd.volumeID, m⟩ ∈ F) (hs : Within d (.request n) F s) :
    (discipline d A).Meets (.request n)
      (fun p t => Within d (.request n) F t ∧ t.Has p (fun w => w.volumeID = cmd.volumeID) ∧
        (A.Orderly → t.Sole cmd.volumeID p))
      (fun _ t => Within d (.request n) F t) (startWeedMountProcessWithOptions cmd ready) s := by
  have hstable := stable_within (d := d) (A := A) hF
  refine .only_bind hstable (only_observe _) hs (fun _ _ h => h) fun x t ht => ?_
  refine meets_orThrow_bind (fun _ => ht) fun _ _ => ?_
  refine .only_bind hstable (only_observe _) ht (fun _ _ h => h) fun x t ht => ?_
  refine meets_orThrow_bind (fun _ => ht) fun _ _ => ?_
  refine meets_perform_bind hstable ht (fun t _ ht => ⟨m, ht.1 _ hmem⟩) ?_
  intro x t hinv ht hallowed hx
  cases x with
  | error err => exact ht
  | ok p =>
    obtain rfl : p = t.processes.length := hx p rfl
    have hnew : (t.after d (.request n) (.start cmd) (.ok t.processes.length)).Has
        t.processes.length (fun w => w.volumeID = cmd.volumeID) :=
      ⟨_, List.getElem?_concat_length, rfl⟩
    have hsole : A.Orderly →
        (t.after d (.request n) (.start cmd) (.ok t.processes.length)).Sole cmd.volumeID
          t.processes.length := by
      intro horderly q w hw hvol hq
      have hclear : t.Clear cmd := horderly.2 _ _ _ hallowed
      rcases State.of_getElem?_concat hw with hw | ⟨hq', -⟩
      · exact hclear.2 w (List.mem_of_getElem? hw) (.inl hvol)
      · exact absurd hq' hq
    have hstable' := hstable.and (stable_sole (d := d) (A := A) (i := .request n)
      (v := cmd.volumeID) (p := t.processes.length))
    refine meets_orThrow_bind (fun _ => ht) fun p hp => ?_
    cases hp
    refine .only_bind hstable' hready.attempt ⟨ht, ⟨⟨m, ht.1 _ hmem⟩, hnew⟩, hsole⟩
      (fun _ _ h => h.1) fun r t₁ ht₁ => ?_
    cases r with
    | error err =>
      exact .only_bind hstable' (only_stop _).attempt ht₁ (fun _ _ h => h.1)
        fun _ _ ht₂ => ht₂.1
    | ok _ =>
      refine .only_bind hstable' (only_observe _) ht₁ (fun _ _ h => h.1) fun fd t₂ ht₂ => ?_
      cases fd with
      | error err => exact ⟨ht₂.1, ht₂.2.1.2, ht₂.2.2⟩
      | ok fd =>
        have hrecord : (perform (.recordMountFD t.processes.length fd)).Only (Quiet (.request n)) :=
          only_perform trivial
        exact .only_bind hstable' hrecord ht₂ (fun _ _ h => h.1)
          fun _ _ ht₃ => ⟨ht₃.1, ht₃.2.1.2, ht₃.2.2⟩

theorem meets_startMount {req : MountRequest} (hF : ∀ u ∈ F, u.thread = .request n)
    (hmem : ⟨.request n, req.volumeID, m⟩ ∈ F) (hs : Within d (.request n) F s) :
    (discipline d A).Meets (.request n)
      (fun e t => Within d (.request n) F t ∧ e.volumeID = req.volumeID ∧
        t.Has e.process (fun w => w.volumeID = req.volumeID) ∧
        (A.Orderly → t.Sole req.volumeID e.process))
      (fun _ t => Within d (.request n) F t) (startMount d req) s := by
  have hstable := stable_within (d := d) (A := A) hF
  refine .only_bind hstable (only_ensureTargetClean _) hs (fun _ _ h => h) fun _ t ht => ?_
  refine meets_require_bind (fun _ => ht) ?_
  refine .only_bind hstable (only_observe _) ht (fun _ _ h => h) fun x t ht => ?_
  refine meets_orThrow_bind (fun _ => ht) fun _ _ => ?_
  refine meets_require_bind (fun _ => ht) (meets_require_bind (fun _ => ht) ?_)
  refine .bind (meets_startWeedMountProcess (only_waitForMount _ _) hF hmem ht) fun p t ht => ?_
  exact ⟨ht.1, rfl, ht.2⟩

def Reported : Response → State → Prop
  | .mounted _ p, s => s.Has p (fun w => w.registered = true)
  | _, _ => True

theorem stable_reported (r : Response) {i : Thread} : (discipline d A).Stable i (Reported r) := by
  cases r with
  | mounted _ p => exact stable_has fun _ _ hstep => hstep.registered
  | _ => exact fun _ _ _ _ => trivial

def Conducts (d : Deployment) (A : Steps) (n : Nat) (F : List (LockUse String Thread))
    (body : Api Response) (s : State) : Prop :=
  (discipline d A).Meets (.request n) (fun r t => t.locks.Held F ∧ Reported r t)
    (fun _ t => t.locks.Held F) body s

theorem conducts_mountNew {req : MountRequest} (hF : ∀ u ∈ F, u.thread = .request n)
    (hmem : ⟨.request n, req.volumeID, m⟩ ∈ F) (hclient : d.client (.request n) = true)
    (hs : Within d (.request n) F s) : Conducts d A n F (mountNew d req) s := by
  refine .bind ((meets_startMount hF hmem hs).mono (fun _ _ h => h) fun _ _ h => h.1) ?_
  rintro e t ⟨ht, hvol, hproc, hsole⟩
  have hstable := (stable_within (d := d) (A := A) hF).and (stable_sole (d := d) (A := A)
    (i := .request n) (v := req.volumeID) (p := e.process))
  refine meets_perform_bind hstable ⟨ht, ⟨⟨m, ht.1 _ hmem⟩, hproc⟩, hsole⟩ ?_ ?_
  · rintro t - ⟨⟨-, hentered⟩, ⟨hholds, hproc⟩, hsole⟩
    exact ⟨hholds, .inl ⟨hclient, hentered hclient⟩, hvol, hproc, hsole⟩
  · rintro x t - ⟨⟨hheld, -⟩, ⟨-, w, hw, -⟩, -⟩ - -
    exact ⟨hheld, _, State.getElem?_modifyProcess_self hw, rfl⟩

theorem entry_eq {v : String} {e e' : MountEntry}
    (h : s.mountOf v = some e ∨ s.mountOf v = none) (he' : s.mountOf v = some e') : e' = e := by
  rcases h with h | h
  · exact Option.some.inj (he'.symm.trans h)
  · exact absurd (he'.symm.trans h) nofun

theorem conducts_mountLocked {req : MountRequest} (hF : ∀ u ∈ F, u.thread = .request n)
    (hmem : ⟨.request n, req.volumeID, m⟩ ∈ F) (hclient : d.client (.request n) = true)
    (hs : Within d (.request n) F s) : Conducts d A n F (mountLocked d req) s := by
  have hwithin := stable_within (d := d) (A := A) hF
  refine meets_observe_bind hwithin hs fun x t hinv ht hx => ?_
  cases x with
  | none => exact conducts_mountNew hF hmem hclient ht
  | some e =>
    have hentry := hx.symm
    have hregistered : t.Has e.process (fun w => w.registered = true) :=
      (hinv.entry _ e hentry).2.mono fun _ h => h.2
    have hstable := (hwithin.and (stable_entry (d := d) (A := A) (v := req.volumeID) (e := e))).and
      (stable_has (d := d) (A := A) (i := .request n) (p := e.process)
        (K := fun w => w.registered = true) fun _ _ hstep => hstep.registered)
    dsimp only
    split
    · exact ht.1
    · refine meets_observe_bind hstable
        ⟨⟨ht, ⟨m, ht.1 _ hmem⟩, fun _ => .inl hentry⟩, hregistered⟩ ?_
      rintro alive t₁ - ⟨⟨ht₁, hentry₁⟩, hregistered₁⟩ halive
      cases alive with
      | true => exact ⟨ht₁.1, hregistered₁⟩
      | false =>
        -- the process has been waited for, so it is not running
        have hgone : t₁.Has e.process (fun w => w.stage ≠ .running) := by
          obtain ⟨w, hw, -⟩ := hregistered₁
          exact ⟨w, hw, fun hrun => absurd ((halive w hw).1 hrun) nofun⟩
        refine meets_perform_bind ((hwithin.and stable_entry).and (stable_has
          (K := fun w => w.stage ≠ .running) fun _ _ hstep h h' => h (hstep.running h')))
          ⟨⟨ht₁, hentry₁⟩, hgone⟩ ?_ ?_
        · rintro t₂ - ⟨⟨ht₂, -, hentry₂⟩, hgone₂⟩
          refine ⟨⟨hclient, ht₂.2 hclient⟩, fun horderly e' he' => ?_⟩
          rw [entry_eq (hentry₂ horderly) he']
          exact hgone₂
        · rintro y t₂ - ⟨⟨ht₂, -⟩, -⟩ - -
          exact conducts_mountNew hF hmem hclient ht₂

/-- The end of `Unmount` and `FinalizeTakeover`: the entry of a worker that was
asked to stop is removed. -/
theorem meets_removeMount_bind {v : String} {e : MountEntry} {r : Response}
    (hF : ∀ u ∈ F, u.thread = .request n)
    (hby : ∀ t, Within d (.request n) F t → t.Busy d (.request n) ∨ d.Finalizes (.request n) v)
    (hr : ∀ t, Reported r t)
    (hs : (Within d (.request n) F s ∧ s.Holds (.request n) v ∧
      (A.Orderly → s.mountOf v = some e ∨ s.mountOf v = none)) ∧
      s.Has e.process (fun w => w.stopAsked = true)) :
    Conducts d A n F (perform (.removeMount v) >>= fun _ => pure r) s := by
  refine meets_perform_bind (((stable_within hF).and stable_entry).and (stable_has
    (K := fun w => w.stopAsked = true) fun _ _ hstep => hstep.stopAsked)) hs ?_ ?_
  · rintro t - ⟨⟨ht, hholds, hentry⟩, hasked⟩
    refine ⟨hholds, hby t ht, fun horderly e' he' => ?_⟩
    rw [entry_eq (hentry horderly) he']
    exact hasked
  · rintro x t - ⟨⟨⟨hheld, -⟩, -⟩, -⟩ - -
    exact ⟨hheld, hr _⟩

theorem conducts_unmountLocked {req : UnmountRequest} (hF : ∀ u ∈ F, u.thread = .request n)
    (hmem : ⟨.request n, req.volumeID, m⟩ ∈ F) (hclient : d.client (.request n) = true)
    (hs : Within d (.request n) F s) : Conducts d A n F (unmountLocked req) s := by
  have hwithin := stable_within (d := d) (A := A) hF
  refine meets_observe_bind hwithin hs fun x t hinv ht hx => ?_
  cases x with
  | none => exact ⟨ht.1, trivial⟩
  | some e =>
    have hentry := hx.symm
    have hproc : t.Has e.process (fun _ => True) :=
      (hinv.entry _ e hentry).2.mono fun _ _ => trivial
    have hstable := hwithin.and (stable_entry (d := d) (A := A) (v := req.volumeID) (e := e))
    have hasked := stable_has (d := d) (A := A) (i := .request n) (p := e.process)
      (K := fun w => w.stopAsked = true) fun _ _ hstep => hstep.stopAsked
    refine .bind ((meets_stop hstable ⟨ht, ⟨m, ht.1 _ hmem⟩, fun _ => .inl hentry⟩ hproc).mono
      (fun _ _ h => h) fun _ _ h => h.1.1) fun _ t₁ ht₁ => ?_
    refine .only_bind (hstable.and hasked) (only_observe _) ht₁ (fun _ _ h => h.1.1.1)
      fun _ t₂ ht₂ => ?_
    exact meets_removeMount_bind hF (fun t ht => .inl ⟨hclient, ht.2 hclient⟩) (fun _ => trivial) ht₂

theorem conducts_finalizeLocked {req : TakeoverVolumeRequest}
    (hF : ∀ u ∈ F, u.thread = .request n) (hmem : ⟨.request n, req.volumeID, m⟩ ∈ F)
    (hfinalizes : d.Finalizes (.request n) req.volumeID) (hs : Within d (.request n) F s) :
    Conducts d A n F (finalizeLocked req) s := by
  have hwithin := stable_within (d := d) (A := A) hF
  refine meets_observe_bind hwithin hs fun x t hinv ht hx => ?_
  cases x with
  | none => exact ht.1
  | some e =>
    have hentry := hx.symm
    have hproc : t.Has e.process (fun _ => True) :=
      (hinv.entry _ e hentry).2.mono fun _ _ => trivial
    have hstable := hwithin.and (stable_entry (d := d) (A := A) (v := req.volumeID) (e := e))
    have hhas := stable_has (d := d) (A := A) (i := .request n) (p := e.process)
      (K := fun _ => True) fun _ _ _ _ => trivial
    have hpreserve : ∀ b, (perform (.setPreserveMountOnExit e.process b)).Only
        (Quiet (.request n)) := fun _ => only_perform trivial
    refine .only_bind (hstable.and hhas) (hpreserve true)
      ⟨⟨ht, ⟨m, ht.1 _ hmem⟩, fun _ => .inl hentry⟩, hproc⟩ (fun _ _ h => h.1.1.1)
      fun _ t₁ ht₁ => ?_
    refine .bind (.attempt (meets_stop hstable ht₁.1 ht₁.2)) fun r t₂ ht₂ => ?_
    rcases ht₂ with ⟨_, rfl, ht₂⟩ | ⟨err, rfl, ht₂⟩
    · exact meets_removeMount_bind hF (fun _ _ => .inr hfinalizes) (fun _ => trivial) ht₂
    · exact .only_bind hstable (hpreserve false) ht₂ (fun _ _ h => h.1.1) fun _ _ ht₃ => ht₃.1.1

theorem conducts_cancelLocked {req : TakeoverVolumeRequest}
    (hF : ∀ u ∈ F, u.thread = .request n) (hs : s.locks.Held F) :
    Conducts d A n F (cancelLocked req) s := by
  have hheld := locking (d := d) (A := A) |>.stable_held hF
  refine .only_bind hheld (only_observe _) hs (fun _ _ h => h) fun x t ht => ?_
  cases x with
  | none => exact ht
  | some e =>
    have hpreserve : (perform (.setPreserveMountOnExit e.process false)).Only
        (Quiet (.request n)) := only_perform trivial
    refine .only_bind hheld (only_observe _) ht (fun _ _ h => h) fun x t₁ ht₁ => ?_
    refine meets_orThrow_bind (fun _ => ht₁) fun _ _ => ?_
    exact .only_bind hheld hpreserve ht₁ (fun _ _ h => h) fun _ _ ht₂ => ⟨ht₂, trivial⟩

theorem conducts_withLock {v : String} {body : Api Response}
    (hF : ∀ u ∈ F, u.thread = .request n)
    (hbody : ∀ m t, (∀ u ∈ ⟨.request n, v, m⟩ :: F, u.thread = .request n) →
      Within d (.request n) (⟨.request n, v, m⟩ :: F) t →
      Conducts d A n (⟨.request n, v, m⟩ :: F) body t)
    (hs : Within d (.request n) F s) : Conducts d A n F (withLock v body) s := by
  refine locking.meets_withLock hF stable_entered (fun _ _ h => h)
    (fun r => stable_reported r) ?_ ?_ hs.1 hs.2
  · intro r t l ht
    cases r <;> exact ht
  · intro m t hheld hentered
    refine hbody m t ?_ ⟨hheld, hentered⟩
    intro u hu
    rcases List.mem_cons.mp hu with rfl | hu
    · rfl
    · exact hF u hu

theorem conducts_cancelTakeover {req : Option TakeoverVolumeRequest}
    (hF : ∀ u ∈ F, u.thread = .request n) (hs : Within d (.request n) F s) :
    Conducts d A n F (cancelTakeover req) s := by
  cases req with
  | none => exact hs.1
  | some req =>
    rw [cancelTakeover]
    split
    · exact hs.1
    · exact conducts_withLock hF (fun _ _ hF' ht => conducts_cancelLocked hF' ht.1) hs

theorem conducts_exportFailed {v err : String} (hF : ∀ u ∈ F, u.thread = .request n)
    (hs : Within d (.request n) F s) : Conducts d A n F (exportFailed v err) s := by
  refine .bind (.attempt (conducts_cancelTakeover hF hs)) fun r t ht => ?_
  rcases ht with ⟨_, -, ht⟩ | ⟨_, -, ht⟩
  · exact ht.1
  · exact ht

theorem conducts_exportLocked {req : TakeoverExportRequest}
    (hF : ∀ u ∈ F, u.thread = .request n) (hs : Within d (.request n) F s) :
    Conducts d A n F (exportLocked req) s := by
  have hwithin := stable_within (d := d) (A := A) hF
  refine .only_bind hwithin (only_observe _) hs (fun _ _ h => h.1) fun x t ht => ?_
  cases x with
  | none => exact ht.1
  | some e =>
    refine .only_bind hwithin (only_observe _) ht (fun _ _ h => h.1) fun x t₁ ht₁ => ?_
    refine meets_orThrow_bind (fun _ => ht₁.1) fun prepare _ => ?_
    split
    · exact ⟨ht₁.1, trivial⟩
    · refine .only_bind hwithin (only_dupMountFD _).attempt ht₁ (fun _ _ h => h.1)
        fun x t₂ ht₂ => ?_
      cases x with
      | error err => exact conducts_exportFailed hF ht₂
      | ok fdFile =>
        refine .only_bind hwithin (only_observe _) ht₂ (fun _ _ h => h.1) fun x t₃ ht₃ => ?_
        cases x with
        | error err => exact conducts_exportFailed hF ht₃
        | ok _ => exact ⟨ht₃.1, trivial⟩

theorem conducts_importLocked {mount : TakeoverMount} {fdFile : Nat}
    (hF : ∀ u ∈ F, u.thread = .request n) (hmem : ⟨.request n, mount.volumeID, m⟩ ∈ F)
    (himports : d.Imports (.request n)) (hs : Within d (.request n) F s) :
    Conducts d A n F (importLocked d mount fdFile) s := by
  have hwithin := stable_within (d := d) (A := A) hF
  have hstart : ∀ t, Within d (.request n) F t → Conducts d A n F (do
      let started ← (startWeedMountProcessWithOptions
        ⟨d.weedBinary, mount.mountArgs ++
          ["-dirAutoCreate=true", "-hotRestart.mountFd=3", "-hotRestart.adoptLiveFd=true"],
          mount.targetPath, mount.volumeID, [fdFile]⟩
        (waitForWorkerSocket mount.localSocket d.polls)).attempt
      let process ← orThrow (("start adopted worker for volume " ++ mount.volumeID ++ ": ") ++ ·)
        started
      perform (.putMount mount.volumeID ⟨mount.volumeID, mount.targetPath, mount.cacheDir,
        mount.mountArgs, mount.localSocket, process⟩)
      pure .imported) t := by
    intro t ht
    refine .bind (.attempt (meets_startWeedMountProcess (only_waitForWorkerSocket _ _) hF hmem ht))
      fun r t₁ ht₁ => ?_
    rcases ht₁ with ⟨p, rfl, ht₁, hproc, hsole⟩ | ⟨err, rfl, ht₁⟩
    · refine meets_orThrow_bind (fun _ => ht₁.1) fun p' hp' => ?_
      cases hp'
      refine meets_perform_bind (hwithin.and (stable_sole (v := mount.volumeID) (p := p)))
        ⟨ht₁, ⟨⟨m, ht₁.1 _ hmem⟩, hproc⟩, hsole⟩ ?_ ?_
      · rintro t₂ - ⟨-, ⟨hholds, hproc⟩, hsole⟩
        exact ⟨hholds, .inr himports, rfl, hproc, hsole⟩
      · rintro x t₂ - ⟨⟨hheld, -⟩, -⟩ - -
        exact ⟨hheld, trivial⟩
    · exact meets_orThrow_bind (fun _ => ht₁.1) nofun
  refine .only_bind hwithin (only_ensureTakeoverTargetPath _).attempt hs (fun _ _ h => h.1)
    fun r t ht => ?_
  cases r with
  | error err => exact ht.1
  | ok _ =>
    refine .only_bind hwithin (only_observe _) ht (fun _ _ h => h.1) fun x t₁ ht₁ => ?_
    match x with
    | .error ⟨.corrupted, _⟩ => exact ht₁.1
    | .error ⟨.other, _⟩ => exact ht₁.1
    | .error ⟨.notExist, _⟩ => exact hstart t₁ ht₁
    | .ok () => exact hstart t₁ ht₁

end Handlers

end ClusterState.MountManager
