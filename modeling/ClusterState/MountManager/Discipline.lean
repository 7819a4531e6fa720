import ClusterState.MountManager.Handlers
import ClusterState.MountManager.Inventory

/-! # What the threads of the mount service may do

Each condition below is on the step that is about to be taken. The handlers keep
to the guards in every run; what follows from that depends on which conditions
the steps of the run meet, so everything is stated over the steps `A` allows.
-/

namespace ClusterState.MountManager

open Concurrency

/-- A mutex is only created for a volume no request is busy with. -/
def FreshGets (_ : Thread) : Request → State → Prop
  | .get k, s => s.locks.FreshGet k
  | _, _ => True

/-- A worker is only started where nothing is left of an earlier one. -/
def CleanStarts (_ : Thread) : Request → State → Prop
  | .own (.start cmd), s => s.Clear cmd
  | _, _ => True

/-- An inventory is only listed while its takeover flag is still set and every
mount and unmount request that was let in before has returned. -/
def SettledLists (_ : Thread) : Request → State → Prop
  | .own .listMounts, s => s.takeover = true ∧ s.active = []
  | _, _ => True

abbrev Steps := Thread → Request → State → Prop

def Steps.Meet (A C : Steps) : Prop := ∀ i r s, A i r s → C i r s

def Steps.Orderly (A : Steps) : Prop := A.Meet FreshGets ∧ A.Meet CleanStarts

def State.Holds (s : State) (i : Thread) (volumeID : String) : Prop :=
  ∃ m, ⟨i, volumeID, m⟩ ∈ s.locks.holding

def State.Busy (s : State) (d : Deployment) (i : Thread) : Prop :=
  d.client i = true ∧ i ∈ s.active

def Permitted (d : Deployment) (A : Steps) (i : Thread) : Operation → State → Prop
  | .putMount v e, s => s.Holds i v ∧ (s.Busy d i ∨ d.Imports i) ∧ e.volumeID = v ∧
      s.Has e.process (fun w => w.volumeID = v) ∧ (A.Orderly → s.Sole v e.process)
  | .removeMount v, s => s.Holds i v ∧ (s.Busy d i ∨ d.Finalizes i v) ∧
      (A.Orderly → ∀ e, s.mountOf v = some e → s.Has e.process (fun w => w.stopAsked = true))
  | .detachMount v, s => match i with
    | .request _ => s.Busy d i ∧
        (A.Orderly → ∀ e, s.mountOf v = some e → s.Has e.process (fun w => w.stage ≠ .running))
    | .waiter p => s.Has p (fun w => w.volumeID = v ∧ w.stage = .closed)
  | .start cmd, s => s.Holds i cmd.volumeID
  | .unmountTarget target, s => ∀ p, i = .waiter p →
      s.Has p (fun w => w.target = target ∧ w.stage = .reaped)
  | .cmdWait p, _ => i = .waiter p
  | .closeDone p, s => i = .waiter p ∧ s.Has p (fun w => w.stage = .reaped)
  | .reply (.ok (.mounted _ p)), s => s.Has p (fun w => w.registered = true)
  | _, _ => True

def Guard (d : Deployment) (A : Steps) (i : Thread) : Request → State → Prop
  | .get _, _ => True
  | .lock k m, s => ⟨i, k, m⟩ ∈ s.locks.waiting
  | .unlock k m, s => ⟨i, k, m⟩ ∈ s.locks.holding
  | .own o, s => Permitted d A i o s

structure Inv (d : Deployment) (A : Steps) (s : State) : Prop where
  tidy : s.locks.Tidy
  coherent : A.Meet FreshGets → s.locks.Coherent
  entry : ∀ v e, s.mountOf v = some e → e.volumeID = v ∧
    s.Has e.process (fun w => w.volumeID = v ∧ w.registered = true)
  returned : ∀ (p : ProcessId) (w : Process), s.processes[p]? = some w → w.returned = true →
    w.registered = true
  registry : A.Orderly → s.Registry
  inventoried : A.Meet SettledLists → d.Serving → s.Inventoried d

def Quiet : Thread → Request → Prop
  | .request _, .own (.probe _) => True
  | .request _, .own .takeoverInProgress => True
  | .request _, .own (.setTakeoverInProgress _) => True
  | .request _, .own .listMounts => True
  | .request _, .own (.terminate _) => True
  | .request _, .own (.setPreserveMountOnExit _ _) => True
  | .request _, .own (.recordMountFD _ _) => True
  | .request _, .own (.unmountTarget _) => True
  | .waiter _, .own (.probe _) => True
  | _, _ => False

section Preservation

variable {d : Deployment} {A : Steps} {s s' : State} {i : Thread}

theorem guard_of_quiet {r : Request} (h : Quiet i r) : Guard d A i r s := by
  unfold Quiet at h
  split at h
  case h_8 =>
    intro p hp
    cases hp
  all_goals trivial

theorem modify_stage_step {stage : Stage} {w : Process} (h : w.stage.rank ≤ stage.rank) :
    w.Step { w with stage := stage } := ⟨rfl, rfl, h, id, id⟩

theorem Inv.calm (h : Inv d A s) (hlocks : s'.locks = s.locks) (hmounts : s'.mounts = s.mounts)
    (hforward : s.Forward s')
    (hback : ∀ (p : ProcessId) (w' : Process), s'.processes[p]? = some w' →
      ∃ w, s.processes[p]? = some w ∧ w.Step w' ∧ (w'.registered = true → w.registered = true) ∧
        (w'.returned = true → w.registered = true))
    (hinventoried : s.Inventoried d → A.Meet SettledLists → s'.Inventoried d) : Inv d A s' where
  tidy := by
    rw [hlocks]
    exact h.tidy
  coherent hfresh := by
    rw [hlocks]
    exact h.coherent hfresh
  entry v e he := by
    rw [State.mountOf, hmounts] at he
    obtain ⟨hvol, hproc⟩ := h.entry v e he
    refine ⟨hvol, hproc.forward hforward ?_⟩
    rintro w w' hstep ⟨hvol, hreg⟩
    exact ⟨hstep.volumeID.trans hvol, hstep.registered hreg⟩
  returned p w' hw' hret := by
    obtain ⟨w, -, hstep, -, hreturned⟩ := hback p w' hw'
    exact hstep.registered (hreturned hret)
  registry horderly := by
    apply (h.registry horderly).of_back hmounts
    intro p w' hw'
    obtain ⟨w, hw, hstep, hreg, -⟩ := hback p w' hw'
    exact ⟨w, hw, hstep, hreg⟩
  inventoried hsettled hserving := hinventoried (h.inventoried hsettled hserving) hsettled

theorem Inv.idle (h : Inv d A s) (hlocks : s'.locks = s.locks) (hmounts : s'.mounts = s.mounts)
    (hprocesses : s'.processes = s.processes)
    (hinventoried : s.Inventoried d → A.Meet SettledLists → s'.Inventoried d) : Inv d A s' := by
  refine h.calm hlocks hmounts (State.forward_of_processes hprocesses) ?_ hinventoried
  intro p w hw
  rw [hprocesses] at hw
  exact ⟨w, hw, .refl w, id, h.returned p w hw⟩

theorem Inv.modify (h : Inv d A s) {p : ProcessId} {f : Process → Process}
    (hf : ∀ w, s.processes[p]? = some w → w.Step (f w) ∧
      ((f w).registered = true → w.registered = true) ∧
      ((f w).returned = true → w.returned = true ∨ w.registered = true)) :
    Inv d A (s.modifyProcess p f) := by
  have hforward : s.Forward (s.modifyProcess p f) :=
    State.forward_modifyProcess (fun w hw => (hf w hw).1)
  refine h.calm rfl rfl hforward ?_ ?_
  · intro q w' hw'
    obtain ⟨w, hw, ⟨rfl, rfl⟩ | ⟨-, rfl⟩⟩ := State.of_modifyProcess hw'
    · obtain ⟨hstep, hreg, hret⟩ := hf w hw
      refine ⟨w, hw, hstep, hreg, fun hretf => ?_⟩
      rcases hret hretf with hret | hreg
      · exact h.returned _ w hw hret
      · exact hreg
    · exact ⟨w', hw, .refl w', id, h.returned q w' hw⟩
  · intro hinv _
    exact hinv.forward rfl rfl rfl (fun _ => id) hforward

theorem Inv.modify_aside (h : Inv d A s) {p : ProcessId} {f : Process → Process}
    (hf : ∀ w : Process, w.Step (f w)) (hreg : ∀ w, (f w).registered = w.registered)
    (hret : ∀ w, (f w).returned = w.returned) : Inv d A (s.modifyProcess p f) := by
  refine h.modify fun w _ => ⟨hf w, fun hr => ?_, fun hr => .inl ?_⟩
  · rw [← hreg w]
    exact hr
  · rw [← hret w]
    exact hr

theorem Inv.advance (h : Inv d A s) {p : ProcessId} {stage : Stage}
    (hstage : s.Has p (fun w => w.stage.rank ≤ stage.rank)) :
    Inv d A (s.modifyProcess p (fun w => { w with stage := stage })) := by
  obtain ⟨w₀, hw₀, hrank⟩ := hstage
  refine h.modify fun w hw => ⟨modify_stage_step ?_, id, .inl⟩
  rw [Option.some.inj (hw.symm.trans hw₀)]
  exact hrank

theorem Inv.exits (h : Inv d A s) (hexit : State.Exits s s') : Inv d A s' := by
  obtain ⟨p, w, hw, hrun, rfl⟩ := hexit
  refine h.advance ⟨w, hw, ?_⟩
  simp only [hrun]
  decide

theorem Inv.erase (h : Inv d A s) {v : String}
    (hregistry : A.Orderly → ∀ e, s.mountOf v = some e →
      s.Has e.process (fun w => w.stopAsked = true ∨ w.stage ≠ .running))
    (hby : s.Busy d i ∨ d.Finalizes i v ∨ s.Buries i v) : Inv d A (s.eraseMount i v) where
  tidy := h.tidy
  coherent := h.coherent
  entry u e he := by
    have hold : s.mountOf u = some e := by
      by_cases huv : u = v
      · subst huv
        simp [State.mountOf, State.eraseMount] at he
      · rw [← he]
        exact (AList.lookup_erase_ne huv).symm
    exact h.entry u e hold
  returned := h.returned
  registry horderly := (h.registry horderly).erase i (hregistry horderly)
  inventoried hsettled hserving := by
    have hinv := h.inventoried hsettled hserving
    rcases hby with ⟨-, hactive⟩ | hby
    -- a busy request excludes open windows
    · apply State.inventoried_of_nil
      by_cases hnil : s.windows = []
      · rw [State.eraseMount, hnil, List.map_nil]
      · rw [(hinv.closed hnil).2] at hactive
        cases hactive
    · exact hinv.erase hby

theorem Inv.put (h : Inv d A s) {v : String} {e : MountEntry}
    (hperm : Permitted d A i (.putMount v e) s) :
    Inv d A (s.after d i (.putMount v e) ()) := by
  obtain ⟨-, hby, hvol, hproc, hsole⟩ := hperm
  have hforward : s.Forward (s.after d i (.putMount v e) ()) :=
    State.forward_modifyProcess (fun w _ => ⟨rfl, rfl, le_rfl, id, fun _ => rfl⟩)
  refine ⟨h.tidy, h.coherent, ?_, ?_, ?_, ?_⟩
  · intro u e' he'
    by_cases huv : u = v
    · subst huv
      obtain rfl : e = e' := by simpa [State.mountOf, State.after] using he'
      obtain ⟨w, hw, hwv⟩ := hproc
      exact ⟨hvol, _, State.getElem?_modifyProcess_self hw, hwv, rfl⟩
    · have hold : s.mountOf u = some e' := by
        rw [← he']
        exact (AList.lookup_insert_ne huv).symm
      obtain ⟨hvol', hproc'⟩ := h.entry u e' hold
      refine ⟨hvol', hproc'.forward hforward ?_⟩
      rintro w w' hstep ⟨hwv, hreg⟩
      exact ⟨hstep.volumeID.trans hwv, hstep.registered hreg⟩
  · intro p w' hw' hret
    obtain ⟨w, hw, ⟨-, rfl⟩ | ⟨-, rfl⟩⟩ := State.of_modifyProcess hw'
    · rfl
    · exact h.returned p w' hw hret
  · intro horderly
    exact (h.registry horderly).put (hsole horderly) hproc
  · intro hsettled hserving
    have hinv := h.inventoried hsettled hserving
    apply State.inventoried_of_nil
    rcases hby with ⟨-, hactive⟩ | ⟨n, mount, fdFile, -, hcall⟩
    · by_contra hne
      rw [(hinv.closed hne).2] at hactive
      cases hactive
    · exact absurd hcall (hserving n mount fdFile)

theorem Inv.start (h : Inv d A s) {cmd : Command} (hclear : A.Meet CleanStarts → s.Clear cmd)
    (p : ProcessId) : Inv d A (s.after d i (.start cmd) (.ok p)) := by
  have hforward : s.Forward (s.after d i (.start cmd) (.ok p)) := State.forward_append _ rfl
  refine ⟨h.tidy, h.coherent, ?_, ?_, ?_, ?_⟩
  · intro v e he
    obtain ⟨hvol, hproc⟩ := h.entry v e he
    refine ⟨hvol, hproc.forward hforward ?_⟩
    rintro w w' hstep ⟨hwv, hreg⟩
    exact ⟨hstep.volumeID.trans hwv, hstep.registered hreg⟩
  · intro q w hw hret
    rcases List.mem_append.mp (List.mem_of_getElem? hw) with hmem | hmem
    · obtain ⟨q', hq'⟩ := List.mem_iff_getElem?.mp hmem
      exact h.returned q' w hq' hret
    · rw [List.mem_singleton.mp hmem] at hret
      cases hret
  · intro horderly
    exact (h.registry horderly).start (hclear horderly.2)
  · intro hsettled hserving
    exact (h.inventoried hsettled hserving).forward rfl rfl rfl (fun _ => id) hforward

theorem Inv.locks (h : Inv d A s) {l : KeyedLock String Thread} (htidy : l.Tidy)
    (hcoherent : A.Meet FreshGets → l.Coherent) : Inv d A { s with locks := l } where
  tidy := htidy
  coherent := hcoherent
  entry := h.entry
  returned := h.returned
  registry horderly := ⟨(h.registry horderly).distinct, (h.registry horderly).sole,
    (h.registry horderly).kept⟩
  inventoried hsettled hserving := (h.inventoried hsettled hserving).forward rfl rfl rfl
    (fun _ => id) (State.forward_of_processes rfl)

theorem Inv.own (h : Inv d A s) {o : Operation} {x : o.Value} (hallowed : A i (.own o) s)
    (hperm : Permitted d A i o s) (hx : s.Answers o x) : Inv d A (s.after d i o x) := by
  cases o with
  | probe q => exact h
  | takeoverInProgress =>
    cases x with
    | true => exact h
    | false =>
      rw [State.after]
      split
      · refine h.idle rfl rfl rfl fun hinv _ => hinv.forward rfl rfl rfl ?_ ?_
        -- the flag was found unset
        · intro htakeover
          rw [← show false = s.takeover from hx] at htakeover
          cases htakeover
        · exact State.forward_of_processes rfl
      · exact h
  | setTakeoverInProgress active =>
    cases active with
    | true =>
      refine h.idle rfl rfl rfl fun hinv _ => ⟨fun hne => ⟨rfl, (hinv.closed hne).2⟩, ?_⟩
      exact fun w hw => (hinv.tracks w hw).forward rfl (State.forward_of_processes rfl)
    | false => exact h.idle rfl rfl rfl fun _ _ => State.inventoried_of_nil rfl
  | listMounts =>
    obtain rfl : x = s.listing := hx
    refine h.idle rfl rfl rfl fun hinv hsettled => ?_
    obtain ⟨htakeover, hactive⟩ := hsettled i _ s hallowed
    exact hinv.list htakeover hactive (fun v e he => (h.entry v e he).1)
  | putMount v e => exact h.put hperm
  | removeMount v =>
    obtain ⟨-, hby, hstop⟩ := hperm
    have herase : Inv d A (s.eraseMount i v) := by
      refine h.erase (fun horderly e he => (hstop horderly e he).mono fun _ => .inl) ?_
      exact hby.imp_right .inl
    exact herase.locks ⟨herase.tidy.locked, herase.tidy.once⟩
      fun hfresh => (herase.coherent hfresh).delete
  | detachMount v =>
    cases i with
    | request n =>
      obtain ⟨hbusy, hgone⟩ := hperm
      exact h.erase (fun horderly e he => (hgone horderly e he).mono fun _ => .inr) (.inl hbusy)
    | waiter p =>
      obtain ⟨w, hw, hvol, hstage⟩ := hperm
      have hrun : w.stage ≠ .running := by
        rw [hstage]
        decide
      have herase : Inv d A (s.eraseMount (.waiter p) v) := by
        refine h.erase (fun horderly e he => ?_) (.inr (.inr ⟨p, rfl, w, hw, hvol, hrun⟩))
        -- the worker is not finished, so the entry is its own
        have hep : p = e.process := by
          by_contra hne
          rw [(h.registry horderly).sole v e he p w hw hvol hne] at hstage
          cases hstage
        rw [← hep]
        exact ⟨w, hw, .inr hrun⟩
      refine herase.advance ⟨w, hw, ?_⟩
      simp only [hstage]
      decide
  | start cmd =>
    cases x with
    | error e => exact h
    | ok p => exact h.start (fun hclean => hclean i _ s hallowed) p
  | terminate p =>
    exact h.modify_aside (fun w => ⟨rfl, rfl, le_rfl, fun _ => rfl, id⟩) (fun _ => rfl) (fun _ => rfl)
  | setPreserveMountOnExit p preserve =>
    exact h.modify_aside (fun w => ⟨rfl, rfl, le_rfl, id, id⟩) (fun _ => rfl) (fun _ => rfl)
  | recordMountFD p fd =>
    exact h.modify_aside (fun w => ⟨rfl, rfl, le_rfl, id, id⟩) (fun _ => rfl) (fun _ => rfl)
  | unmountTarget target => exact h
  | cmdWait p =>
    obtain ⟨w, hw, hstage, -⟩ := hx
    refine h.advance ⟨w, hw, ?_⟩
    simp only [hstage]
    decide
  | closeDone p =>
    obtain ⟨-, w, hw, hstage⟩ := hperm
    refine h.advance ⟨w, hw, ?_⟩
    simp only [hstage]
    decide
  | reply result =>
    have hactive : ∀ {t : State}, Inv d A t →
        Inv d A { t with active := t.active.filter (· ≠ i) } := by
      intro t ht
      refine ht.idle rfl rfl rfl fun hinv _ => hinv.forward rfl rfl rfl ?_ ?_
      · intro _ hnil
        rw [hnil, List.filter_nil]
      · exact State.forward_of_processes rfl
    match result, hperm with
    | .ok (.mounted _ p), hperm =>
      refine hactive (h.modify (p := p) fun w hw => ?_)
      obtain ⟨w', hw', hreg⟩ := hperm
      rw [Option.some.inj (hw'.symm.trans hw)] at hreg
      exact ⟨⟨rfl, rfl, le_rfl, id, id⟩, id, fun _ => .inr hreg⟩
    | .error _, _ => exact hactive h
    | .ok .unmounted, _ => exact hactive h
    | .ok (.inventory _), _ => exact hactive h
    | .ok (.exported _), _ => exact hactive h
    | .ok .finalized, _ => exact hactive h
    | .ok .cancelled, _ => exact hactive h
    | .ok .released, _ => exact hactive h
    | .ok .imported, _ => exact hactive h

theorem Inv.performs (h : Inv d A s) {r : Request} {x : Answer r} (hguard : Guard d A i r s)
    (hallowed : A i r s) (hp : State.Performs d i r s x s') : Inv d A s' := by
  cases r with
  | get k =>
    obtain ⟨-, rfl⟩ := hp
    refine h.locks ⟨h.tidy.locked, h.tidy.once⟩ fun hfresh => ?_
    exact (h.coherent hfresh).get (hfresh i _ s hallowed)
  | lock k m =>
    obtain ⟨hfree, rfl⟩ := hp
    exact h.locks (h.tidy.lock hfree) fun hfresh => (h.coherent hfresh).lock hguard
  | unlock k m =>
    obtain rfl := hp
    exact h.locks (h.tidy.unlock hguard) fun hfresh => (h.coherent hfresh).unlock
  | own o =>
    obtain ⟨hx, rfl⟩ := hp
    exact h.own hallowed hguard hx

end Preservation

def discipline (d : Deployment) (A : Steps) : Discipline Thread Request Answer State where
  toSystem := (system d).under A
  inv := Inv d A
  guard := Guard d A
  quiet := Quiet
  guard_of_quiet _ _ _ hquiet := guard_of_quiet hquiet
  inv_performs _ _ _ _ _ hinv hguard hperforms := hinv.performs hguard hperforms.1 hperforms.2
  inv_env _ _ hinv hexits := hinv.exits hexits

theorem inv_initial (d : Deployment) (A : Steps) : Inv d A .initial where
  tidy := KeyedLock.tidy_empty
  coherent _ := KeyedLock.coherent_empty
  entry v e he := by
    rw [State.mountOf, State.initial, AList.lookup_empty] at he
    cases he
  returned p w hw := by
    rw [State.initial, List.getElem?_nil] at hw
    cases hw
  registry _ := by
    constructor
    · intro p q w w' hw
      rw [State.initial, List.getElem?_nil] at hw
      cases hw
    · intro v e he
      rw [State.mountOf, State.initial, AList.lookup_empty] at he
      cases he
    · intro p w hw
      rw [State.initial, List.getElem?_nil] at hw
      cases hw
  inventoried _ _ := State.inventoried_of_nil rfl

end ClusterState.MountManager
