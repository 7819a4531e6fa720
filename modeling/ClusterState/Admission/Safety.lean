import ClusterState.Admission.Soundness
import ClusterState.Admission.Execution

/-! # Safety of the maintenance protocol

What holds in every configuration that a run of any number of coordinators,
recovery pods, workers and GC pods can reach.
-/

namespace ClusterState.Admission

open Concurrency

/-! ## What the executions show -/

def savesAlert (i : Identity) (run : Run) : Bool :=
  match run.procs i with
  | .ask (.note (.saving s _ _)) _ => s.phase == .alert && (run.shared.retired.contains i) == false
  | _ => false

def restoresClaimed (i : Identity) (run : Run) : Bool :=
  match run.procs i with
  | .ask (.putRunner _ false) _ =>
    run.shared.state.operation.all (·.claimed) && (run.shared.retired.contains i) == false
  | _ => false

def restoredOnce (run : Run) : Bool :=
  run.shared.log.any (fun e => (e.put false).isSome) &&
    run.shared.log.all (fun e => e.reread.all (fun s => s.phase != .alert ||
      s.operation.all (fun op => !op.restored)))

def putsTwice (run : Run) : Bool :=
  match run.shared.log.filter (fun e => (e.put false).isSome) with
  | [e', e] => (e'.put false).map (·.id) == (e.put false).map (·.id)
  | _ => false

def claimedAfterGc (run : Run) : Bool :=
  run.shared.version == 5 && (run.shared.past 5).phase == .claimed &&
    (run.shared.past 1).gcHolder.isSome

def latchedAlert (run : Run) : Bool :=
  run.shared.version == 2 && (run.shared.past 2).phase == .alert &&
    run.shared.log.any (fun e => (e.put true).isSome) &&
    run.shared.log.all (fun e => e.reread.all (fun s => s.phase != .alert))

def leavesAlert (run : Run) : Bool :=
  run.shared.version == 4 && (run.shared.past 3).phase == .alert &&
    (run.shared.past 4).phase == .closing

def claimsOperation (run : Run) : Bool :=
  run.shared.version == 5 && run.shared.log.all (fun e => e.reread.all (fun s =>
      s.phase != .alert || s.operation.all (fun op => !op.restored))) &&
    match (run.shared.past 4).operation, (run.shared.past 5).operation with
    | some op, some op' => op'.id == op.id && op'.claimed
    | _, _ => false

def changesHolder (run : Run) : Bool :=
  run.shared.version == 15 &&
    match (run.shared.past 14).operation, (run.shared.past 15).operation with
    | some op, some op' => op'.id == op.id && op.holder == some (Sample.recovery 1) &&
        op'.holder == some (Sample.recovery 3)
    | _, _ => false

namespace Sample

def Leads (turns : List (Turn Identity Reply Happening)) (check : Run → Bool) : Prop :=
  (execute turns ⟨deployment.program sha256 "u1", start⟩).any check = true

structure Led : Prop where
  alerts : Leads untilAlert (savesAlert coordinator)
  latches : Leads (untilAlert ++ [Turn.act coordinator saving]) latchedAlert
  activates : Leads untilRestore (restoresClaimed (recovery 1))
  restores : Leads (untilRestore ++ [Turn.act (recovery 1) [Reply.plain]]) restoredOnce
  repeats : Leads restoredTwice fun run => putsTwice run && changesHolder run
  claims : Leads untilClaimed fun run => claimedAfterGc run && claimsOperation run
  leaves : Leads alertBroken leavesAlert

theorem led : Led := by
  constructor
  all_goals
    unfold Leads
    decide +kernel

end Sample

section

variable {d : Deployment} {sha256 : String → String} {run : Run}

/-! ## Validation -/

/-- Every state handed to `Store.save` passes `validate`. -/
theorem saved_states_validate (h : d.Reachable sha256 run) {i : Identity} {s : State}
    {uid policy : String} {next : Answer (.note (.saving s uid policy)) → Api Unit}
    (hask : run.procs i = .ask (.note (.saving s uid policy)) next)
    (halive : i ∉ run.shared.retired) : validate sha256 s uid policy = .ok () :=
  h.permitted hask halive

/-- The alert a coordinator latches after an ambiguous pause. -/
theorem ambiguous_pause_alert_validates : ∃ run s uid policy next,
    Sample.deployment.Reachable Sample.sha256 run ∧
    run.procs Sample.coordinator = .ask (.note (.saving s uid policy)) next ∧ s.phase = .alert ∧
    validate Sample.sha256 s uid policy = .ok () := by
  obtain ⟨run, h, hcheck⟩ := Sample.reachable (Sample.led).alerts
  unfold savesAlert at hcheck
  split at hcheck
  · rename_i s uid policy next hask
    simp only [Bool.and_eq_true, beq_iff_eq, List.contains_eq_mem, decide_eq_false_iff_not] at hcheck
    exact ⟨run, s, uid, policy, next, h, hask, hcheck.1, saved_states_validate h hask hcheck.2⟩
  · cases hcheck

/-! ## Restoration and the worker -/

/-- The runner is not activated again under a live worker. -/
theorem no_unpause_under_live_worker (h : d.Reachable sha256 run)
    (hsha : Set.InjOn sha256 run.shared.generationTexts) :
    (∀ i o next, run.procs i = .ask (.putRunner o false) next → i ∉ run.shared.retired →
      ∃ op, run.shared.state.operation = some op ∧ op.key = o.key ∧
        op.coordinator ∈ run.shared.retired ∧
        (op.claimed = true → ∃ w, op.worker = some w ∧ w ∈ run.shared.retired)) ∧
    (∀ i o x w m y, m.fence = some o.id →
      ¬[⟨w, .note m, y⟩, ⟨i, .putRunner o false, x⟩].Sublist run.shared.log) ∧
    (∀ w id y, ⟨w, .note (.claimReturned id), y⟩ ∈ run.shared.log → w ∉ run.shared.retired →
      (∀ i o x, o.id = id → ⟨i, .putRunner o false, x⟩ ∉ run.shared.log) ∧
      (∀ i o next, o.id = id → i ∉ run.shared.retired →
        run.procs i ≠ .ask (.putRunner o false) next)) := by
  have hinv := h.inv
  refine ⟨?_, ?_, ?_⟩
  · intro i o next hask halive
    obtain ⟨_, _, hrestores, _⟩ := h.permitted hask halive
    obtain ⟨op, hop, hkey, hholder, _⟩ := hrestores rfl
    obtain ⟨hcoord, hworker⟩ := (hinv.current.operation op hop).quiet (by simp [hholder])
    refine ⟨op, hop, hkey, hcoord, fun hclaimed => ?_⟩
    have hsome := (hinv.current.valid.operation op hop).1.claimant hclaimed
    obtain ⟨w, hw⟩ := Option.isSome_iff_exists.mp hsome
    exact ⟨w, hw, hworker hclaimed w hw⟩
  · intro i o x w m y hm hsub
    obtain ⟨pre, hpre, hput⟩ := exists_suffix_of_sublist hsub
    obtain ⟨v, hv, op, hop, hid, hother⟩ := hinv.fences w m o.id y pre hm hpre
    have hmem := hpre.subset (List.mem_cons_of_mem _ hput)
    obtain ⟨u, hu, ho, _⟩ := hinv.restored_in_history hmem
    exact hother i o x hput (hinv.slot_of_id hsha hu hv ho hop hid.symm)
  · intro w id y hmem halive
    have hbound := (hinv.bound w _ id y rfl hmem).resolve_left halive
    refine ⟨fun i o x hid hput => ?_, fun i o next hid hi hask => ?_⟩
    · obtain ⟨op, hop, hopid, hother⟩ := hinv.unrestored hbound
      obtain ⟨u, hu, ho, _⟩ := hinv.restored_in_history hput
      exact hother i o x hput
        (hinv.slot_of_id hsha hu le_rfl ho hop (hid.trans hopid.symm))
    · obtain ⟨_, _, hrestores, _⟩ := h.permitted hask hi
      obtain ⟨op, hop, _, hholder, _⟩ := hrestores rfl
      obtain ⟨op', hop', _, _, _, hnone, _⟩ := hbound
      obtain rfl : op = op' := by simpa [hop] using hop'
      simp [hnone] at hholder

/-- A recovery pod about to restore the runner after a claimed cleanup. -/
theorem restoration_after_claimed_cleanup : ∃ run o next op w,
    Sample.deployment.Reachable Sample.sha256 run ∧
    run.procs (Sample.recovery 1) = .ask (.putRunner o false) next ∧
    run.shared.state.operation = some op ∧ op.key = o.key ∧
    op.coordinator ∈ run.shared.retired ∧ op.claimed = true ∧ op.worker = some w ∧
    w ∈ run.shared.retired := by
  obtain ⟨run, h, hcheck⟩ := Sample.reachable (Sample.led).activates
  unfold restoresClaimed at hcheck
  split at hcheck
  · rename_i o next hask
    simp only [Bool.and_eq_true, beq_iff_eq, List.contains_eq_mem, decide_eq_false_iff_not] at hcheck
    obtain ⟨op, hop, hkey, hcoord, hworker⟩ :=
      (no_unpause_under_live_worker h Sample.sha256_injective.injOn).1 _ o next hask hcheck.2
    have hclaimed : op.claimed = true := by simpa [hop] using hcheck.1
    obtain ⟨w, hw, hret⟩ := hworker hclaimed
    exact ⟨run, o, next, op, w, h, hask, hop, hkey, hcoord, hclaimed, hw, hret⟩
  · cases hcheck

/-! ## Writes to the runner -/

/-- Writes to the runner happen at most once for each operation, and after
their intent, in every run in which no recovery pod looks again at an alert
over a restored operation. -/
theorem runner_written_once_after_intent (h : d.Reachable sha256 run)
    (hsha : Set.InjOn sha256 run.shared.generationTexts)
    (hclean : ¬RereadRestored run.shared.log) :
    (∀ paused i o x j o' y,
      [⟨j, .putRunner o' paused, y⟩, ⟨i, .putRunner o paused, x⟩].Sublist run.shared.log →
        o'.id ≠ o.id) ∧
    (∀ i o x pre, ⟨i, .putRunner o true, x⟩ :: pre <:+ run.shared.log →
      ∃ s op, Saved i s pre ∧ (∃ v ≤ run.shared.version, run.shared.past v = s) ∧
        s.phase = .pauseIntent ∧ s.operation = some op ∧ op.id = o.id ∧ op.write = .pause) ∧
    (∀ i o x pre, ⟨i, .putRunner o false, x⟩ :: pre <:+ run.shared.log →
      PauseAcked o pre ∧
      ∃ s op, Saved i s pre ∧ (∃ v ≤ run.shared.version, run.shared.past v = s) ∧
        s.phase = .restoring ∧ s.operation = some op ∧ op.id = o.id ∧ op.write = .restore ∧
        op.holder = some i) ∧
    (∀ i value, d.role i = some .coordinator →
      baseline i run.shared.log = some (.ok value) → runnerOf value = .ok true →
        ∀ e ∈ run.shared.log, e.who = i → ¬e.request.Writes) := by
  have hinv := h.inv
  refine ⟨?_, ?_, ?_, ?_⟩
  · intro paused i o x j o' y hsub hid
    obtain ⟨pre', hpre', hmem⟩ := exists_suffix_of_sublist hsub
    have hsuffix' := (List.suffix_cons _ _).trans hpre'
    obtain ⟨pre, hpre⟩ := exists_suffix_of_mem (hsuffix'.subset hmem)
    obtain ⟨hput', hintent'⟩ := hinv.puts j o' paused y pre' hpre'
    obtain ⟨_, hintent⟩ := hinv.puts i o paused x pre hpre
    obtain ⟨v, hv, ho', _⟩ := hinv.intent hintent' hsuffix'
    obtain ⟨u, hu, ho, _⟩ := hinv.intent hintent ((List.suffix_cons _ _).trans hpre)
    have hslot := hinv.slot_of_id hsha hu hv ho ho' hid.symm
    have hij := hinv.writer_eq hclean hu hv ho ho' hslot hintent.writer hintent'.writer
    exact hput' _ hmem hij o paused rfl
  · intro i o x pre hpre
    obtain ⟨_, s, hsaved, hop, hphase, hwrite, _⟩ := hinv.puts i o true x pre hpre
    exact ⟨s, o, hsaved, hinv.saved hsaved ((List.suffix_cons _ _).trans hpre), hphase, hop, rfl,
      hwrite⟩
  · intro i o x pre hpre
    obtain ⟨_, hack, s, hsaved, hop, hphase, hwrite, hholder⟩ := hinv.puts i o false x pre hpre
    exact ⟨hack, s, o, hsaved, hinv.saved hsaved ((List.suffix_cons _ _).trans hpre), hphase, hop,
      rfl, hwrite, hholder⟩
  · intro i value hrole hbase hpaused e he hwho hwrites
    obtain ⟨value', hbase', hactive⟩ := hinv.baseline e he (hwho ▸ hrole) hwrites
    rw [hwho, hbase] at hbase'
    obtain rfl : value = value' := by simpa using hbase'
    rw [hpaused] at hactive
    cases hactive

/-- A restoration and what came before it. -/
theorem restoration_has_intent : ∃ run i o x pre,
    Sample.deployment.Reachable Sample.sha256 run ∧ ¬RereadRestored run.shared.log ∧
    ⟨i, .putRunner o false, x⟩ :: pre <:+ run.shared.log ∧ PauseAcked o pre ∧
    ∃ s op, Saved i s pre ∧ s.phase = .restoring ∧ s.operation = some op ∧ op.id = o.id ∧
      op.holder = some i := by
  obtain ⟨run, h, hcheck⟩ := Sample.reachable (Sample.led).restores
  obtain ⟨hput, hclean⟩ := Bool.and_eq_true_iff.mp hcheck
  obtain ⟨e, he, hsome⟩ := List.any_eq_true.mp hput
  obtain ⟨o, ho⟩ := Option.isSome_iff_exists.mp hsome
  obtain ⟨i, x, rfl⟩ := Event.put_eq_some ho
  obtain ⟨pre, hpre⟩ := exists_suffix_of_mem he
  have hclean := not_rereadRestored hclean
  obtain ⟨hack, s, op, hsaved, _, hphase, hop, hid, _, hholder⟩ :=
    (runner_written_once_after_intent h Sample.sha256_injective.injOn hclean).2.2.1 i o x pre hpre
  exact ⟨run, i, o, x, pre, h, hclean, hpre, hack, s, op, hsaved, hphase, hop, hid, hholder⟩

/-- One operation can be restored twice. -/
theorem operation_restored_twice : ¬∀ run, Sample.deployment.Reachable Sample.sha256 run →
    Set.InjOn Sample.sha256 run.shared.generationTexts → ∀ paused i o x j o' y,
      [⟨j, .putRunner o' paused, y⟩, ⟨i, .putRunner o paused, x⟩].Sublist run.shared.log →
        o'.id ≠ o.id := by
  obtain ⟨run, h, hchecks⟩ := Sample.reachable (Sample.led).repeats
  have hcheck := (Bool.and_eq_true_iff.mp hchecks).1
  intro hclaim
  unfold putsTwice at hcheck
  split at hcheck
  · rename_i e' e hfilter
    have hsub : [e', e].Sublist run.shared.log := hfilter ▸ List.filter_sublist
    have hmem : ∀ a ∈ [e', e], (a.put false).isSome := by
      intro a ha
      rw [← hfilter] at ha
      exact (List.mem_filter.mp ha).2
    obtain ⟨o', ho'⟩ := Option.isSome_iff_exists.mp (hmem e' (by simp))
    obtain ⟨o, ho⟩ := Option.isSome_iff_exists.mp (hmem e (by simp))
    obtain ⟨j, y, rfl⟩ := Event.put_eq_some ho'
    obtain ⟨i, x, rfl⟩ := Event.put_eq_some ho
    apply hclaim run h Sample.sha256_injective.injOn false i o x j o' y hsub
    simpa [ho, ho'] using hcheck
  · cases hcheck

/-! ## GC and worker -/

/-- GC and cache worker exclude each other, and the GC slot is given up only
after its holder was seen retired. -/
theorem gc_excludes_worker (h : d.Reachable sha256 run) :
    (∀ v ≤ run.shared.version, (run.shared.past v).phase = .admitted ∨
      (run.shared.past v).phase = .claimed → (run.shared.past v).gcHolder = none) ∧
    (∀ g x w id y, ⟨g, .note .gcReturned, x⟩ ∈ run.shared.log →
      ⟨w, .note (.claimReturned id), y⟩ ∈ run.shared.log →
        g ∈ run.shared.retired ∨ w ∈ run.shared.retired) ∧
    (∀ run', system.Step run run' → run'.shared.version = run.shared.version + 1 →
      ∀ g, run.shared.state.gcHolder = some g → run'.shared.state.gcHolder = some g ∨
        (run'.shared.state.gcHolder = none ∧ ∃ i, Observed i g.identity run.shared.log)) := by
  have hinv := h.inv
  refine ⟨?_, ?_, ?_⟩
  · intro v hv hphase
    have hsane := hinv.sane v hv
    cases hop : (run.shared.past v).operation with
    | none => rcases hsane.valid.missing hop with hp | hp <;> simp [hp] at hphase
    | some op =>
      have hunsealed : op.Unsealed := by
        rcases hphase with hp | hp
        · exact (hsane.stage hop hp).1
        · exact hsane.stage hop hp
      refine (hsane.operation op hop).gcFree ?_ hunsealed.2
      exact hphase.imp_right .inl
  · intro g x w id y hgc hclaim
    rcases hinv.held g x hgc with hg | ⟨t, hheld⟩
    · exact .inl hg
    rcases hinv.bound w _ id y rfl hclaim with hw | ⟨op, hop, _, _, hclaimed, hunsealed⟩
    · exact .inr hw
    have hfree := (hinv.current.operation op hop).gcFree (.inr (.inr hclaimed)) hunsealed.2
    simp [hheld] at hfree
  · intro run' hstep hversion g hg
    rcases h.step hstep with ⟨hsame, _⟩ | ⟨i, _, hcommit⟩
    · omega
    · rcases hcommit.gcKept g hg with hkeep | ⟨hnone, _, hseen⟩
      · exact .inl hkeep
      · exact .inr ⟨hnone, hseen⟩

/-- A worker that claimed after a GC pod gave up its slot. -/
theorem claimed_after_gc : ∃ run, Sample.deployment.Reachable Sample.sha256 run ∧
    (run.shared.past 1).gcHolder.isSome ∧ (run.shared.past 5).phase = .claimed ∧
    (run.shared.past 5).gcHolder = none := by
  obtain ⟨run, h, hchecks⟩ := Sample.reachable (Sample.led).claims
  have hcheck := (Bool.and_eq_true_iff.mp hchecks).1
  simp only [claimedAfterGc, Bool.and_eq_true, beq_iff_eq] at hcheck
  obtain ⟨⟨hversion, hphase⟩, hgc⟩ := hcheck
  exact ⟨run, h, hgc, hphase, (gc_excludes_worker h).1 5 hversion.ge (.inr hphase)⟩

/-! ## The alert -/

/-- An alert is a latch in every run in which no recovery pod looks again at
one: it stays, and no intent is formed after it. -/
theorem alert_is_latched (h : d.Reachable sha256 run) (hclean : ¬RereadAlert run.shared.log) :
    (∀ u v, u ≤ v → v ≤ run.shared.version → (run.shared.past u).phase = .alert →
      (run.shared.past v).phase = .alert) ∧
    (∀ i o paused x v, ⟨i, .putRunner o paused, x⟩ ∈ run.shared.log → v ≤ run.shared.version →
      (run.shared.past v).phase = .alert → ∃ u < v, (run.shared.past u).operation = some o ∧
        (run.shared.past u).phase = if paused then .pauseIntent else .restoring) := by
  have hinv := h.inv
  refine ⟨fun u v huv hv hu => hinv.alert_kept hclean huv hv hu, ?_⟩
  intro i o paused x v hmem hv halert
  obtain ⟨pre, hpre⟩ := exists_suffix_of_mem hmem
  obtain ⟨_, hintent⟩ := hinv.puts i o paused x pre hpre
  obtain ⟨u, hu, hop, hphase⟩ := hinv.intent hintent ((List.suffix_cons _ _).trans hpre)
  refine ⟨u, ?_, hop, hphase⟩
  by_contra hvu
  have := hinv.alert_kept hclean (Nat.le_of_not_lt hvu) hu halert
  rw [this] at hphase
  cases paused <;> cases hphase

/-- The pause that led to an alert had its intent before it. -/
theorem alert_after_intent : ∃ run i o x u, Sample.deployment.Reachable Sample.sha256 run ∧
    ¬RereadAlert run.shared.log ∧ (run.shared.past 2).phase = .alert ∧
    ⟨i, .putRunner o true, x⟩ ∈ run.shared.log ∧ u < 2 ∧
    (run.shared.past u).operation = some o ∧ (run.shared.past u).phase = .pauseIntent := by
  obtain ⟨run, h, hcheck⟩ := Sample.reachable (Sample.led).latches
  simp only [latchedAlert, Bool.and_eq_true, beq_iff_eq] at hcheck
  obtain ⟨⟨⟨hversion, hphase⟩, hput⟩, hclean⟩ := hcheck
  obtain ⟨e, he, hsome⟩ := List.any_eq_true.mp hput
  obtain ⟨o, ho⟩ := Option.isSome_iff_exists.mp hsome
  obtain ⟨i, x, rfl⟩ := Event.put_eq_some ho
  have hclean := not_rereadAlert hclean
  obtain ⟨u, hu, hop, hintent⟩ := (alert_is_latched h hclean).2 i o true x 2 he hversion.ge hphase
  exact ⟨run, i, o, x, u, h, hclean, hphase, he, hu, hop, hintent⟩

/-- An alert can be left without the operator. -/
theorem alert_left : ¬∀ run, Sample.deployment.Reachable Sample.sha256 run →
    ∀ u v, u ≤ v → v ≤ run.shared.version → (run.shared.past u).phase = .alert →
      (run.shared.past v).phase = .alert := by
  obtain ⟨run, h, hcheck⟩ := Sample.reachable (Sample.led).leaves
  simp only [leavesAlert, Bool.and_eq_true, beq_iff_eq] at hcheck
  obtain ⟨⟨hversion, halert⟩, hclosing⟩ := hcheck
  intro hclaim
  have := hclaim run h 3 4 (by omega) hversion.ge halert
  rw [hclosing] at this
  cases this

/-! ## The history of operations -/

/-- Operations only grow from one committed state to the next, in every run in
which no recovery pod looks again at an alert over a restored operation. -/
theorem operations_only_grow (h : d.Reachable sha256 run)
    (hsha : Set.InjOn sha256 run.shared.generationTexts)
    (hclean : ¬RereadRestored run.shared.log) :
    (∀ v < run.shared.version, ∀ op op', (run.shared.past v).operation = some op →
      (run.shared.past (v + 1)).operation = some op' → op'.id = op.id → op.Continues True op') ∧
    (∀ p, p = .admitted ∨ p = .claimed → ∀ u v w, u ≤ v → v ≤ w → w ≤ run.shared.version →
      ∀ op op', (run.shared.past u).operation = some op →
        (run.shared.past w).operation = some op' → op'.id = op.id →
        (run.shared.past u).phase = p → (run.shared.past v).phase ≠ p →
        (run.shared.past w).phase ≠ p) ∧
    (∀ v < run.shared.version, (run.shared.past v).operation.isSome →
      (run.shared.past (v + 1)).operation.isSome) ∧
    (∀ v < run.shared.version, ∀ op', (run.shared.past (v + 1)).operation = some op' →
      (∀ op, (run.shared.past v).operation = some op → op'.id ≠ op.id) →
      ((run.shared.past v).phase = .idle ∨ (run.shared.past v).phase = .done) ∧
        (run.shared.past (v + 1)).phase = .pauseIntent ∧
        ∀ op, (run.shared.past v).operation = some op → op.slot < op'.slot) := by
  have hinv := h.inv
  refine ⟨?_, ?_, ?_, ?_⟩
  · intro v hv op op' hop hop' hid
    have hslot := hinv.slot_of_id hsha hv.le hv hop hop' hid.symm
    obtain ⟨hc, _⟩ := hinv.continues (Nat.le_succ v) hv hop hop' hslot
    exact { hc with holder := fun _ => hc.holder hclean }
  · intro p hp u v w huv hvw hw op op' hop hop' hid hu hpv hpw
    have hslot := hinv.slot_of_id hsha ((huv.trans hvw).trans hw) hw hop hop' hid.symm
    exact hpv (hinv.phase_convex hp huv hvw hw hop hop' hslot hu hpw)
  · intro v hv hsome
    obtain ⟨op, hop⟩ := Option.isSome_iff_exists.mp hsome
    obtain ⟨op', hop', _⟩ := (hinv.later (Nat.le_succ v) hv).2 op hop
    exact Option.isSome_iff_exists.mpr ⟨op', hop'⟩
  · intro v hv op' hop' hnew
    obtain ⟨i, hcommit⟩ := hinv.linked v hv
    exact hcommit.replaces hop' hnew

/-- The step from admission to claim. -/
theorem claim_carries_on : ∃ run op op', Sample.deployment.Reachable Sample.sha256 run ∧
    ¬RereadRestored run.shared.log ∧ (run.shared.past 4).operation = some op ∧
    (run.shared.past 5).operation = some op' ∧ op'.claimed = true ∧ op.Continues True op' := by
  obtain ⟨run, h, hchecks⟩ := Sample.reachable (Sample.led).claims
  have hcheck := (Bool.and_eq_true_iff.mp hchecks).2
  simp only [claimsOperation, Bool.and_eq_true, beq_iff_eq] at hcheck
  obtain ⟨⟨hversion, hclean⟩, hops⟩ := hcheck
  have hclean := not_rereadRestored hclean
  split at hops
  · rename_i op op' hop hop'
    simp only [Bool.and_eq_true, beq_iff_eq] at hops
    exact ⟨run, op, op', h, hclean, hop, hop', hops.2,
      (operations_only_grow h Sample.sha256_injective.injOn hclean).1 4 (by omega) op op' hop hop'
        hops.1⟩
  · cases hops

/-- The holder of an operation can change. -/
theorem holder_replaced : ¬∀ run, Sample.deployment.Reachable Sample.sha256 run →
    Set.InjOn Sample.sha256 run.shared.generationTexts → ∀ v < run.shared.version, ∀ op op',
      (run.shared.past v).operation = some op → (run.shared.past (v + 1)).operation = some op' →
        op'.id = op.id → op.Continues True op' := by
  obtain ⟨run, h, hchecks⟩ := Sample.reachable (Sample.led).repeats
  have hcheck := (Bool.and_eq_true_iff.mp hchecks).2
  simp only [changesHolder, Bool.and_eq_true, beq_iff_eq] at hcheck
  obtain ⟨hversion, hops⟩ := hcheck
  intro hclaim
  split at hops
  · rename_i op op' hop hop'
    simp only [Bool.and_eq_true, beq_iff_eq] at hops
    obtain ⟨⟨hid, hholder⟩, hholder'⟩ := hops
    have hc := hclaim run h Sample.sha256_injective.injOn 14 (by omega) op op' hop hop' hid
    have := hc.holder trivial _ hholder
    rw [hholder'] at this
    revert this
    decide
  · cases hops

end

end ClusterState.Admission
