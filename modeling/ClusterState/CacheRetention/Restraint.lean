import ClusterState.CacheRetention.Requests
import ClusterState.Concurrency.Execution

/-! # A run under warrants

From its first request to its end the run removes nothing without a warrant. When it
returns although the file system was too full, there is room again.
-/

namespace ClusterState.CacheRetention

open ClusterState.Data.PythonText Concurrency

section Guarded

variable {settings : Settings} {roots : List Root} {device : Device} {log : Log} {found : Found}

/-! ## What does not measure -/

theorem only_delete : (delete settings device found).Only Unmeasuring := by
  rw [delete]
  split
  case isFalse => trivial
  case isTrue =>
    refine (only_call (by simp [Unmeasuring])).bind fun _ => ?_
    refine (only_call (by simp [Unmeasuring])).bind fun root => ?_
    split
    case isFalse => trivial
    case isTrue =>
      refine (only_call (by simp [Unmeasuring])).bind fun _ => ?_
      refine (only_call (by simp [Unmeasuring])).bind fun _ => ?_
      refine (only_inquire (by simp [Unmeasuring])).bind fun x => ?_
      split
      case h_1 => trivial
      case h_2 => trivial
      case h_3 =>
        split
        case isTrue =>
          exact (only_call (by simp [Unmeasuring])).bind fun _ => only_call (by simp [Unmeasuring])
        case isFalse => trivial

theorem only_deleteExpired (l : List Found) : (deleteExpired settings device l).Only Unmeasuring := by
  induction l with
  | nil => trivial
  | cons found l ih =>
    rw [deleteExpired]
    split
    case isTrue => exact only_delete.bind fun _ => ih
    case isFalse => exact ih.bind fun _ => trivial

/-! ## The sweep -/

theorem filterMap_measured_cons {r : Call} {x : Except Failure r.Result} (h : Unmeasuring r)
    (hnone : log.filterMap measured = []) :
    (log.cons ⟨r, x⟩).filterMap measured = [] := by
  rw [List.filterMap_cons, hnone]
  cases r with
  | used path => exact (h path rfl).elim
  | _ => rfl

structure SweptBy (roots : List Root) (first : ℚ) (swept : Swept) (log : Log) : Prop where
  pressure : swept.pressure = decide (67 ≤ first)
  pressed : Pressed first log
  oneDevice : OneDevice roots swept.device log

theorem SweptBy.cons {first : ℚ} {swept : Swept} (e : Answered) (h : SweptBy roots first swept log) :
    SweptBy roots first swept (e :: log) := ⟨h.pressure, h.pressed.cons e, h.oneDevice.cons e⟩

theorem heeds_sweep :
    (sweep settings roots).Heeds (Warrant settings roots)
      (fun swept log => ∃ first, SweptBy roots first swept log) [] := by
  rw [sweep]
  refine ((heeds_checkRoots roots).keeping_only (P := fun log => log.filterMap measured = [])
    (fun r x log => filterMap_measured_cons) ((only_checkRoots roots).mono fun _ => Call.Looks.unmeasuring) rfl).bind ?_
  rintro stats log ⟨⟨hroots, hlooked⟩, hnone⟩
  apply (heeds_checkKinds stats).bind
  rintro _ _ ⟨rfl, hkinds⟩
  split
  case h_1 => trivial
  case h_2 device hcommon =>
    have hdevices := device_of_commonDevice hcommon
    have hdevice := oneDevice_of_looked hroots hlooked hkinds hdevices
    refine (heeds_call (r := .mounts) trivial).bind ?_
    rintro mounted _ rfl
    refine (heeds_call (r := .opened) trivial).bind ?_
    rintro busy _ rfl
    have hnone := filterMap_measured_cons (r := .opened) (x := .ok busy) (by simp [Unmeasuring])
      (filterMap_measured_cons (r := .mounts) (x := .ok mounted) (by simp [Unmeasuring]) hnone)
    have hmem : ∀ p ∈ stats, p.1 ∈ roots := fun p hp => hroots ▸ List.mem_map_of_mem hp
    refine (((heeds_collectAll stats hmem hdevices (List.mem_cons_of_mem _ List.mem_cons_self)
      List.mem_cons_self).keeping (fun e _ => OneDevice.cons e) ((hdevice.cons _).cons _)).keeping_only
      (P := fun log => log.filterMap measured = []) (fun r x log => filterMap_measured_cons)
      ((only_collectAll stats).mono fun _ => Call.Looks.unmeasuring) hnone).bind ?_
    rintro found log ⟨⟨hfound, hdevice⟩, hnone⟩
    have hranked : AllFound roots device (ranked roots found) log := fun f hf =>
      hfound f ((List.mem_insertionSort _).mp hf)
    refine (((heeds_deleteExpired _ hdevice hranked).keeping (fun e _ => OneDevice.cons e)
      hdevice).keeping_only (P := fun log => log.filterMap measured = [])
      (fun r x log => filterMap_measured_cons) (only_deleteExpired _) hnone).bind ?_
    rintro remaining log ⟨⟨hremaining, hdevice⟩, hnone⟩
    refine (heeds_call (r := .used (firstPath roots)) trivial).bind ?_
    rintro first _ rfl
    have hpressed : Pressed first (⟨.used (firstPath roots), .ok first⟩ :: log) := by
      rw [Pressed, List.filterMap_cons, hnone]
      rfl
    refine (((heeds_reclaimAll remaining (hdevice.cons _) (hremaining.cons _) hpressed).keeping
      (fun e _ => OneDevice.cons e) (hdevice.cons _)).keeping (fun e _ => Pressed.cons e)
      hpressed).bind ?_
    rintro _ log ⟨⟨-, hdevice⟩, hpressed⟩
    exact ⟨first, rfl, hpressed, hdevice⟩

/-! ## The cache of `uv` -/

section Uv

variable {mounted busy : List Identity}

theorem heeds_checkAncestors (l : List Path) :
    (checkAncestors l).Heeds (Warrant settings roots) (fun _ _ => True) log := by
  induction l generalizing log with
  | nil => trivial
  | cons path l ih =>
    rw [checkAncestors]
    refine (heeds_call (r := .lstat path) trivial).bind fun st _ _ => ?_
    split
    case isTrue => exact ih.bind fun _ _ _ => trivial
    case isFalse => trivial

theorem heeds_checkUvEntries (names : List Name) :
    (checkUvEntries names).Heeds (Warrant settings roots) (fun _ _ => True) log := by
  induction names generalizing log with
  | nil => trivial
  | cons name names ih =>
    rw [checkUvEntries]
    refine (heeds_call (r := .lstatChild _) trivial).bind fun st _ _ => ?_
    split
    case isTrue => exact ih
    case isFalse => trivial

theorem heeds_checkUvRoot :
    (checkUvRoot device mounted busy).Heeds (Warrant settings roots) (fun _ _ => True) log := by
  rw [checkUvRoot]
  refine (heeds_call (r := .lstat _) trivial).bind fun parent _ _ => ?_
  split
  case isFalse => trivial
  case isTrue =>
    refine (heeds_call (r := .readOnly _) trivial).bind fun readOnly _ _ => ?_
    split
    case isTrue => trivial
    case isFalse =>
      refine (heeds_call (r := .lstat _) trivial).bind fun st _ _ => ?_
      refine Program.Heeds.ofExcept.bind fun _ _ _ => ?_
      split
      case isTrue => trivial
      case isFalse => trivial

theorem heeds_checkUvTag :
    checkUvTag.Heeds (Warrant settings roots)
      (fun _ log' => ∃ between,
        log' = ⟨.readTag cacheTag.length, .ok cacheTag⟩ :: (between ++ log)) log := by
  rw [checkUvTag]
  refine (heeds_call (r := .openTag) trivial).bind ?_
  rintro _ _ rfl
  refine (heeds_call (r := .fstatTag) trivial).bind ?_
  rintro st _ rfl
  split
  case isFalse => trivial
  case isTrue =>
    refine (heeds_call (r := .readTag _) trivial).bind ?_
    rintro tag _ rfl
    split
    case isFalse => trivial
    case isTrue htag =>
      subst htag
      exact ⟨[⟨.fstatTag, .ok st⟩, ⟨.openTag, .ok ()⟩], rfl⟩

/-- The proof is the last thing looked at, after the tag. -/
theorem heeds_uvProof :
    (uvProof device mounted busy).Heeds (Warrant settings roots) (fun p log' => ∃ latest between,
      log' = ⟨.snapshot uvRoot ⟨device, busy, mounted, true⟩ true, .ok (p.2, latest)⟩ ::
        ⟨.readTag cacheTag.length, .ok cacheTag⟩ :: (between ++ log)) log := by
  rw [uvProof]
  apply (heeds_checkAncestors uvAncestors).suffix.bind
  rintro ancestors _ ⟨-, before₁, rfl⟩
  apply heeds_checkUvRoot.suffix.bind
  rintro _ _ ⟨-, before₂, rfl⟩
  refine (heeds_call (r := .iterdir uvRoot.path) trivial).bind ?_
  rintro names _ rfl
  apply (heeds_checkUvEntries names).suffix.bind
  rintro _ _ ⟨-, before₃, rfl⟩
  apply heeds_checkUvTag.bind
  rintro _ _ ⟨before₄, rfl⟩
  refine (heeds_call (r := .snapshot _ _ _) trivial).bind ?_
  rintro ⟨proof, latest⟩ _ rfl
  refine ⟨latest, before₄ ++ (before₃ ++ ⟨.iterdir uvRoot.path, .ok names⟩ :: (before₂ ++ before₁)), ?_⟩
  simp only [List.append_assoc, List.cons_append]

theorem heeds_qualifyUv :
    qualifyUv.Heeds (Warrant settings roots) (fun _ => Qualified) log := by
  rw [qualifyUv]
  refine (heeds_call (r := .uvDigest) trivial).bind ?_
  rintro digest _ rfl
  split
  case isFalse => trivial
  case isTrue hdigest =>
    subst hdigest
    refine (heeds_call (r := .uvVersion) trivial).bind ?_
    rintro ⟨status, output⟩ _ rfl
    dsimp only
    split
    case isFalse => trivial
    case isTrue h =>
      rw [Bool.and_eq_true, decide_eq_true_iff] at h
      obtain ⟨rfl, hversion⟩ := h
      exact ⟨List.mem_cons_of_mem _ List.mem_cons_self, output, List.mem_cons_self, hversion⟩

/-- The file system has been too full, and still was when it was last measured. -/
structure Pressing (settings : Settings) (roots : List Root) (device : Device) (first : ℚ)
    (log : Log) : Prop where
  execute : settings.execute = true
  oneDevice : OneDevice roots device log
  full : StillFull (firstPath roots) log
  pressed : Pressed first log
  first : 67 ≤ first

theorem Pressing.cons {first : ℚ} (r : Call) (x : Except Failure r.Result) (hr : Unmeasuring r)
    (h : Pressing settings roots device first log) :
    Pressing settings roots device first (⟨r, x⟩ :: log) where
  execute := h.execute
  oneDevice := h.oneDevice.cons _
  full := h.full.cons r x hr
  pressed := h.pressed.cons _
  first := h.first

/-- It goes on pressing while nothing is measured. -/
theorem Pressing.keep {α : Type} {first : ℚ} {Q : α → Log → Prop} {m : Retain α}
    (h : Pressing settings roots device first log) (hm : m.Heeds (Warrant settings roots) Q log)
    (honly : m.Only Unmeasuring) : m.Heeds (Warrant settings roots)
      (fun a log => Q a log ∧ Pressing settings roots device first log) log :=
  hm.keeping_only (fun r x _ hr h => h.cons r x hr) honly h

theorem heeds_cleanUv {first : ℚ} (h : Pressing settings roots device first log) :
    (cleanUv device mounted busy).Heeds (Warrant settings roots) (fun _ _ => True) log := by
  rw [cleanUv]
  refine (h.keep (heeds_inquire (r := .lstat uvRoot.path) trivial)
    (only_inquire (by simp [Unmeasuring]))).bind ?_
  rintro x _ ⟨rfl, h⟩
  split
  case h_1 => trivial
  case h_2 => trivial
  case h_3 =>
    apply (h.keep heeds_uvProof (only_uvProof.mono fun _ => Call.Looks.unmeasuring)).bind
    rintro ⟨ancestors, proof⟩ log₁ ⟨⟨latest, between, hlog₁⟩, h⟩
    have hfirst : (⟨.snapshot uvRoot ⟨device, busy, mounted, true⟩ true, .ok (proof, latest)⟩ : Answered) ∈
        log₁ := by
      rw [hlog₁]
      exact List.mem_cons_self
    apply (h.keep (heeds_qualifyUv.keeping mem_cons_of_log hfirst) (only_qualifyUv.mono fun _ => Call.Looks.unmeasuring)).bind
    rintro _ log₂ ⟨⟨hqualified, hfirst⟩, hbefore⟩
    refine (hbefore.keep (heeds_call (r := .gate) trivial) (only_call (by simp [Unmeasuring]))).bind ?_
    rintro _ _ ⟨rfl, h⟩
    refine (h.keep (heeds_call (r := .mounts) trivial) (only_call (by simp [Unmeasuring]))).bind ?_
    rintro mounted' _ ⟨rfl, h⟩
    refine (h.keep (heeds_call (r := .opened) trivial) (only_call (by simp [Unmeasuring]))).bind ?_
    rintro busy' _ ⟨rfl, h⟩
    apply (h.keep heeds_uvProof (only_uvProof.mono fun _ => Call.Looks.unmeasuring)).bind
    rintro current _ ⟨⟨latest', between', rfl⟩, h⟩
    split
    case isFalse => trivial
    case isTrue hcurrent =>
      subst hcurrent
      refine (h.keep (heeds_call (r := .gate) trivial) (only_call (by simp [Unmeasuring]))).bind ?_
      rintro _ _ ⟨rfl, h⟩
      refine Program.Heeds.bind (heeds_call ?_) ?_
      · refine ⟨device, proof, latest, latest', mounted, busy, mounted', busy',
          ⟨.readTag cacheTag.length, .ok cacheTag⟩ ::
            (between' ++ [⟨.opened, .ok busy'⟩, ⟨.mounts, .ok mounted'⟩]), log₂, ?_⟩
        exact {
          execute := h.execute
          looks := by simp only [List.append_assoc, List.cons_append, List.nil_append]
          tag := List.mem_cons_self
          mounts := by simp
          opened := by simp
          qualified := hqualified
          first := hfirst
          oneDevice := hbefore.oneDevice
          pressed := ⟨first, hbefore.pressed, hbefore.first⟩
          full := h.full }
      · rintro status _ rfl
        split
        case isTrue => trivial
        case isFalse => trivial

theorem heeds_checkUvParents (stats : List (Root × Metadata)) :
    (checkUvParents stats).Heeds (Warrant settings roots) (fun _ _ => True) log := by
  induction stats generalizing log with
  | nil => trivial
  | cons p stats ih =>
    rw [checkUvParents]
    split
    case isTrue =>
      refine (heeds_call (r := .lstat _) trivial).bind fun st _ _ => ?_
      split
      case isTrue => exact ih
      case isFalse => trivial
    case isFalse => exact ih

end Uv

/-! ## The run -/

theorem heeds_finalUsage {swept : Swept} {first : ℚ} (h : SweptBy roots first swept log) :
    (finalUsage settings roots swept).Heeds (Warrant settings roots) (fun final log' =>
      Pressed first log' ∧ ∃ earlier, log' = ⟨.used (firstPath roots), .ok final⟩ :: earlier) log := by
  rw [finalUsage]
  refine (heeds_call (r := .used (firstPath roots)) trivial).bind ?_
  rintro final _ rfl
  have h := h.cons ⟨.used (firstPath roots), .ok final⟩
  split
  case isFalse => exact ⟨h.pressed, log, rfl⟩
  case isTrue hover =>
    simp only [Bool.and_eq_true, decide_eq_true_iff] at hover
    obtain ⟨⟨hexecute, hpressure⟩, hover⟩ := hover
    have hpressing : Pressing settings roots swept.device first
        (⟨.used (firstPath roots), .ok final⟩ :: log) := {
      execute := hexecute
      oneDevice := h.oneDevice
      full := ⟨final, [], log, rfl, hover, List.forall_mem_nil _⟩
      pressed := h.pressed
      first := of_decide_eq_true (h.pressure.symm.trans hpressure) }
    apply (hpressing.keep (heeds_checkUvParents swept.roots) ((only_checkUvParents _).mono fun _ => Call.Looks.unmeasuring)).bind
    rintro _ log₁ ⟨-, hpressing⟩
    refine ((heeds_cleanUv hpressing).keeping (fun e _ => Pressed.cons e) hpressing.pressed).bind ?_
    rintro _ log₂ ⟨-, hpressed⟩
    refine (heeds_call (r := .used (firstPath roots)) trivial).mono ?_
    rintro final' _ rfl
    exact ⟨hpressed.cons _, log₂, rfl⟩

theorem heeds_retain :
    (retain settings roots).Heeds (Warrant settings roots) (fun _ => Returnable settings roots) [] := by
  rw [retain]
  apply heeds_sweep.bind
  rintro swept log ⟨first, h⟩
  have hpressure := h.pressure
  apply (heeds_finalUsage h).bind
  rintro final _ ⟨hpressed, earlier, rfl⟩
  split
  case isFalse hnot =>
    intro hexecute
    refine ⟨first, hpressed, fun hfirst => ?_⟩
    rw [hexecute, hpressure, decide_eq_true hfirst] at hnot
    exact (hnot rfl).elim
  case isTrue =>
    split
    case isTrue => trivial
    case isFalse hfinal =>
      refine (heeds_call (r := .available (firstPath roots)) trivial).bind ?_
      rintro available _ rfl
      split
      case isTrue => trivial
      case isFalse havailable =>
        refine fun _ => ⟨first, hpressed.cons _, fun _ => ⟨final, available, earlier, rfl, ?_, ?_⟩⟩
        · exact not_lt.mp hfinal
        · exact not_lt.mp havailable

end Guarded

/-! ## Results -/

section Results

variable {S : Type} {performs : (r : Call) → S → Except Failure r.Result → S → Prop} {s : S}
  {settings : Settings} {roots : List Root}

abbrev Going (S : Type) :=
  Config PUnit.{1} Call (fun r => Except Failure r.Result) Failure Unit
    (Logged Call (fun r => Except Failure r.Result) S)

/-- The run gets there, in surroundings of which nothing is assumed. -/
def Gets (performs : (r : Call) → S → Except Failure r.Result → S → Prop) (s : S) (settings : Settings)
    (roots : List Root) (c : Going S) : Prop :=
  (System.alone (Logged.performs performs)).Reaches ⟨fun _ => retain settings roots, ⟨s, []⟩⟩ c

/-- At whatever point the run asks for a tree to be removed, or for `uv` to clean its cache, it
has the warrant. -/
theorem destroys_only_under_warrant {c : Going S} (hrun : Gets performs s settings roots c) {r : Call}
    {next : Except Failure r.Result → Retain Unit} (hask : c.procs ⟨⟩ = .ask r next) :
    Warrant settings roots r c.shared.log := by
  have h := heeds_retain.reaches hrun
  rw [hask] at h
  exact h.1

/-- A run that comes to its end has made room, if there was need. -/
theorem returns_only_with_room {c : Going S} (hrun : Gets performs s settings roots c)
    (hdone : c.procs ⟨⟩ = .done ()) : Returnable settings roots c.shared.log := by
  have h := heeds_retain.reaches hrun
  rw [hdone] at h
  exact h

end Results

/-! ## A run -/

namespace Sample

def directory (device : Device) (ino : Nat) : Metadata := ⟨⟨device, ino⟩, ⟨0o040755, 0, 0, 4096, 0, 0⟩⟩

def regularFile (device : Device) (ino : Nat) : Metadata := ⟨⟨device, ino⟩, ⟨0o100644, 0, 0, 43, 0, 0⟩⟩

def settings : Settings where
  execute := true
  expires days := 10000000 - 86400 * days

def root : Root := ⟨workspaceRoot, 7⟩

/-- One workspace and a cache of `uv`, with the measurements as they come. -/
def answer (used : ℚ) : (r : Call) → Except Failure r.Result
  | .lstat _ => .ok (directory (8, 1) 2)
  | .iterdir path => .ok (if path = uvRoot.path then [codePoints "wheels-v5"] else [codePoints "build"])
  | .lstatChild _ => .ok (directory (8, 1) 3)
  | .snapshot _ _ _ => .ok (("proof".toList, some ((8, 1), 3)), (10000000 : ℚ))
  | .removeTree _ _ _ => .ok ()
  | .mounts => .ok []
  | .opened => .ok []
  | .gate => .ok ()
  | .used _ => .ok used
  | .available _ => .ok (2 * coldReserve)
  | .readOnly _ => .ok false
  | .openTag => .ok ()
  | .fstatTag => .ok (regularFile (8, 1) 4)
  | .readTag _ => .ok cacheTag
  | .uvDigest => .ok uvSha256
  | .uvVersion => .ok (0, "uv 0.11.26 ()\n".toList)
  | .uvClean => .ok 0

def performs (r : Call) (_ : Unit) (x : Except Failure r.Result) (_ : Unit) : Prop :=
  ∃ used, x = answer used r

def responder : Responder (System.alone (Logged.performs performs)) ℚ Empty where
  respond _ r s used := some (answer used r, ⟨(), ⟨r, answer used r⟩ :: s.log⟩)
  happen e := e.elim
  performs_of_respond := by
    intro _ r s used x s' h
    cases h
    exact ⟨⟨used, rfl⟩, rfl⟩
  env_of_happen {e} := e.elim

def begun : Going Unit := ⟨fun _ => retain settings [root], ⟨(), []⟩⟩

def isRemoval : Retain Unit → Bool
  | .ask (.removeTree _ _ _) _ => true
  | _ => false

def isCleaning : Retain Unit → Bool
  | .ask .uvClean _ => true
  | _ => false

def returned : Retain Unit → Bool
  | .done _ => true
  | _ => false

theorem exists_removal : ∃ c, Gets performs () settings [root] c ∧ isRemoval (c.procs ⟨⟩) = true := by
  have hrun : (responder.execute [.act ⟨⟩ (List.replicate 14 70)] begun).any
      (fun c => isRemoval (c.procs ⟨⟩)) = true := by
    decide +kernel
  exact Responder.exists_reaches hrun

theorem exists_cleaning : ∃ c, Gets performs () settings [root] c ∧ isCleaning (c.procs ⟨⟩) = true := by
  have hrun : (responder.execute [.act ⟨⟩ (List.replicate 49 70)] begun).any
      (fun c => isCleaning (c.procs ⟨⟩)) = true := by
    decide +kernel
  exact Responder.exists_reaches hrun

theorem exists_return : ∃ c, Gets performs () settings [root] c ∧ returned (c.procs ⟨⟩) = true := by
  have hrun : (responder.execute [.act ⟨⟩ (List.replicate 15 70 ++ [60, 60])] begun).any
      (fun c => returned (c.procs ⟨⟩)) = true := by
    decide +kernel
  exact Responder.exists_reaches hrun

theorem eq_ask_of_isRemoval {m : Retain Unit} (h : isRemoval m = true) :
    ∃ target limits expected next, m = .ask (.removeTree target limits expected) next := by
  cases m with
  | ask r next =>
    cases r with
    | removeTree target limits expected => exact ⟨target, limits, expected, next, rfl⟩
    | _ => cases h
  | _ => cases h

theorem eq_ask_of_isCleaning {m : Retain Unit} (h : isCleaning m = true) :
    ∃ next, m = .ask .uvClean next := by
  cases m with
  | ask r next =>
    cases r with
    | uvClean => exact ⟨next, rfl⟩
    | _ => cases h
  | _ => cases h

theorem eq_done_of_returned {m : Retain Unit} (h : returned m = true) : m = .done () := by
  cases m with
  | done _ => rfl
  | _ => cases h

end Sample

/-- A workspace is removed while the file system is too full, and then `uv` cleans its cache. -/
theorem destroys_only_under_warrant_build :
    (∃ (c : Going Unit) (target : Target) (limits : Limits) (expected : Option Identity),
      (∃ next, c.procs ⟨⟩ = .ask (.removeTree target limits expected) next) ∧
        Warrant Sample.settings [Sample.root] (.removeTree target limits expected) c.shared.log) ∧
      ∃ c : Going Unit, (∃ next, c.procs ⟨⟩ = .ask .uvClean next) ∧
        Warrant Sample.settings [Sample.root] .uvClean c.shared.log := by
  constructor
  · obtain ⟨c, hrun, hremoval⟩ := Sample.exists_removal
    obtain ⟨target, limits, expected, next, hask⟩ := Sample.eq_ask_of_isRemoval hremoval
    exact ⟨c, target, limits, expected, ⟨next, hask⟩, destroys_only_under_warrant hrun hask⟩
  · obtain ⟨c, hrun, hcleaning⟩ := Sample.exists_cleaning
    obtain ⟨next, hask⟩ := Sample.eq_ask_of_isCleaning hcleaning
    exact ⟨c, ⟨next, hask⟩, destroys_only_under_warrant hrun hask⟩

/-- The removal has made enough room. -/
theorem returns_only_with_room_build : ∃ c : Going Unit, c.procs ⟨⟩ = .done () ∧
    Returnable Sample.settings [Sample.root] c.shared.log := by
  obtain ⟨c, hrun, hreturned⟩ := Sample.exists_return
  have hdone := Sample.eq_done_of_returned hreturned
  exact ⟨c, hdone, returns_only_with_room hrun hdone⟩

end ClusterState.CacheRetention
