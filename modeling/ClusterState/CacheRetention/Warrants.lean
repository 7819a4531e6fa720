import ClusterState.CacheRetention.Retaining
import ClusterState.Concurrency.Heeding

/-! # What must be known before anything is removed

Whatever the run is told, and whatever else goes on, it removes a candidate only right
after a second look at it that finds what the first has found, and runs `uv` only after
the same for its cache.
-/

namespace ClusterState.CacheRetention

open ClusterState.Data.PythonText Concurrency

abbrev Answered := (r : Call) × Except Failure r.Result

/-- What the run has been told, latest first. -/
abbrev Log := Answers Call fun r => Except Failure r.Result

section Definitions

variable (settings : Settings) (roots : List Root) (device : Device)

def measured : Answered → Option ℚ
  | ⟨.used _, .ok used⟩ => some used
  | _ => none

/-- The first measurement of the file system. -/
def Pressed (used : ℚ) (log : Log) : Prop := (log.filterMap measured).getLast? = some used

def Unmeasuring (r : Call) : Prop := ∀ path, r ≠ .used path

/-- The last measurement still finds the file system too full. -/
def StillFull (path : Path) (log : Log) : Prop :=
  ∃ used since earlier, log = since ++ ⟨.used path, .ok used⟩ :: earlier ∧ 65 < used ∧
    ∀ e ∈ since, Unmeasuring e.1

def OneDevice (log : Log) : Prop :=
  ∀ root ∈ roots, ∃ st, (⟨.lstat root.path, .ok st⟩ : Answered) ∈ log ∧ st.isDirectory = true ∧
    st.device = device

structure FirstLook (found : Found) (log : Log) : Prop where
  root : found.root ∈ roots
  parent : found.target.root = found.root.path
  kept : skipped found.target = false
  store : found.target.name ∉ storeNames
  directory : ∃ st, (⟨.lstatChild found.target, .ok st⟩ : Answered) ∈ log ∧ st.isDirectory = true
  proof : ∃ mounted busy, (⟨.mounts, .ok mounted⟩ : Answered) ∈ log ∧
    (⟨.opened, .ok busy⟩ : Answered) ∈ log ∧
    (⟨.snapshot found.target (limitsOf found.root device mounted busy) false,
      .ok (found.proof, found.latest)⟩ : Answered) ∈ log

/-- The second look, which begins and ends with the gate. -/
structure SecondLook (found : Found) (mounted busy : List Identity) (st : Metadata) (latest : WithBot ℚ)
    (earlier log : Log) : Prop where
  directory : st.isDirectory = true
  device_eq : st.device = device
  looks : log = ⟨.gate, .ok ()⟩ ::
    ⟨.snapshot found.target (limitsOf found.root device mounted busy) false, .ok (found.proof, latest)⟩ ::
    ⟨.opened, .ok busy⟩ :: ⟨.mounts, .ok mounted⟩ :: ⟨.lstat found.root.path, .ok st⟩ ::
    ⟨.gate, .ok ()⟩ :: earlier

/-- The file system is too full at this moment, and was at first. -/
def Overfull (root : Root) (log : Log) : Prop :=
  ∃ used first earlier, log = ⟨.used root.path, .ok used⟩ :: earlier ∧ 65 < used ∧
    Pressed first earlier ∧ 67 ≤ first

structure Warranted (target : Target) (limits : Limits) (expected : Option Identity) (found : Found)
    (earlier log : Log) : Prop where
  execute : settings.execute = true
  target_eq : target = found.target
  expected_eq : expected = found.proof.2
  oneDevice : OneDevice roots device earlier
  first : FirstLook roots device found earlier
  second : ∃ mounted busy st latest, limits = limitsOf found.root device mounted busy ∧
    SecondLook device found mounted busy st latest earlier log
  due : found.expired settings = true ∨ Overfull found.root earlier

def Qualified (log : Log) : Prop :=
  (⟨.uvDigest, .ok uvSha256⟩ : Answered) ∈ log ∧
    ∃ output, (⟨.uvVersion, .ok (0, output)⟩ : Answered) ∈ log ∧ isUvVersion output = true

/-- When `uv` may clean its cache: after its second proof, which is the first one again. -/
structure UvWarranted (proof : Proof) (latest latest' : WithBot ℚ)
    (mounted busy mounted' busy' : List Identity) (since before log : Log) : Prop where
  execute : settings.execute = true
  looks : log = ⟨.gate, .ok ()⟩ ::
    ⟨.snapshot uvRoot ⟨device, busy', mounted', true⟩ true, .ok (proof, latest')⟩ ::
    (since ++ ⟨.gate, .ok ()⟩ :: before)
  tag : (⟨.readTag cacheTag.length, .ok cacheTag⟩ : Answered) ∈ since
  mounts : (⟨.mounts, .ok mounted'⟩ : Answered) ∈ since
  opened : (⟨.opened, .ok busy'⟩ : Answered) ∈ since
  qualified : Qualified before
  first : (⟨.snapshot uvRoot ⟨device, busy, mounted, true⟩ true, .ok (proof, latest)⟩ : Answered) ∈ before
  oneDevice : OneDevice roots device before
  pressed : ∃ first, Pressed first before ∧ 67 ≤ first
  full : StillFull (firstPath roots) log

def Warrant : Call → Log → Prop
  | .removeTree target limits expected, log =>
    ∃ device found earlier, Warranted settings roots device target limits expected found earlier log
  | .uvClean, log => ∃ device proof latest latest' mounted busy mounted' busy' since before,
    UvWarranted settings roots device proof latest latest' mounted busy mounted' busy' since before log
  | _, _ => True

def Returnable (log : Log) : Prop :=
  settings.execute = true → ∃ first, Pressed first log ∧ (67 ≤ first →
    ∃ used available earlier, log = ⟨.available (firstPath roots), .ok available⟩ ::
      ⟨.used (firstPath roots), .ok used⟩ :: earlier ∧ used ≤ 65 ∧ coldReserve ≤ available)

end Definitions

section Facts

variable {settings : Settings} {roots : List Root} {device : Device} {log : Log} {found : Found}

theorem Pressed.cons {used : ℚ} (e : Answered) (h : Pressed used log) : Pressed used (e :: log) := by
  rw [Pressed, List.filterMap_cons]
  cases measured e with
  | none => exact h
  | some used' =>
    change (used' :: log.filterMap measured).getLast? = some used
    rw [List.getLast?_cons, h]
    rfl

theorem StillFull.cons {path : Path} (r : Call) (x : Except Failure r.Result) (hr : Unmeasuring r)
    (h : StillFull path log) : StillFull path (⟨r, x⟩ :: log) := by
  obtain ⟨used, since, earlier, hlog, hused, hsince⟩ := h
  refine ⟨used, ⟨r, x⟩ :: since, earlier, ?_, hused, List.forall_mem_cons.mpr ⟨hr, hsince⟩⟩
  rw [hlog]
  rfl

theorem OneDevice.cons (e : Answered) (h : OneDevice roots device log) :
    OneDevice roots device (e :: log) := by
  intro root hroot
  obtain ⟨st, hst, hfacts⟩ := h root hroot
  exact ⟨st, List.mem_cons_of_mem _ hst, hfacts⟩

theorem FirstLook.cons (e : Answered) (h : FirstLook roots device found log) :
    FirstLook roots device found (e :: log) where
  root := h.root
  parent := h.parent
  kept := h.kept
  store := h.store
  directory := by
    obtain ⟨st, hst, hdirectory⟩ := h.directory
    exact ⟨st, List.mem_cons_of_mem _ hst, hdirectory⟩
  proof := by
    obtain ⟨mounted, busy, hmounted, hbusy, hproof⟩ := h.proof
    exact ⟨mounted, busy, List.mem_cons_of_mem _ hmounted, List.mem_cons_of_mem _ hbusy,
      List.mem_cons_of_mem _ hproof⟩

theorem mem_cons_of_log {e : Answered} (e' : Answered) (log : Log) (h : e ∈ log) : e ∈ e' :: log :=
  List.mem_cons_of_mem _ h

end Facts

/-! ## The guard -/

section Guarded

variable {settings : Settings} {roots : List Root} {device : Device} {log : Log} {found : Found}

def Free (r : Call) : Prop := ∀ settings roots log, Warrant settings roots r log

theorem heeds_call {r : Call} (h : Warrant settings roots r log) :
    (call r).Heeds (Warrant settings roots) (fun a log' => log' = ⟨r, .ok a⟩ :: log) log :=
  .of_ask h fun _ => rfl

theorem heeds_inquire {r : Call} (h : Warrant settings roots r log) :
    (inquire r).Heeds (Warrant settings roots) (fun x log' => log' = ⟨r, x⟩ :: log) log :=
  ⟨h, fun _ => rfl⟩

theorem heeds_delete (hdevice : OneDevice roots device log) (hfirst : FirstLook roots device found log)
    (hdue : found.expired settings = true ∨ Overfull found.root log) :
    (delete settings device found).Heeds (Warrant settings roots) (fun _ _ => True) log := by
  rw [delete]
  split
  case isFalse => trivial
  case isTrue hexecute =>
    refine (heeds_call (r := .gate) trivial).bind ?_
    rintro _ _ rfl
    refine (heeds_call (r := .lstat found.root.path) trivial).bind ?_
    rintro st _ rfl
    split
    case isFalse => trivial
    case isTrue hroot =>
      rw [Bool.and_eq_true, decide_eq_true_iff] at hroot
      refine (heeds_call (r := .mounts) trivial).bind ?_
      rintro mounted _ rfl
      refine (heeds_call (r := .opened) trivial).bind ?_
      rintro busy _ rfl
      refine (heeds_inquire (r := .snapshot _ _ _) trivial).bind ?_
      rintro x _ rfl
      split
      case h_1 => trivial
      case h_2 => trivial
      case h_3 proof latest =>
        split
        case isFalse => trivial
        case isTrue hproof =>
          subst hproof
          refine (heeds_call (r := .gate) trivial).bind ?_
          rintro _ _ rfl
          refine (heeds_call ?_).mono fun _ _ _ => trivial
          exact ⟨device, found, log, hexecute, rfl, rfl, hdevice, hfirst,
            ⟨mounted, busy, st, latest, rfl, hroot.1, hroot.2, rfl⟩, hdue⟩

/-! ## The survey -/

def Looked (stats : List (Root × Metadata)) (log : Log) : Prop :=
  ∀ p ∈ stats, (⟨.lstat p.1.path, .ok p.2⟩ : Answered) ∈ log

theorem heeds_checkRoots (l : List Root) :
    (checkRoots l).Heeds (Warrant settings roots)
      (fun stats log => stats.map Prod.fst = l ∧ Looked stats log) log := by
  induction l generalizing log with
  | nil => exact ⟨rfl, List.forall_mem_nil _⟩
  | cons root l ih =>
    rw [checkRoots]
    refine (heeds_call (r := .lstat root.path) trivial).bind ?_
    rintro st _ rfl
    refine (ih.keeping (P := fun log => (⟨.lstat root.path, .ok st⟩ : Answered) ∈ log)
      mem_cons_of_log List.mem_cons_self).bind ?_
    rintro stats log ⟨⟨hroots, hlooked⟩, hroot⟩
    exact ⟨congrArg (root :: ·) hroots, List.forall_mem_cons.mpr ⟨hroot, hlooked⟩⟩

theorem heeds_checkKinds (stats : List (Root × Metadata)) :
    (checkKinds stats).Heeds (Warrant settings roots)
      (fun _ log' => log' = log ∧ ∀ p ∈ stats, p.2.isDirectory = true) log := by
  induction stats with
  | nil => exact ⟨rfl, List.forall_mem_nil _⟩
  | cons p stats ih =>
    rw [checkKinds]
    split
    case isTrue h => exact ih.mono fun _ _ h' => ⟨h'.1, List.forall_mem_cons.mpr ⟨h, h'.2⟩⟩
    case isFalse => trivial

theorem device_of_commonDevice {stats : List (Root × Metadata)} (h : commonDevice stats = some device) :
    ∀ p ∈ stats, p.2.device = device := by
  cases stats with
  | nil => cases h
  | cons p stats =>
    rw [commonDevice, Option.ite_none_right_eq_some] at h
    obtain ⟨hall, hdevice⟩ := h
    obtain rfl := Option.some.inj hdevice
    rw [List.all_eq_true] at hall
    exact List.forall_mem_cons.mpr ⟨rfl, fun p hp => of_decide_eq_true (hall p hp)⟩

theorem oneDevice_of_looked {stats : List (Root × Metadata)} (hroots : stats.map Prod.fst = roots)
    (hlooked : Looked stats log) (hkinds : ∀ p ∈ stats, p.2.isDirectory = true)
    (hdevice : ∀ p ∈ stats, p.2.device = device) : OneDevice roots device log := by
  intro root hroot
  rw [← hroots] at hroot
  obtain ⟨p, hp, rfl⟩ := List.mem_map.mp hroot
  exact ⟨p.2, hlooked p hp, hkinds p hp, hdevice p hp⟩

section Collecting

variable {mounted busy : List Identity} {root : Root} {target : Target}

theorem heeds_examine (hroot : root ∈ roots) (hparent : target.root = root.path)
    (hkept : skipped target = false) (hmounts : (⟨.mounts, .ok mounted⟩ : Answered) ∈ log)
    (hopened : (⟨.opened, .ok busy⟩ : Answered) ∈ log) :
    (examine root device mounted busy target).Heeds (Warrant settings roots)
      (fun found => FirstLook roots device found) log := by
  rw [examine]
  refine (heeds_call (r := .lstatChild target) trivial).bind ?_
  rintro st _ rfl
  split
  case isFalse => trivial
  case isTrue hdirectory =>
    split
    case isTrue => trivial
    case isFalse hstore =>
      refine (heeds_call (r := .snapshot _ _ _) trivial).bind ?_
      rintro ⟨proof, latest⟩ _ rfl
      exact {
        root := hroot
        parent := hparent
        kept := hkept
        store := by simpa using hstore
        directory := ⟨st, List.mem_cons_of_mem _ List.mem_cons_self, hdirectory⟩
        proof := ⟨mounted, busy, List.mem_cons_of_mem _ (List.mem_cons_of_mem _ hmounts),
          List.mem_cons_of_mem _ (List.mem_cons_of_mem _ hopened), List.mem_cons_self⟩ }

def AllFound (roots : List Root) (device : Device) (l : List Found) (log : Log) : Prop :=
  ∀ found ∈ l, FirstLook roots device found log

theorem AllFound.cons {l : List Found} (e : Answered) (h : AllFound roots device l log) :
    AllFound roots device l (e :: log) := fun found hfound => (h found hfound).cons e

theorem heeds_collect (hroot : root ∈ roots) (names : List Name)
    (hmounts : (⟨.mounts, .ok mounted⟩ : Answered) ∈ log)
    (hopened : (⟨.opened, .ok busy⟩ : Answered) ∈ log) :
    (collect root device mounted busy names).Heeds (Warrant settings roots)
      (AllFound roots device) log := by
  induction names generalizing log with
  | nil => exact List.forall_mem_nil _
  | cons name names ih =>
    rw [collect]
    split
    case isTrue => exact ih hmounts hopened
    case isFalse hkept =>
      have hlook : (examine root device mounted busy ⟨root.path, name⟩).Heeds (Warrant settings roots)
          (fun found => FirstLook roots device found) log :=
        heeds_examine hroot rfl (Bool.eq_false_iff.mpr hkept) hmounts hopened
      apply ((hlook.attempt.keeping mem_cons_of_log hmounts).keeping mem_cons_of_log hopened).bind
      rintro result log ⟨⟨hresult, hmounts⟩, hopened⟩
      split
      case h_1 found =>
        refine ((ih hmounts hopened).keeping (fun e _ => FirstLook.cons e) (hresult found rfl)).bind ?_
        rintro l log ⟨hl, hfound⟩
        exact List.forall_mem_cons.mpr ⟨hfound, hl⟩
      case h_2 => exact ih hmounts hopened
      case h_3 => trivial

theorem heeds_collectAll (stats : List (Root × Metadata)) (hroots : ∀ p ∈ stats, p.1 ∈ roots)
    (hdevice : ∀ p ∈ stats, p.2.device = device) (hmounts : (⟨.mounts, .ok mounted⟩ : Answered) ∈ log)
    (hopened : (⟨.opened, .ok busy⟩ : Answered) ∈ log) :
    (collectAll mounted busy stats).Heeds (Warrant settings roots) (AllFound roots device) log := by
  induction stats generalizing log with
  | nil => exact List.forall_mem_nil _
  | cons p stats ih =>
    obtain ⟨root, st⟩ := p
    obtain ⟨hroot, hroots⟩ := List.forall_mem_cons.mp hroots
    obtain ⟨rfl, hdevice⟩ := List.forall_mem_cons.mp hdevice
    rw [collectAll]
    refine (heeds_call (r := .iterdir root.path) trivial).bind ?_
    rintro names _ rfl
    have hmounts := mem_cons_of_log ⟨.iterdir root.path, .ok names⟩ _ hmounts
    have hopened := mem_cons_of_log ⟨.iterdir root.path, .ok names⟩ _ hopened
    refine (((heeds_collect hroot (sorted names) hmounts hopened).keeping mem_cons_of_log
      hmounts).keeping mem_cons_of_log hopened).bind ?_
    rintro l log ⟨⟨hl, hmounts⟩, hopened⟩
    refine ((ih hroots hdevice hmounts hopened).keeping (fun e _ => AllFound.cons e) hl).bind ?_
    rintro l' log ⟨hl', hl⟩
    exact List.forall_mem_append.mpr ⟨hl, hl'⟩

end Collecting

/-! ## The deletions -/

theorem heeds_deleteExpired (l : List Found) (hdevice : OneDevice roots device log)
    (hl : AllFound roots device l log) :
    (deleteExpired settings device l).Heeds (Warrant settings roots) (AllFound roots device) log := by
  induction l generalizing log with
  | nil => exact List.forall_mem_nil _
  | cons found l ih =>
    obtain ⟨hfound, hl⟩ := List.forall_mem_cons.mp hl
    have hl : AllFound roots device l log := hl
    rw [deleteExpired]
    split
    case isTrue hexpired =>
      have hdelete := heeds_delete hdevice hfound (.inl hexpired)
      refine ((hdelete.keeping (fun e _ => OneDevice.cons e) hdevice).keeping
        (fun e _ => AllFound.cons e) hl).bind ?_
      rintro _ log ⟨⟨-, hdevice⟩, hl⟩
      exact ih hdevice hl
    case isFalse =>
      refine ((ih hdevice hl).keeping (fun e _ => FirstLook.cons e) hfound).bind ?_
      rintro l' log ⟨hl', hfound⟩
      exact List.forall_mem_cons.mpr ⟨hfound, hl'⟩

section Reclaiming

variable {first : ℚ}

theorem heeds_reclaim (hdevice : OneDevice roots device log) (hfirst : FirstLook roots device found log)
    (hpressed : Pressed first log) :
    (reclaim settings device (decide (67 ≤ first)) found).Heeds (Warrant settings roots)
      (fun _ _ => True) log := by
  rw [reclaim, isOver]
  split
  case isTrue hpressure =>
    rw [decide_eq_true_iff] at hpressure
    refine Program.Heeds.bind (Q := fun full log' => ∃ used, full = decide (65 < used) ∧
      log' = ⟨.used found.root.path, .ok used⟩ :: log) ?_ ?_
    · refine (heeds_call (r := .used found.root.path) trivial).bind ?_
      rintro used _ rfl
      exact ⟨used, rfl, rfl⟩
    · rintro _ _ ⟨used, rfl, rfl⟩
      split
      case isTrue hover =>
        refine heeds_delete (hdevice.cons _) (hfirst.cons _) (.inr ?_)
        exact ⟨used, first, log, rfl, of_decide_eq_true hover, hpressed, hpressure⟩
      case isFalse => trivial
  case isFalse => exact trivial

theorem heeds_reclaimAll (l : List Found) (hdevice : OneDevice roots device log)
    (hl : AllFound roots device l log) (hpressed : Pressed first log) :
    (reclaimAll settings device (decide (67 ≤ first)) l).Heeds (Warrant settings roots)
      (fun _ _ => True) log := by
  induction l generalizing log with
  | nil => trivial
  | cons found l ih =>
    obtain ⟨hfound, hl⟩ := List.forall_mem_cons.mp hl
    have hl : AllFound roots device l log := hl
    rw [reclaimAll]
    refine ((((heeds_reclaim hdevice hfound hpressed).keeping (fun e _ => OneDevice.cons e)
      hdevice).keeping (fun e _ => AllFound.cons e) hl).keeping (fun e _ => Pressed.cons e)
      hpressed).bind ?_
    rintro _ log ⟨⟨⟨-, hdevice⟩, hl⟩, hpressed⟩
    exact ih hdevice hl hpressed

end Reclaiming

end Guarded

end ClusterState.CacheRetention
