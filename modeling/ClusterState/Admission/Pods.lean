import ClusterState.Admission.State
import ClusterState.Data.Checks

/-! # Pod observations

The parts of the Kubernetes Pod and Job objects that `maintenance-admission.py`
looks at. A key that is absent, or does not hold a string, is the empty string
here wherever the source tests the value with `text` or compares it with a
non-empty string: both readings are refused alike.
-/

namespace ClusterState.Admission

structure OwnerReference where
  kind : String
  name : String
  uid : String
  controller : Bool
  deriving DecidableEq, Repr

structure ContainerStatus where
  name : Option String
  /-- `state.terminated` is an object. -/
  terminated : Bool
  deriving DecidableEq, Repr

structure Volume where
  name : String
  configMapName : String
  deriving DecidableEq, Repr

structure PodTemplate where
  serviceAccountName : String
  volumes : List Volume
  deriving DecidableEq, Repr

structure Pod where
  ns : String
  name : String
  uid : String
  /-- `none` when `metadata.labels` is not an object. -/
  labels : Option (List (String × String))
  ownerReferences : List OwnerReference
  deletionTimestamp : String
  nodeName : String
  template : PodTemplate
  containers : List String
  initContainers : List String
  ephemeralContainers : List String
  phase : String
  containerStatuses : List ContainerStatus
  initContainerStatuses : List ContainerStatus
  ephemeralContainerStatuses : List ContainerStatus
  deriving DecidableEq, Repr

structure PodList where
  items : List Pod
  /-- `metadata.continue`, empty on a complete list. -/
  continueToken : String
  deriving DecidableEq, Repr

structure Job where
  ns : String
  name : String
  uid : String
  deletionTimestamp : String
  ownerReferences : List OwnerReference
  /-- Annotation `batch.kubernetes.io/cronjob-scheduled-timestamp`. -/
  scheduledTimestamp : Option String
  template : PodTemplate
  deriving DecidableEq, Repr

def Pod.label (pod : Pod) (key : String) : Option String :=
  (pod.labels.getD []).lookup key

def checkItems (ns : String) : List String → List Pod → Except Fault Unit
  | _, [] => .ok ()
  | seen, pod :: rest => do
    require (pod.ns == ns && text pod.uid && text pod.name && !seen.contains pod.uid
      && pod.labels.isSome && text pod.phase) "malformed Pod identity"
    checkItems ns (pod.uid :: seen) rest

def podsOf (ns : String) (value : PodList) : Except Fault (List Pod) := do
  require (value.continueToken == "") "incomplete Pod snapshot"
  checkItems ns [] value.items
  return value.items

def ownerRef (pod : Pod) : Except Fault OwnerReference :=
  match pod.ownerReferences.filter (·.controller) with
  | [owner] =>
    if owner.kind == "Job" && text owner.name && text owner.uid then .ok owner
    else .error (.refuse "missing native Job owner")
  | _ => .error (.refuse "missing native Job owner")

def podIdentity (pod : Pod) : Except Fault Identity := do
  let owner ← ownerRef pod
  return ⟨pod.ns, pod.name, pod.uid, owner.name, owner.uid⟩

def bundle (template : PodTemplate) : Except Fault String :=
  match template.volumes.filter (·.name == "policy") with
  | [volume] => do
    require (text volume.configMapName && volume.configMapName.startsWith "hestia-ci-cache-retention-")
      "wrong policy bundle"
    return volume.configMapName
  | _ => .error (.refuse "missing policy bundle")

/-- One of the three container lists is reported completely and terminated. -/
def allTerminated (names : List String) (statuses : List ContainerStatus) : Bool :=
  statuses.length == names.length
    && statuses.all (fun s => names.any (fun n => s.name == some n))
    && names.all (fun n => statuses.any (fun s => s.name == some n))
    && statuses.all (·.terminated)

/-- The evidence of retirement a single Pod object can carry. -/
def Pod.retired (pod : Pod) : Bool :=
  (pod.phase == "Succeeded" || pod.phase == "Failed")
    && allTerminated pod.containers pod.containerStatuses
    && allTerminated pod.initContainers pod.initContainerStatuses
    && allTerminated pod.ephemeralContainers pod.ephemeralContainerStatuses
    && !pod.containers.isEmpty

def terminal (snapshot : List Pod) (ident : Identity) : Except Fault Bool :=
  match snapshot.filter (fun p => p.ns == ident.ns && p.name == ident.name && p.uid == ident.uid) with
  | [pod] => do
    let observed ← podIdentity pod
    return observed == ident && pod.retired
  | _ => .ok false  -- 404 is not retirement proof

def ciDrainedPod (pod : Pod) : Except Fault Bool := do
  require pod.labels.isSome "missing Pod labels"
  if pod.label "ci.brmartin.co.uk/job" == some "true"
      && pod.label "ci.brmartin.co.uk/maintenance" != some "true" then
    if pod.deletionTimestamp != ""
        || (["Running", "Pending", "Succeeded", "Failed"].contains pod.phase) == false then
      return false
    -- positively assigned to a remote node: its host paths are not Hestia's
    return ["Running", "Pending"].contains pod.phase == false
      || ["heracles", "nyx"].contains pod.nodeName
  return true

def ciDrained : List Pod → Except Fault Bool
  | [] => .ok true
  | pod :: rest => do
    if ← ciDrainedPod pod then ciDrained rest else return false

/-! ## The schedule of a CronJob -/

def digit (c : Char) : Option Nat :=
  if c.isDigit then some (c.toNat - 48) else none

def number (cs : List Char) : Option Nat :=
  cs.foldl (fun n c => do return 10 * (← n) + (← digit c)) (some 0)

def isLeap (year : Nat) : Bool := year % 4 == 0 && (year % 100 != 0 || year % 400 == 0)

def daysInMonth (year month : Nat) : Nat :=
  match month with
  | 2 => if isLeap year then 29 else 28
  | 4 | 6 | 9 | 11 => 30
  | _ => 31

/-- `date.toordinal`: the first of January of year 1 is day 1. -/
def toOrdinal (year month day : Nat) : Nat :=
  let y := year - 1
  365 * y + y / 4 - y / 100 + y / 400
    + ((List.range (month - 1)).map (fun m => daysInMonth year (m + 1))).sum + day

/-- The matched schedule annotation as a POSIX time; a string that is not a
date of the calendar makes `strptime` fail. -/
def parseSchedule (stamp : String) : Except Fault Int :=
  match stamp.toList with
  | [y1, y2, y3, y4, '-', m1, m2, '-', d1, d2, 'T', h1, h2, ':', '4', '7', ':', '0', '0', 'Z'] =>
    match number [y1, y2, y3, y4], number [m1, m2], number [d1, d2], number [h1, h2] with
    | some year, some month, some day, some hour =>
      if 1 ≤ year ∧ 1 ≤ month ∧ month ≤ 12 ∧ 1 ≤ day ∧ day ≤ daysInMonth year month ∧ hour < 24 then
        .ok (((toOrdinal year month day : Int) - 719163) * 86400 + hour * 3600 + 47 * 60)
      else .error .other
    | _, _, _, _ => .error (.refuse "missing exact UTC schedule")
  | _ => .error (.refuse "missing exact UTC schedule")

def cronOwner (job : Job) (cron : String) : Except Fault Unit :=
  match job.ownerReferences with
  | [ref] =>
    require (ref.kind == "CronJob" && ref.name == cron && ref.controller && text ref.uid)
      "not a scheduled native Job"
  | _ => .error (.refuse "not a scheduled native Job")

/-- `scheduled` after the GET of the owning Job. -/
def scheduledOf (pod : Pod) (cron : String) (ident : Identity) (job : Job) : Except Fault Int := do
  let ns := if cron == "hestia-ci-cache-retention" then workerNamespace else controlNamespace
  require (job.uid == ident.jobUid && job.ns == ns && job.name == ident.job) "Job generation changed"
  let sa := if ns == workerNamespace then "hestia-ci-maintenance-worker" else cron
  require (pod.template.serviceAccountName == sa && job.template.serviceAccountName == sa)
    "Job policy or service account changed"
  require ((← bundle job.template) == (← bundle pod.template))
    "Job policy or service account changed"
  cronOwner job cron
  match job.scheduledTimestamp with
  | some stamp => parseSchedule stamp
  | none => .error (.refuse "missing exact UTC schedule")

/-! ## What the checks establish -/

theorem require_bind_eq_ok {α : Type} {c : Bool} {reason : String} {f : Unit → Except Fault α}
    {b : α} : (require c reason >>= f) = .ok b ↔ c = true ∧ f () = .ok b := by
  cases c <;> simp [require, bind, Except.bind]

theorem checkItems_mem {ns : String} {seen : List String} {items : List Pod}
    (h : checkItems ns seen items = .ok ()) {pod : Pod} (hpod : pod ∈ items) :
    pod.ns = ns ∧ text pod.uid = true ∧ text pod.name = true := by
  induction items generalizing seen with
  | nil => cases hpod
  | cons head rest ih =>
    rw [checkItems, require_bind_eq_ok] at h
    obtain ⟨hhead, hrest⟩ := h
    rcases List.mem_cons.mp hpod with rfl | hpod
    · simp only [Bool.and_eq_true, beq_iff_eq] at hhead
      exact ⟨hhead.1.1.1.1.1, hhead.1.1.1.1.2, hhead.1.1.1.2⟩
    · exact ih hrest hpod

theorem podsOf_eq_ok {ns : String} {value : PodList} {items : List Pod}
    (h : podsOf ns value = .ok items) :
    value.items = items ∧ ∀ pod ∈ items, pod.ns = ns ∧ text pod.uid = true ∧ text pod.name = true := by
  rw [podsOf, require_bind_eq_ok] at h
  obtain ⟨_, h⟩ := h
  obtain ⟨_, hcheck, hret⟩ := Data.bind_eq_ok.mp h
  cases hret
  exact ⟨rfl, fun pod => checkItems_mem hcheck⟩

theorem ownerRef_eq_ok {pod : Pod} {owner : OwnerReference} (h : ownerRef pod = .ok owner) :
    text owner.name = true ∧ text owner.uid = true := by
  unfold ownerRef at h
  split at h
  · split at h
    · rename_i hok
      cases h
      simp only [Bool.and_eq_true] at hok
      exact ⟨hok.1.2, hok.2⟩
    · cases h
  · cases h

theorem podIdentity_eq_ok {pod : Pod} {ident : Identity} (h : podIdentity pod = .ok ident) :
    ident.ns = pod.ns ∧ ident.name = pod.name ∧ ident.uid = pod.uid ∧
      text ident.job = true ∧ text ident.jobUid = true := by
  obtain ⟨owner, howner, hret⟩ := Data.bind_eq_ok.mp h
  cases hret
  exact ⟨rfl, rfl, rfl, ownerRef_eq_ok howner⟩

theorem podIdentity_valid {ns : String} {value : PodList} {items : List Pod} {pod : Pod}
    {ident : Identity} (hns : ns = workerNamespace ∨ ns = controlNamespace)
    (hitems : podsOf ns value = .ok items) (hpod : pod ∈ items)
    (hident : podIdentity pod = .ok ident) : ident.Valid ns := by
  obtain ⟨hpns, huid, hname⟩ := (podsOf_eq_ok hitems).2 pod hpod
  obtain ⟨hi1, hi2, hi3, hjob, hjobUid⟩ := podIdentity_eq_ok hident
  have hns' : ident.ns = ns := hi1.trans hpns
  refine ⟨?_, hns'⟩
  have htext : text ident.ns = true := by
    rcases hns with rfl | rfl <;> rw [hns'] <;> decide
  have hmem : (ident.ns == workerNamespace || ident.ns == controlNamespace) = true := by
    rcases hns with rfl | rfl <;> rw [hns'] <;> decide
  simp only [identity, require_bind_eq_ok, require_eq_ok, hmem, htext, hi2, hi3, huid, hname, hjob,
    hjobUid, Bool.and_self, and_self]

/-- A positive answer of `terminal` rests on one Pod object of the snapshot. -/
theorem terminal_eq_true {snapshot : List Pod} {ident : Identity}
    (h : terminal snapshot ident = .ok true) :
    ∃ pod ∈ snapshot, podIdentity pod = .ok ident ∧ pod.retired = true := by
  unfold terminal at h
  split at h
  · rename_i pod hfilter
    obtain ⟨observed, hobs, hret⟩ := Data.bind_eq_ok.mp h
    have hpod : pod ∈ snapshot := List.mem_of_mem_filter (by rw [hfilter]; exact List.mem_singleton_self _)
    simp only [pure, Except.pure, Except.ok.injEq, Bool.and_eq_true, beq_iff_eq] at hret
    exact ⟨pod, hpod, hret.1 ▸ hobs, hret.2⟩
  · cases h

theorem parseSchedule_mod {stamp : String} {slot : Int}
    (h : parseSchedule stamp = .ok slot) : slot % 3600 = 47 * 60 := by
  unfold parseSchedule at h
  split at h
  · split at h
    · split at h
      · cases h
        omega
      · cases h
    · cases h
  · cases h

theorem scheduledOf_mod {pod : Pod} {cron : String} {ident : Identity} {job : Job} {slot : Int}
    (h : scheduledOf pod cron ident job = .ok slot) : slot % 3600 = 47 * 60 := by
  simp only [scheduledOf, Data.bind_eq_ok] at h
  obtain ⟨_, _, _, _, _, _, _, _, _, _, _, _, h⟩ := h
  split at h
  · exact parseSchedule_mod h
  · cases h

end ClusterState.Admission
