import ClusterState.Admission.Pods

/-! # Requests of the maintenance pods

Every interaction of `maintenance-admission.py` with its surroundings: the
state ConfigMap, Pod and Job observations, the GitLab runner, and the clock. A
pod is a `Program` over these requests; anything between two requests is local.
-/

namespace ClusterState.Admission

open Concurrency

/-- The state object. Its resource version is a counter of commits: an opaque
string in Kubernetes, of which only equality is ever used. -/
structure ConfigMap where
  kind : String
  name : String
  ns : String
  uid : String
  resourceVersion : Nat
  deletionTimestamp : String
  data : State
  deriving DecidableEq, Repr

structure RunnerValue where
  id : Option Int
  paused : Option Bool
  deriving DecidableEq, Repr

structure JobRow where
  id : Option Int
  status : Option String
  deriving DecidableEq, Repr

structure JobsPage where
  /-- `none` when the answer is not a list. -/
  values : Option (List JobRow)
  headers : List (String × Option String)
  deriving DecidableEq, Repr

/-- Which read of the source a GET of the state belongs to: the first look at
it in a decision, the confirmation inside `Store.save`, or one of the rereads
of `recover` after such a confirmation. The API server cannot tell them apart. -/
inductive ReadSite where
  | entry | readback | again
  deriving DecidableEq, Repr

/-- Points of the source that a statement about runs has to name: a call of
`Store.save`, before anything is done with the state it is given, and the
normal return of `claim`, `check` and `gc_claim`. -/
inductive Mark where
  | saving (state : State) (uid policy : String)
  | claimReturned (operation : String)
  | checkReturned (operation : String)
  | gcReturned
  deriving DecidableEq, Repr

inductive Request where
  | getState (site : ReadSite)
  | putState (desired : ConfigMap)
  | getPods (ns : String)
  | getJob (ns name : String)
  | getRunner
  /-- The PUT on `/runners/2`. Only `paused` is sent; `operation` is the one it
  is issued for, as the pod that issues it has it. -/
  | putRunner (operation : Operation) (paused : Bool)
  | getJobs (status page : String)
  /-- The `gate` argument of `gc_claim`. -/
  | gate
  | now
  | note (mark : Mark)
  deriving DecidableEq, Repr

def Value : Request → Type
  | .getState _ => ConfigMap
  | .putState _ => Unit
  | .getPods _ => PodList
  | .getJob _ _ => Job
  | .getRunner => RunnerValue
  | .putRunner _ _ => Unit
  | .getJobs _ _ => JobsPage
  | .gate => Unit
  | .now => ℚ
  | .note _ => Unit

/-- Any request may fail, the clock included: the alarm of `main` raises
between any two instructions. -/
abbrev Answer (r : Request) : Type := Except Fault (Value r)

abbrev Api (α : Type) := Program Request Answer Fault α

def lift {α : Type} : Except Fault α → Api α
  | .ok a => .done a
  | .error e => .raise e

instance : MonadLift (Except Fault) (Program Request Answer Fault) := ⟨lift⟩

def call (r : Request) : Api (Value r) := .ask r lift

def now : Api ℚ := call .now

/-- `state['operation'][...]` on a missing operation is a `TypeError`. -/
def theOperation (state : State) : Except Fault Operation :=
  match state.operation with
  | some op => .ok op
  | none => .error .other

theorem theOperation_eq_ok {state : State} {op : Operation} :
    theOperation state = .ok op ↔ state.operation = some op := by
  cases h : state.operation <;> simp [theOperation, h]

section Store

variable (sha256 : String → String)

/-- `uid` is the field that the first read fills in. The state object is never
replaced while the pods run, so it is the uid of that object from the start. -/
structure Store where
  policy : String
  uid : String
  deriving DecidableEq, Repr

def Store.read (store : Store) (site : ReadSite) : Api (ConfigMap × State) := do
  let cm : ConfigMap ← call (.getState site)
  require (cm.kind == "ConfigMap") "invalid state object"
  require (cm.name == "hestia-ci-maintenance-state" && cm.ns == "ci-maintenance" && text cm.uid
    && cm.deletionTimestamp == "") "invalid state metadata"
  require (store.uid == cm.uid) "state object replaced"
  validate sha256 cm.data store.uid store.policy
  return (cm, cm.data)

def Store.save (store : Store) (cm : ConfigMap) (state : State) : Api State := do
  let _ ← call (.note (.saving state store.uid store.policy))
  validate sha256 state store.uid store.policy
  -- the PUT retains the exact uid and resourceVersion
  let _ ← call (.putState { cm with data := state })
  let (_, observed) ← store.read sha256 .readback
  require (observed == state) "CAS readback not confirmed"
  return observed

def alert {α : Type} (store : Store) (cm : ConfigMap) (state : State) (reason : String) : Api α := do
  let state := { state with
    phase := .alert
    operation := state.operation.map (fun op => { op with outcome := reason }) }
  let _ ← store.save sha256 cm state
  throw (.refuse reason)

end Store

def pods (ns : String) : Api (List Pod) := do
  let value : PodList ← call (.getPods ns)
  podsOf ns value

def snapshotAll : Api (List Pod) := do
  let ci ← pods "ci"
  let control ← pods controlNamespace
  let worker ← pods workerNamespace
  let snapshot := ci ++ control ++ worker
  require ((snapshot.map (·.uid)).dedup.length == snapshot.length) "duplicate snapshot UID"
  return snapshot

def scheduled (pod : Pod) (cron : String) : Api Int := do
  let ident ← podIdentity pod
  let ns := if cron == "hestia-ci-cache-retention" then workerNamespace else controlNamespace
  require (ident.ns == ns) "wrong scheduled namespace"
  let job : Job ← call (.getJob ident.ns ident.job)
  scheduledOf pod cron ident job

def runnerOf (value : RunnerValue) : Except Fault Bool :=
  match value.id, value.paused with
  | some 2, some paused => .ok paused
  | _, _ => .error (.refuse "invalid Runner2 readback")

def runner : Api Bool := do
  let value : RunnerValue ← call .getRunner
  runnerOf value

/-! ## Accepted jobs of the runner -/

def active : List String :=
  ["created", "waiting_for_resource", "preparing", "waiting_for_callback", "pending", "manual",
    "scheduled", "running", "canceling"]

/-- The rows of one page; the ids seen so far under the same status. -/
def checkRows (status : String) : List Int → List JobRow → Except Fault (List Int)
  | seen, [] => .ok seen
  | seen, row :: rest =>
    match row.id with
    | some id =>
      if 0 < id && !seen.contains id && row.status == some status then
        checkRows status (id :: seen) rest
      else .error (.refuse "invalid accepted-job evidence or ignored status filter")
    | none => .error (.refuse "invalid accepted-job evidence or ignored status filter")

/-- `x-next-page` among the headers, whatever its case; of equal names the
last one counts. -/
def nextPage (headers : List (String × Option String)) : Except Fault String :=
  match (headers.filter (fun h => h.1.toLower == "x-next-page")).getLast? with
  | some (_, some page) => .ok page
  | _ => .error (.refuse "missing pagination evidence")

def isPageNumber (page : String) : Bool :=
  match page.toList with
  | c :: rest => c.isDigit && c != '0' && rest.all (·.isDigit)
  | [] => false

/-- The page loop for one status: `true` when the chain of pages is complete
and empty, `false` as soon as a page has a job on it. The bound of 100 pages is
the source's own, so the unrolling is never used up. -/
def drainedPages (status : String) : Nat → String → List String → List Int → Api Bool
  | 0, _, _, _ => .halt
  | fuel + 1, page, seenPages, seenJobs => do
    require (!seenPages.contains page && seenPages.length < 100)
      "unbounded/incomplete jobs pagination"
    let answer : JobsPage ← call (.getJobs status page)
    match answer.values with
    | none => throw (.refuse "invalid jobs page")
    | some values => do
      let seenJobs ← checkRows status seenJobs values
      let next ← nextPage answer.headers
      require (next == "" || isPageNumber next) "invalid next page"
      require (!(page :: seenPages).contains next) "repeated jobs page"
      if !values.isEmpty then return false
      else if next == "" then return true
      else drainedPages status fuel next (page :: seenPages) seenJobs

def drainedStatuses : List String → Api Bool
  | [] => return true
  | status :: rest => do
    if ← drainedPages status 101 "1" [] [] then drainedStatuses rest else return false

def drained : Api Bool := drainedStatuses active

/-! ## Which of these only observe -/

/-- Requests that change nothing but the record of the run. Readings of the
runner are not among them: the first one of a coordinator is its baseline. -/
def Request.Observes : Request → Prop
  | .getState _ | .getPods _ | .getJob _ _ | .getJobs _ _ | .gate | .now => True
  | .putState _ | .getRunner | .putRunner _ _ | .note _ => False

theorem only_lift {quiet : Request → Prop} {α : Type} (m : Except Fault α) :
    (lift m).Only quiet := by
  cases m <;> trivial

theorem only_call {quiet : Request → Prop} {r : Request} (h : quiet r) : (call r).Only quiet :=
  ⟨h, only_lift⟩

theorem only_pods (ns : String) : (pods ns).Only Request.Observes :=
  Program.Only.bind (only_call (by trivial)) (fun _ => only_lift _)

theorem only_snapshotAll : snapshotAll.Only Request.Observes :=
  Program.Only.bind (only_pods _) fun _ => Program.Only.bind (only_pods _) fun _ =>
    Program.Only.bind (only_pods _) fun _ => Program.Only.bind (only_lift _) fun _ => trivial

theorem only_drainedPages (status : String) (fuel : Nat) (page : String) (seenPages : List String)
    (seenJobs : List Int) :
    (drainedPages status fuel page seenPages seenJobs).Only Request.Observes := by
  induction fuel generalizing page seenPages seenJobs with
  | zero => trivial
  | succ fuel ih =>
    refine Program.Only.bind (only_lift _) fun _ => Program.Only.bind (only_call (by trivial)) ?_
    intro answer
    split
    · trivial
    · refine Program.Only.bind (only_lift _) fun _ => Program.Only.bind (only_lift _) fun _ =>
        Program.Only.bind (only_lift _) fun _ => Program.Only.bind (only_lift _) fun _ => ?_
      split
      · trivial
      · split
        · trivial
        · exact ih _ _ _

theorem only_drained : drained.Only Request.Observes := by
  unfold drained
  induction active with
  | nil => trivial
  | cons status rest ih =>
    refine Program.Only.bind (only_drainedPages status _ _ _ _) fun complete => ?_
    split
    · exact ih
    · trivial

end ClusterState.Admission
