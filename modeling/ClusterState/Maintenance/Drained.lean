import ClusterState.Concurrency.Alone
import ClusterState.Maintenance.Pods

/-! # Waiting for the jobs of the runner

`drained` asks for the jobs of each status, one page after the other.
-/

namespace ClusterState.Maintenance

open Concurrency

/-- `GET /runners/2/jobs?status=...&per_page=100&page=...` -/
structure Query where
  status : String
  page : String
  deriving DecidableEq

/-- The jobs and the headers, unless the request raises. -/
abbrev Answer := Except Failure (Json × List (String × Json))

/-- The statuses of jobs that are not completed, in their order. -/
def ACTIVE : List String :=
  ["created", "waiting_for_resource", "preparing", "waiting_for_callback", "pending", "manual",
    "scheduled", "running", "canceling"]

abbrev Drain (α : Type) := Program Query (fun _ => Answer) Failure α

/-- `value.get('id')`, if it is a positive integer. -/
def jobId (value : Json) : Option Int :=
  match value.get "id" with
  | some (.int id) => if 0 < id then some id else none
  | _ => none

def checkJob (status : String) (seenJobs : List Int) (value : Json) : Except Failure (List Int) :=
  match jobId value with
  | some id =>
    if !seenJobs.contains id && (value.get "status").bind Json.str? == some status then
      .ok (id :: seenJobs)
    else .error (.refuse "invalid accepted-job evidence or ignored status filter")
  | none => .error (.refuse "invalid accepted-job evidence or ignored status filter")

/-- `[1-9][0-9]*`, or nothing. -/
def isNextPage (page : String) : Bool :=
  match page.toList with
  | [] => true
  | c :: rest => c.isDigit && c != '0' && rest.all Char.isDigit

/-- The last header of the name, whatever its case. -/
def nextPageHeader (headers : List (String × Json)) : Option Json :=
  ((headers.filter fun header => header.1.toLower == "x-next-page").getLast?).map Prod.snd

def nextPage (headers : List (String × Json)) : Except Failure String :=
  match (nextPageHeader headers).bind Json.str? with
  | some page => if isNextPage page then .ok page else .error (.refuse "invalid next page")
  | none => .error (.refuse "missing pagination evidence")

def readBody (status : String) (seenJobs : List Int) (body : Json) (headers : List (String × Json)) :
    Except Failure (List Json × List Int × String) :=
  match body with
  | .arr values => do
    let seenJobs ← values.foldlM (checkJob status) seenJobs
    let next ← nextPage headers
    .ok (values, seenJobs, next)
  | _ => .error (.refuse "invalid jobs page")

def readPage (status : String) (seenJobs : List Int) (answer : Answer) :
    Except Failure (List Json × List Int × String) :=
  match answer with
  | .ok (body, headers) => readBody status seenJobs body headers
  | .error e => .error e

/-- The loop over the pages of one status; `true` if they are all empty. At most `left`
pages may follow. -/
def pages (status : String) : Nat → List String → List Int → String → Drain Bool
  | 0, _, _, _ => throw (.refuse "unbounded/incomplete jobs pagination")
  | left + 1, seenPages, seenJobs, page =>
    if seenPages.contains page then
      throw (.refuse "unbounded/incomplete jobs pagination")
    else .ask ⟨status, page⟩ fun answer =>
      match readPage status seenJobs answer with
      | .error e => throw e
      | .ok (values, seenJobs, next) =>
        if (page :: seenPages).contains next then throw (.refuse "repeated jobs page")
        else if !values.isEmpty then pure false
        else if next == "" then pure true
        else pages status left (page :: seenPages) seenJobs next

def drainedOf : List String → Drain Bool
  | [] => pure true
  | status :: rest => do
    if ← pages status 100 [] [] "1" then drainedOf rest else pure false

def drained : Drain Bool := drainedOf ACTIVE

end ClusterState.Maintenance
