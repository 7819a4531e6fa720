import ClusterState.Data.NameResolution
import ClusterState.Feedback.Submitting

/-! # Setting the status of an item

`api.set_feedback_status` declares a variable `updated_at` and returns the column of that name
from its `UPDATE`. The names of a statement are looked up when it is first run, so the function
raises as soon as it gets there.
-/

namespace ClusterState.Feedback

open Data Ternary

inductive Value (Jsonb : Type) where
  | null
  | uuid (a : UUID)
  | text (a : String)
  | jsonb (a : Jsonb)
  | timestamp (a : Timestamp)

variable {Jsonb : Type}

def Value.ofText : Option String → Value Jsonb
  | some s => .text s
  | none => .null

def Value.ofUUID : Option UUID → Value Jsonb
  | some id => .uuid id
  | none => .null

/-- `=` for ids. -/
def Value.sameId : Value Jsonb → Value Jsonb → Ternary
  | .uuid a, .uuid b => some (a = b)
  | _, _ => none

def Item.columns (item : Item Jsonb) : List (String × Value Jsonb) := [
  ("id", .uuid item.id), ("project", .text item.project), ("feedback_type", .text item.feedbackType),
  ("title", .text item.title), ("body", .text item.body),
  ("installation_id", .ofText item.installationId), ("app_version", .ofText item.appVersion),
  ("contact", .ofText item.contact), ("client_context", .jsonb item.clientContext),
  ("status", .text item.status), ("created_at", .timestamp item.createdAt),
  ("updated_at", .timestamp item.updatedAt)]

def columnNames : List String := ["id", "project", "feedback_type", "title", "body", "installation_id",
  "app_version", "contact", "client_context", "status", "created_at", "updated_at"]

theorem map_fst_columns (item : Item Jsonb) : item.columns.map Prod.fst = columnNames := rfl

/-! ## The statement -/

/-- `UPDATE feedback_items SET status = … WHERE … = … RETURNING …` -/
structure UpdateStatement (ν : Type) where
  status : ν
  left : ν
  right : ν
  returning : List ν

def nameError : NameError → SqlError
  | .ambiguous name => ⟨"column reference \"" ++ name ++ "\" is ambiguous", "42702"⟩
  | .undefined name => ⟨"column \"" ++ name ++ "\" does not exist", "42703"⟩

def lookUp (conflict : VariableConflict) (declared : List String) (name : String) :
    Except SqlError Reference :=
  (resolve conflict declared columnNames name).mapError nameError

namespace UpdateStatement

def analyze {ν ρ : Type} (look : ν → Except SqlError ρ) (statement : UpdateStatement ν) :
    Except SqlError (UpdateStatement ρ) := do
  let status ← look statement.status
  let left ← look statement.left
  let right ← look statement.right
  let returning ← statement.returning.mapM look
  pure { status, left, right, returning }

end UpdateStatement

def valueOf (declared : List (String × Value Jsonb)) (item : Item Jsonb) : Reference → Value Jsonb
  | .variable name => (declared.lookup name).getD .null
  | .column name => (item.columns.lookup name).getD .null

/-- The trigger before every update. -/
def touchUpdatedAt (now : Timestamp) (new : Item Jsonb) : Item Jsonb := { new with updatedAt := now }

def Item.setStatus (item : Item Jsonb) : Value Jsonb → Except SqlError (Item Jsonb)
  | .text status => .ok { item with status }
  | .null => .error (notNullViolation "status")
  | _ => .error ⟨"column \"status\" is of type text", "42804"⟩

/-- What becomes of a row, and whether it is one of those that are updated. -/
def UpdateStatement.rewrite (statement : UpdateStatement Reference)
    (declared : List (String × Value Jsonb)) (now : Timestamp) (item : Item Jsonb) :
    Except SqlError (Item Jsonb × Bool) :=
  if (valueOf declared item statement.left).sameId (valueOf declared item statement.right) = some true
  then do
    let new ← item.setStatus (valueOf declared item statement.status)
    pure (touchUpdatedAt now new, true)
  else pure (item, false)

variable {pg : Postgres Jsonb}

/-- The constraints, once more for all rows. -/
def Table.ofItems (items : List (Item Jsonb)) : Except SqlError (Table pg) :=
  if hvalid : ∀ item ∈ items, item.Valid pg then
    if hunique : (items.map Item.id).Nodup then .ok ⟨items, hvalid, hunique⟩
    else .error uniqueViolation
  else
    .error (checkViolation (((items.flatMap (Item.checks pg)).find? (·.2 = some false)).elim "" Prod.fst))

/-- The values that are returned, a list for each row that is updated. -/
def UpdateStatement.execute (statement : UpdateStatement Reference)
    (declared : List (String × Value Jsonb)) (now : Timestamp) (t : Table pg) :
    Except SqlError (List (List (Value Jsonb)) × Table pg) := do
  let rows ← t.items.mapM (statement.rewrite declared now)
  let t' ← Table.ofItems (rows.map Prod.fst)
  pure ((rows.filter Prod.snd).map fun row => statement.returning.map (valueOf declared row.1), t')

/-! ## The function -/

def statusVariables (feedbackId : Option UUID) (nextStatus normalizedStatus : Option String) :
    List (String × Value Jsonb) := [
  ("feedback_id", .ofUUID feedbackId), ("next_status", .ofText nextStatus),
  ("normalized_status", .ofText normalizedStatus), ("updated_id", .null), ("updated_status", .null),
  ("updated_at", .null)]

def statusUpdate : UpdateStatement String where
  status := "normalized_status"
  left := "id"
  right := "feedback_id"
  returning := ["id", "status", "updated_at"]

def notFound : SqlError := ⟨"feedback item not found", "P0002"⟩

/-- `INTO` takes the first row, and nulls if there is none. -/
def intoVariables (rows : List (List (Value Jsonb))) : List (Value Jsonb) :=
  rows.head?.getD (List.replicate 3 .null)

variable (pg) in
def normalizeStatus (nextStatus : Option String) : Option String := nextStatus.map (pg.lower <| btrim ·)

abbrev Reply (Jsonb : Type) := List (String × Value Jsonb)

def runUpdate (conflict : VariableConflict) (now : Timestamp) (declared : List (String × Value Jsonb))
    (t : Table pg) : Except SqlError (Reply Jsonb × Table pg) := do
  let statement ← statusUpdate.analyze (lookUp conflict (declared.map Prod.fst))
  let (rows, t') ← statement.execute declared now t
  match intoVariables rows with
  | [.null, _, _] => throw notFound
  | [updatedId, updatedStatus, updatedAt] =>
    pure ([("id", updatedId), ("status", updatedStatus), ("updated_at", updatedAt)], t')
  | _ => throw notFound

def setFeedbackStatus (conflict : VariableConflict) (now : Timestamp) (feedbackId : Option UUID)
    (nextStatus : Option String) (t : Table pg) : Except SqlError (Reply Jsonb × Table pg) := do
  let normalizedStatus := normalizeStatus pg nextStatus
  raiseIf (isNull feedbackId) (invalidParameter "missing feedback_id")
  raiseIf (disj (isNull normalizedStatus) (neg (isIn normalizedStatus allowedStatuses)))
    (invalidParameter "invalid status")
  runUpdate conflict now (statusVariables feedbackId nextStatus normalizedStatus) t

def Acceptable (feedbackId : Option UUID) (nextStatus : Option String) (t : Table pg) : Prop :=
  (∃ id ∈ t.items.map Item.id, feedbackId = some id) ∧
    ∃ status ∈ allowedStatuses, normalizeStatus pg nextStatus = some status

/-- The item gets the status and a new time, and nothing else changes. Other arguments are refused. -/
inductive Correct (now : Timestamp) (feedbackId : Option UUID) (nextStatus : Option String)
    (t : Table pg) : Except SqlError (Reply Jsonb × Table pg) → Prop where
  | refused {e : SqlError} (unacceptable : ¬ Acceptable feedbackId nextStatus t) :
      Correct now feedbackId nextStatus t (.error e)
  | updated {id : UUID} {status : String} {t' : Table pg} (hid : feedbackId = some id)
      (hstatus : normalizeStatus pg nextStatus = some status)
      (acceptable : Acceptable feedbackId nextStatus t)
      (items : t'.items = t.items.map fun item =>
        if item.id = id then { item with status := status, updatedAt := now } else item) :
      Correct now feedbackId nextStatus t
        (.ok ([("id", .uuid id), ("status", .text status), ("updated_at", .timestamp now)], t'))

/-! ## With names that are not ambiguous -/

def meantUpdate : UpdateStatement Reference where
  status := .variable "normalized_status"
  left := .column "id"
  right := .variable "feedback_id"
  returning := [.column "id", .column "status", .column "updated_at"]

section Meant

variable {now : Timestamp} {id : UUID} {status : String} {feedbackId : Option UUID}
  {nextStatus normalizedStatus : Option String} {t : Table pg}

theorem analyze_useColumn : statusUpdate.analyze (lookUp .useColumn ((@statusVariables Jsonb
    feedbackId nextStatus normalizedStatus).map Prod.fst)) = .ok meantUpdate := rfl

/-- The variable `updated_at` is in the way of the column. -/
theorem analyze_error : statusUpdate.analyze (lookUp .error ((@statusVariables Jsonb
    feedbackId nextStatus normalizedStatus).map Prod.fst)) =
      .error (nameError (.ambiguous "updated_at")) := rfl

def withStatus (now : Timestamp) (id : UUID) (status : String) (item : Item Jsonb) : Item Jsonb :=
  if item.id = id then { item with status := status, updatedAt := now } else item

theorem rewrite_meantUpdate (item : Item Jsonb) :
    meantUpdate.rewrite (statusVariables (some id) nextStatus (some status)) now item =
      .ok (withStatus now id status item, decide (item.id = id)) := by
  unfold UpdateStatement.rewrite withStatus
  have hsame : (valueOf (statusVariables (some id) nextStatus (some status)) item meantUpdate.left).sameId
      (valueOf (statusVariables (some id) nextStatus (some status)) item meantUpdate.right) =
        some (decide (item.id = id)) := rfl
  rw [hsame]
  by_cases hid : item.id = id
  · rw [decide_eq_true hid, if_pos rfl, if_pos hid]
    rfl
  · rw [decide_eq_false hid, if_neg (by decide), if_neg hid]
    rfl

theorem valid_withStatus (hstatus : status ∈ allowedStatuses) {item : Item Jsonb}
    (h : item.Valid pg) : (withStatus now id status item).Valid pg := by
  unfold withStatus
  split
  · rw [valid_iff] at h ⊢
    obtain ⟨h1, h2, h3, h4, h5, h6, h7, h8, h9, -⟩ := h
    exact ⟨h1, h2, h3, h4, h5, h6, h7, h8, h9, hstatus⟩
  · exact h

theorem id_withStatus (item : Item Jsonb) : (withStatus now id status item).id = item.id := by
  unfold withStatus
  split <;> rfl

theorem ofItems_withStatus (hstatus : status ∈ allowedStatuses) :
    ∃ t' : Table pg, Table.ofItems (t.items.map (withStatus now id status)) = .ok t' ∧
      t'.items = t.items.map (withStatus now id status) := by
  have hvalid : ∀ item ∈ t.items.map (withStatus now id status), item.Valid pg := by
    intro item hitem
    obtain ⟨old, hold, rfl⟩ := List.mem_map.mp hitem
    exact valid_withStatus hstatus (t.valid old hold)
  have hunique : ((t.items.map (withStatus now id status)).map Item.id).Nodup := by
    rw [List.map_map]
    simpa only [Function.comp_def, id_withStatus] using t.unique
  refine ⟨⟨_, hvalid, hunique⟩, ?_, rfl⟩
  rw [Table.ofItems, dif_pos hvalid, dif_pos hunique]

def returnedRows (now : Timestamp) (id : UUID) (status : String) (t : Table pg) : List (List (Value Jsonb)) :=
  (t.items.filter (·.id = id)).map fun _ => [.uuid id, .text status, .timestamp now]

theorem execute_meantUpdate (hstatus : status ∈ allowedStatuses) : ∃ t' : Table pg,
    meantUpdate.execute (statusVariables (some id) nextStatus (some status)) now t =
      .ok (returnedRows now id status t, t') ∧
    t'.items = t.items.map (withStatus now id status) := by
  obtain ⟨t', ht', hitems⟩ := @ofItems_withStatus _ _ now id _ t hstatus
  have hrows : t.items.mapM (meantUpdate.rewrite (statusVariables (some id) nextStatus (some status)) now) =
      .ok (t.items.map fun item => (withStatus now id status item, decide (item.id = id))) := by
    rw [show meantUpdate.rewrite (statusVariables (some id) nextStatus (some status)) now = fun item =>
      pure (withStatus now id status item, decide (item.id = id)) from funext rewrite_meantUpdate]
    exact List.mapM_pure
  refine ⟨t', ?_, hitems⟩
  unfold UpdateStatement.execute
  rw [hrows]
  dsimp only [Bind.bind, Except.bind]
  rw [List.map_map, Function.comp_def, ht', List.filter_map, List.map_map]
  apply congrArg (fun rows => Except.ok (rows, t'))
  apply List.map_congr_left
  intro item hitem
  have hid : item.id = id := of_decide_eq_true (List.mem_filter.mp hitem).2
  have hnew : withStatus now id status item = { item with status := status, updatedAt := now } := if_pos hid
  dsimp only [Function.comp_def]
  rw [hnew, ← hid]
  rfl

theorem intoVariables_present (h : id ∈ t.items.map Item.id) :
    intoVariables (returnedRows now id status t) = [.uuid id, .text status, .timestamp now] := by
  obtain ⟨item, hitem, hid⟩ := List.mem_map.mp h
  have hmem : item ∈ t.items.filter (·.id = id) := List.mem_filter.mpr ⟨hitem, decide_eq_true hid⟩
  unfold intoVariables returnedRows
  cases hrows : t.items.filter (·.id = id) with
  | nil =>
    rw [hrows] at hmem
    cases hmem
  | cons first rest => rfl

theorem intoVariables_absent (h : id ∉ t.items.map Item.id) :
    intoVariables (returnedRows now id status t) = [.null, .null, .null] := by
  have hnone : t.items.filter (·.id = id) = [] := by
    rw [List.filter_eq_nil_iff]
    intro item hitem hid
    exact h (List.mem_map.mpr ⟨item, hitem, of_decide_eq_true hid⟩)
  unfold intoVariables returnedRows
  rw [hnone]
  rfl

end Meant

/-! ## The outcome -/

section Outcome

variable {conflict : VariableConflict} {now : Timestamp} {feedbackId : Option UUID}
  {nextStatus : Option String} {t : Table pg}

theorem raiseIf_of_ne {condition : Ternary} {e : SqlError} (h : condition ≠ some true) :
    raiseIf condition e = .ok () := if_neg h

theorem status_refused :
    disj (isNull (normalizeStatus pg nextStatus)) (neg (isIn (normalizeStatus pg nextStatus) allowedStatuses))
      = some true ↔ ¬ ∃ status ∈ allowedStatuses, normalizeStatus pg nextStatus = some status := by
  rw [isIn_eq_test (l := allowedStatuses) (List.cons_ne_nil _ _)]
  cases normalizeStatus pg nextStatus <;> simp

theorem setFeedbackStatus_refused
    (h : feedbackId = none ∨ ¬ ∃ status ∈ allowedStatuses, normalizeStatus pg nextStatus = some status) :
    ∃ e, setFeedbackStatus conflict now feedbackId nextStatus t = .error e := by
  unfold setFeedbackStatus
  cases feedbackId with
  | none => exact ⟨_, rfl⟩
  | some id =>
    have hstatus := status_refused.mpr (h.resolve_left nofun)
    have hraise : raiseIf _ (invalidParameter "invalid status") = .error _ := if_pos hstatus
    dsimp only
    rw [hraise]
    exact ⟨_, rfl⟩

theorem setFeedbackStatus_reaches {id : UUID} {status : String} (hallowed : status ∈ allowedStatuses)
    (hstatus : normalizeStatus pg nextStatus = some status) :
    setFeedbackStatus conflict now (some id) nextStatus t =
      runUpdate conflict now (statusVariables (some id) nextStatus (some status)) t := by
  have hpasses := raiseIf_of_ne (e := invalidParameter "invalid status")
    (mt status_refused.mp (not_not_intro ⟨status, hallowed, hstatus⟩))
  unfold setFeedbackStatus
  dsimp only
  rw [hpasses, hstatus]
  rfl

theorem useColumn_correct (now : Timestamp) (feedbackId : Option UUID) (nextStatus : Option String)
    (t : Table pg) : Correct now feedbackId nextStatus t
      (setFeedbackStatus .useColumn now feedbackId nextStatus t) := by
  by_cases hrefused : feedbackId = none ∨
      ¬ ∃ status ∈ allowedStatuses, normalizeStatus pg nextStatus = some status
  · obtain ⟨e, he⟩ := @setFeedbackStatus_refused _ _ .useColumn now _ _ t hrefused
    rw [he]
    apply Correct.refused
    rintro ⟨⟨id, -, hid⟩, hstatus⟩
    exact hrefused.elim (fun hnone => nomatch hid.symm.trans hnone) fun hnot => hnot hstatus
  · rw [not_or, not_not] at hrefused
    obtain ⟨hsome, status, hallowed, hstatus⟩ := hrefused
    obtain ⟨id, rfl⟩ := Option.ne_none_iff_exists'.mp hsome
    obtain ⟨t', hexecute, hitems⟩ := @execute_meantUpdate _ _ now id _ nextStatus t hallowed
    rw [setFeedbackStatus_reaches hallowed hstatus, runUpdate, analyze_useColumn]
    dsimp only [Bind.bind, Except.bind]
    rw [hexecute]
    dsimp only
    by_cases hpresent : id ∈ t.items.map Item.id
    · rw [intoVariables_present hpresent]
      exact .updated rfl hstatus ⟨⟨id, hpresent, rfl⟩, status, hallowed, hstatus⟩ hitems
    · rw [intoVariables_absent hpresent]
      apply Correct.refused
      rintro ⟨⟨id', hid', heq⟩, -⟩
      cases heq
      exact hpresent hid'

theorem error_refuses (now : Timestamp) (feedbackId : Option UUID) (nextStatus : Option String)
    (t : Table pg) : ∃ e, setFeedbackStatus .error now feedbackId nextStatus t = .error e := by
  by_cases hrefused : feedbackId = none ∨
      ¬ ∃ status ∈ allowedStatuses, normalizeStatus pg nextStatus = some status
  · exact setFeedbackStatus_refused hrefused
  · rw [not_or, not_not] at hrefused
    obtain ⟨hsome, status, hallowed, hstatus⟩ := hrefused
    obtain ⟨id, rfl⟩ := Option.ne_none_iff_exists'.mp hsome
    rw [setFeedbackStatus_reaches hallowed hstatus, runUpdate, analyze_error]
    exact ⟨_, rfl⟩

end Outcome

/-- The function is right only where there is nothing to do. -/
theorem setFeedbackStatus_correct_iff (now : Timestamp) (feedbackId : Option UUID)
    (nextStatus : Option String) (t : Table pg) :
    Correct now feedbackId nextStatus t (setFeedbackStatus .error now feedbackId nextStatus t) ↔
      ¬ Acceptable feedbackId nextStatus t := by
  obtain ⟨e, he⟩ := error_refuses now feedbackId nextStatus t
  rw [he]
  constructor
  · rintro ⟨hunacceptable⟩
    exact hunacceptable
  · exact .refused

namespace Sample

def oneItem : Table postgres where
  items := [crashItem]
  valid item h := by
    rw [List.mem_singleton.mp h]
    exact valid_crashItem
  unique := List.nodup_singleton _

end Sample

theorem accepted_status_is_refused : ¬ ∀ (now : Timestamp) (feedbackId : Option UUID)
    (nextStatus : Option String) (t : Table Sample.postgres),
    Correct now feedbackId nextStatus t (setFeedbackStatus .error now feedbackId nextStatus t) := by
  intro h
  have hcorrect := h 1 (some Sample.itemId) (some "Triaged ") Sample.oneItem
  obtain ⟨e, he⟩ := error_refuses 1 (some Sample.itemId) (some "Triaged ") Sample.oneItem
  rw [he] at hcorrect
  obtain ⟨hunacceptable⟩ := hcorrect
  apply hunacceptable
  refine ⟨⟨Sample.itemId, List.mem_cons_self, rfl⟩, "triaged", by decide, ?_⟩
  decide

end ClusterState.Feedback
