import ClusterState.Data.Ternary

/-! # The feedback items

The table `feedback_items` with its constraints. A table is what the constraints let through:
every column that must not be null has a value, every `CHECK` is not false, and no two rows
have the same id.
-/

namespace ClusterState.Feedback

open Data Ternary

abbrev UUID := BitVec 128

/-- `TIMESTAMPTZ` in microseconds. -/
abbrev Timestamp := Int

/-- What the database does with letters and with `JSONB`. -/
structure Postgres (Jsonb : Type) where
  lower : String → String
  jsonbTypeof : Jsonb → String
  /-- `::text` -/
  jsonbText : Jsonb → String
  /-- `'{}'::jsonb` -/
  emptyObject : Jsonb

/-- `RAISE`, or the error of a statement. What was done before is undone. -/
structure SqlError where
  message : String
  sqlstate : String
  deriving DecidableEq

/-! ## Texts -/

def btrim (s : String) : String :=
  .ofList ((s.toList.dropWhile (· = ' ')).rdropWhile (· = ' '))

def nullif (a : Option String) (b : String) : Option String := if a = some b then none else a

def charLength (s : String) : Nat := s.length

def octetLength (s : String) : Nat := s.utf8ByteSize

def isLowerAlnum (c : Char) : Bool := ('a' ≤ c ∧ c ≤ 'z') ∨ ('0' ≤ c ∧ c ≤ '9')

/-- `^[a-z0-9][a-z0-9_-]{0,63}$` -/
def matchesProject : List Char → Bool
  | [] => false
  | c :: rest => isLowerAlnum c && rest.length ≤ 63 && rest.all fun c => isLowerAlnum c || c = '_' || c = '-'

def IsProject (s : String) : Prop := matchesProject s.toList

instance : DecidablePred IsProject := fun s => inferInstanceAs (Decidable (matchesProject s.toList = true))

def allowedTypes : List String := ["feature_request", "bug_report", "general"]

def allowedStatuses : List String := ["new", "triaged", "accepted", "declined", "closed"]

/-! ## Rows -/

/-- The values of an `INSERT`. -/
structure Draft (Jsonb : Type) where
  id : Option UUID
  project : Option String
  feedbackType : Option String
  title : Option String
  body : Option String
  installationId : Option String
  appVersion : Option String
  contact : Option String
  clientContext : Option Jsonb
  status : Option String
  createdAt : Option Timestamp
  updatedAt : Option Timestamp

structure Item (Jsonb : Type) where
  id : UUID
  project : String
  feedbackType : String
  title : String
  body : String
  installationId : Option String
  appVersion : Option String
  contact : Option String
  clientContext : Jsonb
  status : String
  createdAt : Timestamp
  updatedAt : Timestamp
  deriving DecidableEq

def notNullViolation (column : String) : SqlError where
  message := "null value in column \"" ++ column ++ "\" of relation \"feedback_items\" violates " ++
    "not-null constraint"
  sqlstate := "23502"

def checkViolation (name : String) : SqlError where
  message := "new row for relation \"feedback_items\" violates check constraint \"" ++ name ++ "\""
  sqlstate := "23514"

def uniqueViolation : SqlError where
  message := "duplicate key value violates unique constraint \"feedback_items_pkey\""
  sqlstate := "23505"

def required {α : Type} (column : String) : Option α → Except SqlError α
  | some a => .ok a
  | none => .error (notNullViolation column)

variable {Jsonb : Type}

/-- The columns that are `NOT NULL` have values. -/
def Draft.complete (d : Draft Jsonb) : Except SqlError (Item Jsonb) := do
  let id ← required "id" d.id
  let project ← required "project" d.project
  let feedbackType ← required "feedback_type" d.feedbackType
  let title ← required "title" d.title
  let body ← required "body" d.body
  let clientContext ← required "client_context" d.clientContext
  let status ← required "status" d.status
  let createdAt ← required "created_at" d.createdAt
  let updatedAt ← required "updated_at" d.updatedAt
  pure {
    id, project, feedbackType, title, body, clientContext, status, createdAt, updatedAt
    installationId := d.installationId
    appVersion := d.appVersion
    contact := d.contact }

section Checks

variable (pg : Postgres Jsonb)

def atMost (limit : Nat) (a : Option String) : Ternary :=
  disj (isNull a) (test (charLength · ≤ limit) a)

def Item.checks (item : Item Jsonb) : List (String × Ternary) := [
  ("feedback_project_format", test IsProject (some item.project)),
  ("feedback_type_allowed", isIn (some item.feedbackType) allowedTypes),
  ("feedback_title_length", between 3 160 (some (charLength item.title))),
  ("feedback_body_length", between 1 10000 (some (charLength item.body))),
  ("feedback_installation_length", atMost 128 item.installationId),
  ("feedback_version_length", atMost 64 item.appVersion),
  ("feedback_contact_length", atMost 320 item.contact),
  ("feedback_context_object", test (· = "object") (some (pg.jsonbTypeof item.clientContext))),
  ("feedback_context_length", test (· ≤ 16384) (some (octetLength (pg.jsonbText item.clientContext)))),
  ("feedback_status_allowed", isIn (some item.status) allowedStatuses)]

/-- No `CHECK` is false. -/
def Item.Valid (item : Item Jsonb) : Prop := ∀ check ∈ item.checks pg, check.2 ≠ some false

instance (item : Item Jsonb) : Decidable (item.Valid pg) :=
  inferInstanceAs (Decidable (∀ check ∈ item.checks pg, check.2 ≠ some false))

structure Table where
  items : List (Item Jsonb)
  valid : ∀ item ∈ items, item.Valid pg
  unique : (items.map Item.id).Nodup

variable {pg}

def Table.append (t : Table pg) (item : Item Jsonb) (hvalid : item.Valid pg)
    (hfresh : item.id ∉ t.items.map Item.id) : Table pg where
  items := t.items ++ [item]
  valid other hother := by
    obtain hother | hother := List.mem_append.mp hother
    · exact t.valid other hother
    · rw [List.mem_singleton.mp hother]
      exact hvalid
  unique := by
    rw [List.map_append, List.nodup_append']
    refine ⟨t.unique, List.nodup_singleton _, ?_⟩
    simpa [List.disjoint_singleton] using hfresh

theorem valid_iff_find {item : Item Jsonb} :
    item.Valid pg ↔ (item.checks pg).find? (·.2 = some false) = none := by
  simp [Item.Valid, List.find?_eq_none]

/-- `INSERT`: first the columns, then the checks, then the index. -/
def Table.insert (t : Table pg) (d : Draft Jsonb) : Except SqlError (Item Jsonb × Table pg) := do
  let item ← d.complete
  match hchecks : (item.checks pg).find? (·.2 = some false) with
  | some check => throw (checkViolation check.1)
  | none =>
    if hfresh : item.id ∉ t.items.map Item.id then
      pure (item, t.append item (valid_iff_find.mpr hchecks) hfresh)
    else throw uniqueViolation

theorem insert_eq_ok {t : Table pg} {d : Draft Jsonb} {item : Item Jsonb}
    (hcomplete : d.complete = .ok item) (hvalid : item.Valid pg)
    (hfresh : item.id ∉ t.items.map Item.id) :
    t.insert d = .ok (item, t.append item hvalid hfresh) := by
  unfold Table.insert
  rw [hcomplete]
  dsimp only [Bind.bind, Except.bind]
  split
  · rename_i check hchecks
    rw [valid_iff_find.mp hvalid] at hchecks
    cases hchecks
  · rw [dif_pos hfresh]
    rfl

theorem insert_eq_error {t : Table pg} {d : Draft Jsonb} {e : SqlError}
    (hcomplete : d.complete = .error e) : t.insert d = .error e := by
  unfold Table.insert
  rw [hcomplete]
  rfl

theorem atMost_ne_false {limit : Nat} {a : Option String} :
    atMost limit a ≠ some false ↔ ∀ s, a = some s → charLength s ≤ limit := by
  cases a <;> simp [atMost]

theorem valid_iff {item : Item Jsonb} : item.Valid pg ↔
    IsProject item.project ∧ item.feedbackType ∈ allowedTypes ∧
    (3 ≤ charLength item.title ∧ charLength item.title ≤ 160) ∧
    (1 ≤ charLength item.body ∧ charLength item.body ≤ 10000) ∧
    (∀ s, item.installationId = some s → charLength s ≤ 128) ∧
    (∀ s, item.appVersion = some s → charLength s ≤ 64) ∧
    (∀ s, item.contact = some s → charLength s ≤ 320) ∧
    pg.jsonbTypeof item.clientContext = "object" ∧
    octetLength (pg.jsonbText item.clientContext) ≤ 16384 ∧
    item.status ∈ allowedStatuses := by
  have hin : ∀ (s : String) (l : List String), l ≠ [] → (isIn (some s) l ≠ some false ↔ s ∈ l) := by
    intro s l hl
    rw [isIn_eq_test hl, ne_eq, test_eq_false]
    simp
  simp only [Item.Valid, Item.checks, List.forall_mem_cons, List.not_mem_nil, atMost_ne_false,
    hin _ allowedTypes (List.cons_ne_nil _ _), hin _ allowedStatuses (List.cons_ne_nil _ _),
    between_eq_test, ne_eq, test_eq_false, Option.some.injEq, exists_eq_left', not_not,
    false_imp_iff, imp_true_iff, and_true]

end Checks

namespace Sample

def postgres : Postgres String where
  lower s := .ofList (s.toList.map Char.toLower)
  jsonbTypeof s := if s.toList.head? = some '\x7b' then "object" else "string"
  jsonbText s := s
  emptyObject := "\x7b\x7d"

def itemId : UUID := 0x5f0c#128

def crashItem : Item String where
  id := itemId
  project := "media"
  feedbackType := "bug_report"
  title := "It crashes"
  body := "At start."
  installationId := none
  appVersion := none
  contact := none
  clientContext := "\x7b\x7d"
  status := "new"
  createdAt := 0
  updatedAt := 0

theorem valid_crashItem : crashItem.Valid postgres := by decide

end Sample

end ClusterState.Feedback
