import ClusterState.Data.Checks
import ClusterState.Feedback.Items

/-! # Submitting feedback

`api.submit_feedback` checks its arguments and inserts a row. The constraints of the table say
the same once more. They agree but for a missing kind, which the check lets through.
-/

namespace ClusterState.Feedback

open Data Ternary

structure Submission (Jsonb : Type) where
  project : Option String
  kind : Option String
  title : Option String
  body : Option String
  installationId : Option String
  appVersion : Option String
  contact : Option String
  clientContext : Option Jsonb

structure Normalized (Jsonb : Type) where
  project : Option String
  kind : Option String
  title : Option String
  body : Option String
  installationId : Option String
  appVersion : Option String
  contact : Option String
  context : Jsonb

structure Receipt where
  id : UUID
  status : String
  createdAt : Timestamp
  deriving DecidableEq

/-- `IF … THEN RAISE EXCEPTION` -/
def raiseIf (condition : Ternary) (e : SqlError) : Except SqlError Unit :=
  if condition = some true then throw e else pure ()

def invalidParameter (message : String) : SqlError := ⟨message, "22023"⟩

variable {Jsonb : Type} (pg : Postgres Jsonb)

/-- The declarations of the function. -/
def Submission.normalize (a : Submission Jsonb) : Normalized Jsonb where
  project := a.project.map (pg.lower <| btrim ·)
  kind := a.kind.map (pg.lower <| btrim ·)
  title := a.title.map btrim
  body := a.body.map btrim
  installationId := nullif (a.installationId.map btrim) ""
  appVersion := nullif (a.appVersion.map btrim) ""
  contact := nullif (a.contact.map btrim) ""
  context := a.clientContext.getD pg.emptyObject

def checkLength (low high : Nat) (a : Option String) (message : String) : Except SqlError Unit :=
  raiseIf (disj (isNull a) (neg (between low high (a.map charLength)))) (invalidParameter message)

def checkOptional (high : Nat) (a : Option String) (message : String) : Except SqlError Unit :=
  raiseIf (conj (isNotNull a) (test (high < ·) (a.map charLength))) (invalidParameter message)

def Normalized.check (n : Normalized Jsonb) : Except SqlError Unit := do
  raiseIf (disj (isNull n.project) (neg (test IsProject n.project))) (invalidParameter "invalid project")
  raiseIf (neg (isIn n.kind allowedTypes)) (invalidParameter "invalid kind")
  checkLength 3 160 n.title "invalid title length"
  checkLength 1 10000 n.body "invalid body length"
  checkOptional 128 n.installationId "invalid installation_id length"
  checkOptional 64 n.appVersion "invalid app_version length"
  checkOptional 320 n.contact "invalid contact length"
  raiseIf (disj (test (· ≠ "object") (some (pg.jsonbTypeof n.context)))
    (test (16384 < ·) (some (octetLength (pg.jsonbText n.context))))) (invalidParameter "invalid client_context")

def Normalized.draft (n : Normalized Jsonb) (newId : UUID) (now : Timestamp) : Draft Jsonb where
  id := some newId
  project := n.project
  feedbackType := n.kind
  title := n.title
  body := n.body
  installationId := n.installationId
  appVersion := n.appVersion
  contact := n.contact
  clientContext := some n.context
  status := some "new"
  createdAt := some now
  updatedAt := some now

variable {pg}

/-- `newId` is what `gen_random_uuid` generates. -/
def submitFeedback (newId : UUID) (now : Timestamp) (a : Submission Jsonb) (t : Table pg) :
    Except SqlError (Receipt × Table pg) := do
  (a.normalize pg).check pg
  let (item, t') ← t.insert ((a.normalize pg).draft newId now)
  pure (⟨item.id, "accepted", item.createdAt⟩, t')

/-- Either the arguments are refused, or there is one more row, which the constraints allow. -/
inductive Agrees (t : Table pg) : Except SqlError (Receipt × Table pg) → Prop where
  | refused {e : SqlError} (sqlstate : e.sqlstate = "22023") : Agrees t (.error e)
  | inserted {receipt : Receipt} {t' : Table pg} {item : Item Jsonb} (valid : item.Valid pg)
      (items : t'.items = t.items ++ [item]) (id : receipt.id = item.id) : Agrees t (.ok (receipt, t'))

/-! ## The checks -/

section Checks

theorem raiseIf_eq_ok {condition : Ternary} {e : SqlError} :
    raiseIf condition e = .ok () ↔ condition ≠ some true := by
  unfold raiseIf
  split
  · rename_i h
    exact iff_of_false nofun (not_not_intro h)
  · rename_i h
    exact iff_of_true rfl h

theorem check_bind_eq_ok {f : Unit → Except SqlError Unit} {x : Except SqlError Unit} :
    (x >>= f) = .ok () ↔ x = .ok () ∧ f () = .ok () :=
  Data.bind_eq_ok.trans Unique.exists_iff

theorem checkLength_eq_ok {low high : Nat} {a : Option String} {message : String} :
    checkLength low high a message = .ok () ↔
      ∃ s, a = some s ∧ low ≤ charLength s ∧ charLength s ≤ high := by
  rw [checkLength, raiseIf_eq_ok, between_eq_test]
  cases a <;> simp [test, -Nat.not_le]

theorem checkOptional_eq_ok {high : Nat} {a : Option String} {message : String} :
    checkOptional high a message = .ok () ↔ ∀ s, a = some s → charLength s ≤ high := by
  rw [checkOptional, raiseIf_eq_ok]
  cases a <;> simp

structure Normalized.Sound (pg : Postgres Jsonb) (n : Normalized Jsonb) : Prop where
  project : ∃ s, n.project = some s ∧ IsProject s
  title : ∃ s, n.title = some s ∧ 3 ≤ charLength s ∧ charLength s ≤ 160
  body : ∃ s, n.body = some s ∧ 1 ≤ charLength s ∧ charLength s ≤ 10000
  installationId : ∀ s, n.installationId = some s → charLength s ≤ 128
  appVersion : ∀ s, n.appVersion = some s → charLength s ≤ 64
  contact : ∀ s, n.contact = some s → charLength s ≤ 320
  contextType : pg.jsonbTypeof n.context = "object"
  contextLength : octetLength (pg.jsonbText n.context) ≤ 16384

theorem check_eq_ok {n : Normalized Jsonb} :
    n.check pg = .ok () ↔ n.Sound pg ∧ ∀ s, n.kind = some s → s ∈ allowedTypes := by
  have hproject : disj (isNull n.project) (neg (test IsProject n.project)) ≠ some true ↔
      ∃ s, n.project = some s ∧ IsProject s := by
    cases n.project <;> simp
  have hkind : neg (isIn n.kind allowedTypes) ≠ some true ↔
      ∀ s, n.kind = some s → s ∈ allowedTypes := by
    rw [isIn_eq_test (l := allowedTypes) (List.cons_ne_nil _ _)]
    cases n.kind <;> simp
  have hcontext : disj (test (· ≠ "object") (some (pg.jsonbTypeof n.context)))
      (test (16384 < ·) (some (octetLength (pg.jsonbText n.context)))) ≠ some true ↔
      pg.jsonbTypeof n.context = "object" ∧ octetLength (pg.jsonbText n.context) ≤ 16384 := by
    simp
  unfold Normalized.check
  simp only [check_bind_eq_ok, checkLength_eq_ok, checkOptional_eq_ok, raiseIf_eq_ok, hproject,
    hkind, hcontext]
  constructor
  · rintro ⟨hp, hk, ht, hb, hi, hv, hc, hty, hlen⟩
    exact ⟨⟨hp, ht, hb, hi, hv, hc, hty, hlen⟩, hk⟩
  · rintro ⟨h, hk⟩
    exact ⟨h.project, hk, h.title, h.body, h.installationId, h.appVersion, h.contact, h.contextType,
      h.contextLength⟩

def Refuses (x : Except SqlError Unit) : Prop := ∀ e, x = .error e → e.sqlstate = "22023"

theorem refuses_raiseIf (condition : Ternary) (message : String) :
    Refuses (raiseIf condition (invalidParameter message)) := by
  intro e h
  unfold raiseIf at h
  split at h
  · cases h
    rfl
  · cases h

theorem Refuses.bind {f : Unit → Except SqlError Unit} {x : Except SqlError Unit}
    (hx : Refuses x) (hf : Refuses (f ())) : Refuses (x >>= f) := by
  intro e h
  cases x with
  | error e' => exact hx e h
  | ok u => exact hf e h

theorem refuses_check (n : Normalized Jsonb) : Refuses (n.check pg) := by
  unfold Normalized.check checkLength checkOptional
  repeat apply Refuses.bind (refuses_raiseIf _ _)
  exact refuses_raiseIf _ _

end Checks

/-! ## The row -/

section Row

variable {n : Normalized Jsonb} {t : Table pg} {newId : UUID} {now : Timestamp}

theorem insert_without_kind (h : n.Sound pg) (hkind : n.kind = none) :
    t.insert (n.draft newId now) = .error (notNullViolation "feedback_type") := by
  obtain ⟨project, hproject, -⟩ := h.project
  apply insert_eq_error
  unfold Draft.complete Normalized.draft
  dsimp only
  rw [hproject, hkind]
  rfl

theorem insert_sound (h : n.Sound pg) {kind : String} (hkind : n.kind = some kind)
    (hallowed : kind ∈ allowedTypes) (hfresh : newId ∉ t.items.map Item.id) :
    ∃ item t', t.insert (n.draft newId now) = .ok (item, t') ∧ item.Valid pg ∧
      t'.items = t.items ++ [item] := by
  obtain ⟨project, hproject, hformat⟩ := h.project
  obtain ⟨title, htitle, htitleLength⟩ := h.title
  obtain ⟨body, hbody, hbodyLength⟩ := h.body
  have hcomplete : (n.draft newId now).complete = .ok
      ⟨newId, project, kind, title, body, n.installationId, n.appVersion, n.contact, n.context,
        "new", now, now⟩ := by
    unfold Draft.complete Normalized.draft
    dsimp only
    rw [hproject, hkind, htitle, hbody]
    rfl
  have hvalid := @valid_iff _ pg ⟨newId, project, kind, title, body, n.installationId,
    n.appVersion, n.contact, n.context, "new", now, now⟩ |>.mpr
      ⟨hformat, hallowed, htitleLength, hbodyLength, h.installationId, h.appVersion, h.contact,
        h.contextType, h.contextLength, List.mem_cons_self⟩
  exact ⟨_, _, insert_eq_ok hcomplete hvalid hfresh, hvalid, rfl⟩

end Row

/-- The function and the table agree except on a missing kind among arguments that are otherwise
as the function wants them. -/
theorem submission_agrees_iff (newId : UUID) (now : Timestamp) (a : Submission Jsonb) (t : Table pg)
    (hfresh : newId ∉ t.items.map Item.id) :
    Agrees t (submitFeedback newId now a t) ↔ a.kind ≠ none ∨ ¬ (a.normalize pg).Sound pg := by
  have hnone : (a.normalize pg).kind = none ↔ a.kind = none := Option.map_eq_none_iff
  unfold submitFeedback
  cases hcheck : (a.normalize pg).check pg with
  | error e =>
    apply iff_of_true
    · exact .refused (refuses_check _ e hcheck)
    · rw [← not_and_or]
      rintro ⟨hkind, hsound⟩
      rw [check_eq_ok.mpr ⟨hsound, by simp [hnone.mpr hkind]⟩] at hcheck
      cases hcheck
  | ok u =>
    obtain ⟨hsound, hallowed⟩ := check_eq_ok.mp hcheck
    cases hkind : (a.normalize pg).kind with
    | none =>
      apply iff_of_false
      · dsimp only [Bind.bind, Except.bind]
        rw [insert_without_kind hsound hkind]
        rintro ⟨hsqlstate⟩
        exact absurd hsqlstate (by decide)
      · exact fun h => h.elim (fun hne => hne (hnone.mp hkind)) fun hns => hns hsound
    | some kind =>
      obtain ⟨item, t', hinsert, hvalid, hitems⟩ :=
        @insert_sound _ _ _ _ _ now hsound _ hkind (hallowed kind hkind) hfresh
      apply iff_of_true
      · dsimp only [Bind.bind, Except.bind]
        rw [hinsert]
        exact .inserted hvalid hitems rfl
      · left
        intro h
        rw [hnone.mpr h] at hkind
        cases hkind

/-! ## Two submissions -/

namespace Sample

def noItems : Table postgres where
  items := []
  valid := nofun
  unique := List.nodup_nil

theorem fresh_noItems (id : UUID) : id ∉ noItems.items.map Item.id := List.not_mem_nil

def crash (kind : Option String) : Submission String where
  project := some "Media "
  kind := kind
  title := some "It crashes"
  body := some "At start."
  installationId := none
  appVersion := some " "
  contact := none
  clientContext := none

end Sample

theorem bug_report_is_submitted :
    Agrees Sample.noItems (submitFeedback Sample.itemId 0 (Sample.crash (some "bug_report")) Sample.noItems) :=
  (submission_agrees_iff Sample.itemId 0 (Sample.crash (some "bug_report")) Sample.noItems
    (Sample.fresh_noItems _)).mpr (.inl nofun)

theorem missing_kind_fails_in_insert : ¬ ∀ (newId : UUID) (now : Timestamp) (a : Submission String)
    (t : Table Sample.postgres), newId ∉ t.items.map Item.id → Agrees t (submitFeedback newId now a t) := by
  intro h
  have hagrees := h Sample.itemId 0 (Sample.crash none) Sample.noItems (Sample.fresh_noItems _)
  have hcheck : ((Sample.crash none).normalize Sample.postgres).check Sample.postgres = .ok () := by
    decide
  unfold submitFeedback at hagrees
  rw [hcheck] at hagrees
  dsimp only [Bind.bind, Except.bind] at hagrees
  rw [insert_without_kind (check_eq_ok.mp hcheck).1 rfl] at hagrees
  obtain ⟨hsqlstate⟩ := hagrees
  exact absurd hsqlstate (by decide)

end ClusterState.Feedback
