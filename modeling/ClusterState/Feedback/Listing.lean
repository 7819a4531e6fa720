import ClusterState.Data.Paging
import ClusterState.Feedback.Submitting

/-! # Listing feedback

`api.list_feedback` returns a page of the newest items below a time. A time is the whole
cursor: items of the time with which a page ends are not on the next one.
-/

namespace ClusterState.Feedback

open Data Ternary Paging

variable {Jsonb : Type} {pg : Postgres Jsonb}

/-- `ORDER BY item.created_at DESC` -/
abbrev Plan (Jsonb : Type) := Arrangement (@Item.createdAt Jsonb)

/-- The declarations of the function. -/
def normalizeFilter (pg : Postgres Jsonb) (filter : Option String) : Option String :=
  nullif (filter.map (pg.lower <| btrim ·)) ""

def boundedLimit (limitCount : Option Int) : Nat := (min (max (limitCount.getD 100) 1) 500).toNat

def checkFilters (project status : Option String) : Except SqlError Unit := do
  raiseIf (conj (isNotNull project) (neg (test IsProject project))) (invalidParameter "invalid project")
  raiseIf (conj (isNotNull status) (neg (isIn status allowedStatuses))) (invalidParameter "invalid status")

def unfiltered (filter : Option String) (value : String) : Ternary :=
  disj (isNull filter) (test (value = ·) filter)

/-- The `WHERE` clause. -/
def Item.selected (project status : Option String) (before : Option Timestamp) (item : Item Jsonb) : Ternary :=
  conj (conj (unfiltered project item.project) (unfiltered status item.status))
    (disj (isNull before) (test (item.createdAt < ·) before))

/-- All columns are returned, `feedback_type` as `kind`. -/
def listFeedback (plan : Plan Jsonb) (projectFilter statusFilter : Option String)
    (beforeCreatedAt : Option Timestamp) (limitCount : Option Int) (t : Table pg) :
    Except SqlError (List (Item Jsonb)) := do
  let project := normalizeFilter pg projectFilter
  let status := normalizeFilter pg statusFilter
  checkFilters project status
  let rows := t.items.filter fun item => item.selected project status beforeCreatedAt = some true
  pure ((plan.sort rows).take (boundedLimit limitCount))

def matching (projectFilter statusFilter : Option String) (t : Table pg) : List (Item Jsonb) :=
  t.items.filter fun item =>
    item.selected (normalizeFilter pg projectFilter) (normalizeFilter pg statusFilter) none = some true

def listAll (plans : Nat → Plan Jsonb) (projectFilter statusFilter : Option String)
    (limitCount : Option Int) (t : Table pg) : Except SqlError (Option (List (Item Jsonb))) :=
  walk Item.createdAt
    (fun n before => listFeedback (plans n) projectFilter statusFilter before limitCount t)
    (t.items.length + 1) none

/-- Every item that matches is listed once, the newest first. Filters are refused only if nothing
can match them. -/
inductive Lossless (rows : List (Item Jsonb)) : Except SqlError (Option (List (Item Jsonb))) → Prop where
  | refused {e : SqlError} (sqlstate : e.sqlstate = "22023") (nothing : rows = []) : Lossless rows (.error e)
  | listed {items : List (Item Jsonb)} (perm : items.Perm rows)
      (order : items.Pairwise fun a b => b.createdAt ≤ a.createdAt) : Lossless rows (.ok (some items))

/-! ## Filters -/

section Filters

variable {project status : Option String} {before : Option Timestamp}
  {projectFilter statusFilter : Option String} {t : Table pg}

theorem boundedLimit_pos (limitCount : Option Int) : 0 < boundedLimit limitCount := by
  unfold boundedLimit
  omega

theorem unfiltered_eq_true {filter : Option String} {value : String} :
    unfiltered filter value = some true ↔ ∀ s, filter = some s → s = value := by
  rw [unfiltered, disj_eq_true, isNull_eq_true, test_eq_true]
  cases filter <;> simp

theorem selected_eq_true {item : Item Jsonb} : item.selected project status before = some true ↔
    item.selected project status none = some true ∧ ∀ c, before = some c → item.createdAt < c := by
  unfold Item.selected
  cases before <;> simp

theorem checkFilters_eq_ok : checkFilters project status = .ok () ↔
    (∀ s, project = some s → IsProject s) ∧ ∀ s, status = some s → s ∈ allowedStatuses := by
  unfold checkFilters
  rw [check_bind_eq_ok, raiseIf_eq_ok, raiseIf_eq_ok,
    isIn_eq_test (l := allowedStatuses) (List.cons_ne_nil _ _)]
  cases project <;> cases status <;> simp

theorem refuses_checkFilters : Refuses (checkFilters project status) :=
  (refuses_raiseIf _ _).bind (refuses_raiseIf _ _)

theorem matching_of_refused {e : SqlError}
    (h : checkFilters (normalizeFilter pg projectFilter) (normalizeFilter pg statusFilter) = .error e) :
    matching projectFilter statusFilter t = [] := by
  unfold matching
  rw [List.filter_eq_nil_iff]
  intro item hitem hselected
  obtain ⟨hproject, -, -, -, -, -, -, -, -, hstatus⟩ := valid_iff.mp (t.valid item hitem)
  rw [decide_eq_true_eq, Item.selected, conj_eq_true, conj_eq_true, unfiltered_eq_true,
    unfiltered_eq_true] at hselected
  have hok := (@checkFilters_eq_ok (normalizeFilter pg projectFilter)
    (normalizeFilter pg statusFilter)).mpr
    ⟨fun s hs => hselected.1.1 s hs ▸ hproject, fun s hs => hselected.1.2 s hs ▸ hstatus⟩
  rw [hok] at h
  cases h

theorem listFeedback_eq_page (plan : Plan Jsonb) (limitCount : Option Int)
    (h : checkFilters (normalizeFilter pg projectFilter) (normalizeFilter pg statusFilter) = .ok ()) :
    listFeedback plan projectFilter statusFilter before limitCount t =
      .ok (page plan (boundedLimit limitCount) before (matching projectFilter statusFilter t)) := by
  unfold listFeedback page
  dsimp only
  rw [h]
  have hrows : (t.items.filter fun item => item.selected (normalizeFilter pg projectFilter)
      (normalizeFilter pg statusFilter) before = some true) =
        below Item.createdAt before (matching projectFilter statusFilter t) := by
    unfold matching below
    rw [List.filter_filter]
    apply List.filter_congr
    intro item _
    rw [Bool.eq_iff_iff, Bool.and_eq_true, decide_eq_true_eq, decide_eq_true_eq, selected_eq_true, and_comm]
    apply and_congr_left
    intro _
    cases before <;> simp
  rw [hrows]
  rfl

end Filters

theorem listAll_accepted (plans : Nat → Plan Jsonb) {projectFilter statusFilter : Option String}
    (limitCount : Option Int) (t : Table pg)
    (h : checkFilters (normalizeFilter pg projectFilter) (normalizeFilter pg statusFilter) = .ok ()) :
    ∃ items, listAll plans projectFilter statusFilter limitCount t = .ok (some items) ∧
      items.Pairwise (fun a b => b.createdAt ≤ a.createdAt) ∧
      (items.Perm (matching projectFilter statusFilter t) ↔ Separated (boundedLimit limitCount)
        (descending Item.createdAt (matching projectFilter statusFilter t))) := by
  unfold listAll
  simp only [listFeedback_eq_page _ _ h]
  have hall : below Item.createdAt none (matching projectFilter statusFilter t) =
      matching projectFilter statusFilter t := by simp [below]
  have hcalls : (below Item.createdAt none (matching projectFilter statusFilter t)).length <
      t.items.length + 1 := by
    rw [hall]
    exact Nat.lt_succ_of_le (List.length_filter_le _ _)
  obtain ⟨items, hwalk, -, hsorted, hperm⟩ :=
    walk_page (ε := SqlError) plans (boundedLimit_pos limitCount) hcalls
  rw [hall] at hperm
  exact ⟨items, hwalk, hsorted, hperm⟩

theorem listAll_refused (plans : Nat → Plan Jsonb) {projectFilter statusFilter : Option String}
    (limitCount : Option Int) (t : Table pg) {e : SqlError}
    (h : checkFilters (normalizeFilter pg projectFilter) (normalizeFilter pg statusFilter) = .error e) :
    listAll plans projectFilter statusFilter limitCount t = .error e := by
  unfold listAll walk listFeedback
  dsimp only
  rw [h]
  rfl

/-- Nothing is lost exactly if, from the newest down, no page ends between two items that match and
have the same time. -/
theorem listing_lossless_iff (plans : Nat → Plan Jsonb) (projectFilter statusFilter : Option String)
    (limitCount : Option Int) (t : Table pg) :
    Lossless (matching projectFilter statusFilter t)
        (listAll plans projectFilter statusFilter limitCount t) ↔
      Separated (boundedLimit limitCount)
        (descending Item.createdAt (matching projectFilter statusFilter t)) := by
  cases hcheck : checkFilters (normalizeFilter pg projectFilter) (normalizeFilter pg statusFilter) with
  | error e =>
    rw [listAll_refused plans limitCount t hcheck, matching_of_refused hcheck]
    exact iff_of_true (.refused (refuses_checkFilters e hcheck) rfl) (separated_of_nil _)
  | ok u =>
    obtain ⟨items, hlist, hsorted, hperm⟩ := listAll_accepted plans limitCount t hcheck
    rw [hlist, ← hperm]
    constructor
    · rintro ⟨⟩
      assumption
    · intro h
      exact .listed h hsorted

namespace Sample

def twoItems : Table postgres where
  items := [crashItem, { crashItem with id := 0x5f0d#128 }]
  valid := by
    simp only [List.forall_mem_cons, List.not_mem_nil, false_imp_iff, imp_true_iff, and_true]
    exact ⟨valid_crashItem, by decide⟩
  unique := by decide

end Sample

theorem tied_item_is_lost : ¬ ∀ (plans : Nat → Plan String) (projectFilter statusFilter : Option String)
    (limitCount : Option Int) (t : Table Sample.postgres),
    Lossless (matching projectFilter statusFilter t)
      (listAll plans projectFilter statusFilter limitCount t) := by
  intro h
  have hlossless := h (fun _ => .stable _) none none (some 1) Sample.twoItems
  obtain ⟨items, hlist, -, hperm⟩ := @listAll_accepted _ _ (fun _ => .stable _) none none
    (some 1) Sample.twoItems rfl
  rw [hlist] at hlossless
  obtain ⟨⟩ | ⟨hall, -⟩ := hlossless
  have hseparated := hperm.mp hall
  rw [descending_eq .rfl (by decide)] at hseparated
  exact hseparated 0 0 0 (by decide) (by decide) rfl

end ClusterState.Feedback
