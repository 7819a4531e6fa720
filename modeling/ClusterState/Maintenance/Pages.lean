import ClusterState.Maintenance.Drained

/-! # What the pages of a status say

Stated in terms of the answers alone, not of the functions that check them.
-/

namespace ClusterState.Maintenance

abbrev Log := List (Query × Answer)

/-- The last header `x-next-page`, in any case of letters. -/
def Announces (headers : List (String × Json)) (next : String) : Prop :=
  ∃ before name after, headers = before ++ (name, .str next) :: after ∧
    name.toLower = "x-next-page" ∧ ∀ header ∈ after, header.1.toLower ≠ "x-next-page"

def IsPageNumber (page : String) : Prop :=
  ∃ first rest, page.toList = first :: rest ∧ first ∈ "123456789".toList ∧
    ∀ c ∈ rest, c ∈ "0123456789".toList

def IsJob (status : String) (value : Json) : Prop :=
  (∃ id, value.get "id" = some (.int id) ∧ 0 < id) ∧ value.get "status" = some (.str status)

structure Jobs (status : String) (values : List Json) : Prop where
  each : ∀ value ∈ values, IsJob status value
  distinct : (values.map fun value => value.get "id").Nodup

/-- The pages of one status: empty ones, up to one that is the last or that shows jobs. None
of them is among the pages `seen` before, and none is announced twice. -/
inductive Chain (status : String) : Bool → List String → String → Log → Prop
  | idle (seen : List String) (page : String) (headers : List (String × Json))
      (hnext : Announces headers "") :
      Chain status true seen page [(⟨status, page⟩, .ok (.arr [], headers))]
  | busy (seen : List String) (page next : String) (values : List Json)
      (headers : List (String × Json)) (hne : values ≠ []) (hjobs : Jobs status values)
      (hnext : Announces headers next) (hpage : next = "" ∨ IsPageNumber next)
      (hnew : next ∉ page :: seen) :
      Chain status false seen page [(⟨status, page⟩, .ok (.arr values, headers))]
  | more (idle : Bool) (seen : List String) (page next : String) (headers : List (String × Json))
      (rest : Log) (hnext : Announces headers next) (hpage : IsPageNumber next)
      (hnew : next ∉ page :: seen) (hrest : Chain status idle (page :: seen) next rest) :
      Chain status idle seen page ((⟨status, page⟩, .ok (.arr [], headers)) :: rest)

theorem Chain.status {status page : String} {idle : Bool} {seen : List String} {entries : Log}
    (h : Chain status idle seen page entries) : ∀ entry ∈ entries, entry.1.status = status := by
  induction h with
  | idle seen page headers _ => simp
  | busy seen page next values headers _ _ _ _ _ => simp
  | more idle seen page next headers rest _ _ _ _ ih => simpa using ih

/-! ## The checks -/

theorem jobId_eq {value : Json} {id : Int} (h : jobId value = some id) :
    value.get "id" = some (.int id) ∧ 0 < id := by
  unfold jobId at h
  split at h
  · rename_i n hn
    split at h
    · cases h
      exact ⟨hn, by assumption⟩
    · cases h
  · cases h

theorem checkJob_ok {status : String} {seen seen' : List Int} {value : Json}
    (h : checkJob status seen value = .ok seen') :
    ∃ id, value.get "id" = some (.int id) ∧ id ∉ seen ∧ seen' = id :: seen ∧ IsJob status value := by
  unfold checkJob at h
  split at h
  · rename_i id hid
    split at h
    · rename_i hok
      cases h
      rw [Bool.and_eq_true, Bool.not_eq_true', beq_iff_eq] at hok
      obtain ⟨hnew, hstatus⟩ := hok
      obtain ⟨hget, hpos⟩ := jobId_eq hid
      obtain ⟨j, hj, htext⟩ := Option.bind_eq_some_iff.mp hstatus
      cases j <;> cases htext
      refine ⟨id, hget, ?_, rfl, ⟨id, hget, hpos⟩, hj⟩
      intro hmem
      rw [List.contains_iff_mem.mpr hmem] at hnew
      cases hnew
    · cases h
  · cases h

theorem checkJobs_ok {status : String} {seen seen' : List Int} {values : List Json}
    (h : values.foldlM (checkJob status) seen = .ok seen') :
    Jobs status values ∧ ∀ value ∈ values, ∀ id ∈ seen, value.get "id" ≠ some (.int id) := by
  induction values generalizing seen with
  | nil => exact ⟨⟨List.forall_mem_nil _, List.nodup_nil⟩, List.forall_mem_nil _⟩
  | cons value values ih =>
    rw [List.foldlM_cons, Data.bind_eq_ok] at h
    obtain ⟨_, hvalue, hrest⟩ := h
    obtain ⟨id, hid, hnew, rfl, hjob⟩ := checkJob_ok hvalue
    obtain ⟨hjobs, hother⟩ := ih hrest
    constructor
    · constructor
      · exact List.forall_mem_cons.mpr ⟨hjob, hjobs.each⟩
      · rw [List.map_cons, List.nodup_cons]
        refine ⟨?_, hjobs.distinct⟩
        intro hmem
        obtain ⟨other, hmem, heq⟩ := List.mem_map.mp hmem
        exact hother other hmem id List.mem_cons_self (heq.trans hid)
    · rw [List.forall_mem_cons]
      constructor
      · intro id' hmem heq
        cases hid.symm.trans heq
        exact hnew hmem
      · intro other hmem id' hid'
        exact hother other hmem id' (List.mem_cons_of_mem _ hid')

theorem announces_of_nextPageHeader {headers : List (String × Json)} {next : String}
    (h : nextPageHeader headers = some (.str next)) : Announces headers next := by
  rw [nextPageHeader, ← List.head?_reverse, ← List.filter_reverse, List.head?_filter] at h
  obtain ⟨⟨name, value⟩, hfind, rfl⟩ := Option.map_eq_some_iff.mp h
  obtain ⟨hname, after, before, hheaders, hafter⟩ := List.find?_eq_some_iff_append.mp hfind
  refine ⟨before.reverse, name, after.reverse, ?_, ?_, ?_⟩
  · rw [List.reverse_eq_iff] at hheaders
    simp [hheaders]
  · exact beq_iff_eq.mp hname
  · intro header hmem heq
    have hnot := hafter header (List.mem_reverse.mp hmem)
    rw [heq] at hnot
    cases hnot

theorem mem_digits {c : Char} (h : c.isDigit = true) : c ∈ "0123456789".toList := by
  rw [Char.isDigit, Bool.and_eq_true, decide_eq_true_eq, decide_eq_true_eq] at h
  have hlow : 48 ≤ c.toNat := h.1
  have hhigh : c.toNat ≤ 57 := h.2
  rw [← Char.ofNat_toNat c]
  interval_cases c.toNat <;> decide

theorem isPageNumber_of_isNextPage {page : String} (h : isNextPage page = true) :
    page = "" ∨ IsPageNumber page := by
  unfold isNextPage at h
  split at h
  · rename_i hempty
    exact .inl (String.toList_eq_nil_iff.mp hempty)
  · rename_i c rest hlist
    simp only [Bool.and_eq_true, bne_iff_ne, List.all_eq_true] at h
    obtain ⟨⟨hfirst, hzero⟩, hrest⟩ := h
    refine .inr ⟨c, rest, hlist, ?_, fun d hd => mem_digits (hrest d hd)⟩
    exact (List.mem_cons.mp (mem_digits hfirst)).resolve_left hzero

theorem nextPage_ok {headers : List (String × Json)} {next : String}
    (h : nextPage headers = .ok next) :
    Announces headers next ∧ (next = "" ∨ IsPageNumber next) := by
  unfold nextPage at h
  split at h
  · rename_i page hpage
    split at h
    · rename_i hnext
      cases h
      obtain ⟨j, hj, htext⟩ := Option.bind_eq_some_iff.mp hpage
      cases j <;> cases htext
      exact ⟨announces_of_nextPageHeader hj, isPageNumber_of_isNextPage hnext⟩
    · cases h
  · cases h

theorem readPage_ok {status : String} {seen seen' : List Int} {answer : Answer}
    {values : List Json} {next : String} (h : readPage status seen answer = .ok (values, seen', next)) :
    ∃ headers, answer = .ok (.arr values, headers) ∧ Jobs status values ∧
      Announces headers next ∧ (next = "" ∨ IsPageNumber next) := by
  cases answer with
  | error e => cases h
  | ok found =>
    obtain ⟨body, headers⟩ := found
    cases body with
    | arr found =>
      obtain ⟨seen₁, hjobs, h⟩ := Data.bind_eq_ok.mp h
      obtain ⟨page, hpage, h⟩ := Data.bind_eq_ok.mp h
      cases h
      exact ⟨headers, rfl, (checkJobs_ok hjobs).1, nextPage_ok hpage⟩
    | _ => cases h

theorem checkJob_refuses {status : String} {seen : List Int} {value : Json} :
    checkJob status seen value ≠ .error .exception := by
  unfold checkJob
  intro h
  repeat' split at h
  all_goals cases h

theorem checkJobs_refuses {status : String} {seen : List Int} {values : List Json} :
    values.foldlM (checkJob status) seen ≠ .error .exception := by
  induction values generalizing seen with
  | nil => exact nofun
  | cons value values ih => exact bind_refuses checkJob_refuses fun _ => ih

theorem nextPage_refuses {headers : List (String × Json)} :
    nextPage headers ≠ .error .exception := by
  unfold nextPage
  intro h
  repeat' split at h
  all_goals cases h

theorem answer_of_exception {status : String} {seen : List Int} {answer : Answer}
    (h : readPage status seen answer = .error .exception) : answer = .error .exception := by
  cases answer with
  | error e => rw [Except.error.inj h]
  | ok found =>
    obtain ⟨body, headers⟩ := found
    cases body with
    | arr found =>
      exact absurd h (bind_refuses checkJobs_refuses fun _ => bind_refuses nextPage_refuses
        fun _ => nofun)
    | _ => cases h

end ClusterState.Maintenance
