import ClusterState.Concurrency.Execution
import ClusterState.Maintenance.Pages

/-! # What the answer of `drained` means

The filters are asked for in the order in which a job goes through them, so a job that
was missed behind the scan would have had to move back. Against any server the scan is
bounded, and its answer is what the pages said.
-/

namespace ClusterState.Maintenance

open Concurrency

/-! ## Any server -/

def asked (status : String) (log : Log) : Log := log.filter fun entry => entry.1.status == status

def anyServer : System PUnit.{1} Query (fun _ => Answer) Log where
  performs _ q log answer log' := log' = (q, answer) :: log
  env _ _ := False

theorem asked_append {status : String} {log log' : Log} :
    asked status (log ++ log') = asked status log ++ asked status log' := List.filter_append _ _

theorem asked_of_ne {status : String} {log : Log} (h : ∀ entry ∈ log, entry.1.status ≠ status) :
    asked status log = [] := by
  rw [asked, List.filter_eq_nil_iff]
  intro entry hentry hstatus
  exact h entry hentry (beq_iff_eq.mp hstatus)

theorem asked_of_eq {status : String} {log : Log} (h : ∀ entry ∈ log, entry.1.status = status) :
    asked status log = log :=
  List.filter_eq_self.mpr fun entry hentry => beq_iff_eq.mpr (h entry hentry)

/-- No status is asked for more than a hundred times, and no other one at all. -/
def Bounded (log : Log) : Prop :=
  (∀ status, (asked status log).length ≤ 100) ∧ ∀ entry ∈ log, entry.1.status ∈ ACTIVE

def bounded : Discipline PUnit.{1} Query (fun _ => Answer) Log :=
  .alone (fun q log answer log' => log' = (q, answer) :: log) Bounded
    (fun q log => (asked q.status log).length < 100 ∧ q.status ∈ ACTIVE) (by
      rintro q log answer _ ⟨hcount, hactive⟩ ⟨hguard, hstatus⟩ rfl
      refine ⟨fun status => ?_, List.forall_mem_cons.mpr ⟨hstatus, hactive⟩⟩
      rw [asked, List.filter_cons]
      split
      · rename_i heq
        rw [beq_iff_eq] at heq
        subst heq
        exact hguard
      · exact hcount status)

def Shown (status : String) (seen : List String) (page : String) (log : Log) (idle : Bool)
    (log' : Log) : Prop :=
  ∃ entries : Log, log' = entries.reverse ++ log ∧ Chain status idle seen page entries

theorem Shown.of_single {status page : String} {seen : List String} {log : Log} {idle : Bool}
    {entry : Query × Answer} (h : Chain status idle seen page [entry]) :
    Shown status seen page log idle (entry :: log) := ⟨[entry], rfl, h⟩

theorem Shown.more {status page next : String} {seen : List String} {log log' : Log}
    {headers : List (String × Json)} {idle : Bool}
    (h : Shown status (page :: seen) next ((⟨status, page⟩, .ok (.arr [], headers)) :: log) idle log')
    (hnext : Announces headers next) (hpage : IsPageNumber next) (hnew : next ∉ page :: seen) :
    Shown status seen page log idle log' := by
  obtain ⟨entries, rfl, hchain⟩ := h
  refine ⟨(⟨status, page⟩, .ok (.arr [], headers)) :: entries, by simp, ?_⟩
  exact .more idle seen page next headers entries hnext hpage hnew hchain

def Raised (e : Failure) (log : Log) : Prop :=
  e = .exception → ∃ entry ∈ log, entry.2 = .error .exception

theorem meets_pages {status : String} (hactive : status ∈ ACTIVE) {left : Nat}
    {seenPages : List String} {seenJobs : List Int} {page : String} {log : Log}
    (hleft : (asked status log).length + left ≤ 100) :
    bounded.Meets ⟨⟩ (Shown status seenPages page log) Raised
      (pages status left seenPages seenJobs page) log := by
  induction left generalizing seenPages seenJobs page log with
  | zero => exact nofun
  | succ left ih =>
    unfold pages
    split
    · exact nofun
    · refine Discipline.meets_ask ⟨by change (asked status log).length < 100; omega, hactive⟩ ?_
      rintro answer _ - rfl
      cases hread : readPage status seenJobs answer with
      | error e =>
        rintro rfl
        exact ⟨_, List.mem_cons_self, answer_of_exception hread⟩
      | ok found =>
        obtain ⟨values, seenJobs', next⟩ := found
        obtain ⟨headers, rfl, hjobs, hnext, hpage⟩ := readPage_ok hread
        simp only
        split
        · exact nofun
        · rename_i hseen
          have hnew : next ∉ page :: seenPages := fun hmem => hseen (List.contains_iff_mem.mpr hmem)
          split
          · rename_i hbusy
            have hne : values ≠ [] := by
              rintro rfl
              cases hbusy
            exact .of_single (.busy seenPages page next values headers hne hjobs hnext hpage hnew)
          · rename_i hempty
            obtain rfl : values = [] := by simpa using hempty
            split
            · rename_i hend
              obtain rfl := beq_iff_eq.mp hend
              exact .of_single (.idle seenPages page headers hnext)
            · rename_i hmore
              have hcount : (asked status ((⟨status, page⟩, .ok (.arr [], headers)) :: log)).length =
                  (asked status log).length + 1 := by
                simp [asked]
              have hnumber := hpage.resolve_left fun heq => hmore (beq_iff_eq.mpr heq)
              refine (ih (by omega)).mono (fun idle t hshown => ?_) fun _ _ h => h
              exact hshown.more hnext hnumber hnew

def Scanned (statuses : List String) (log : Log) (idle : Bool) (log' : Log) : Prop :=
  match idle with
  | true => (∀ status ∈ statuses, Chain status true [] "1" (asked status log').reverse) ∧
      ∀ status ∉ statuses, asked status log' = asked status log
  | false => ∃ before status after, statuses = before ++ status :: after ∧
      (∀ other ∈ before, Chain other true [] "1" (asked other log').reverse) ∧
      Chain status false [] "1" (asked status log').reverse ∧
      ∀ other ∉ before, other ≠ status → asked other log' = asked other log

theorem asked_pages {status page : String} {idle : Bool} {seen : List String} {entries log : Log}
    (h : Chain status idle seen page entries) (hnew : asked status log = []) :
    asked status (entries.reverse ++ log) = entries.reverse ∧
      ∀ other, other ≠ status → asked other (entries.reverse ++ log) = asked other log := by
  have hreverse : ∀ entry ∈ entries.reverse, entry.1.status = status :=
    fun entry hentry => h.status entry (List.mem_reverse.mp hentry)
  constructor
  · rw [asked_append, asked_of_eq hreverse, hnew, List.append_nil]
  · intro other hne
    have hnone : ∀ entry ∈ entries.reverse, entry.1.status ≠ other := by
      intro entry hentry
      rw [hreverse entry hentry]
      exact hne.symm
    rw [asked_append, asked_of_ne hnone, List.nil_append]

theorem Scanned.cons {status : String} {rest : List String} {log log₁ log' : Log} {idle : Bool}
    (hstatus : status ∉ rest) (hchain : Chain status true [] "1" (asked status log₁).reverse)
    (hother : ∀ other, other ≠ status → asked other log₁ = asked other log)
    (h : Scanned rest log₁ idle log') : Scanned (status :: rest) log idle log' := by
  cases idle with
  | true =>
    obtain ⟨hchains, hrest⟩ := h
    constructor
    · rw [List.forall_mem_cons, hrest status hstatus]
      exact ⟨hchain, hchains⟩
    · intro other hmem
      rw [List.mem_cons, not_or] at hmem
      rw [hrest other hmem.2, hother other hmem.1]
  | false =>
    obtain ⟨before, busy, after, rfl, hchains, hbusy, hrest⟩ := h
    rw [List.mem_append, List.mem_cons, not_or, not_or] at hstatus
    refine ⟨status :: before, busy, after, rfl, ?_, hbusy, ?_⟩
    · rw [List.forall_mem_cons, hrest status hstatus.1 hstatus.2.1]
      exact ⟨hchain, hchains⟩
    · intro other hmem hne
      rw [List.mem_cons, not_or] at hmem
      rw [hrest other hmem.2 hne, hother other hmem.1]

theorem meets_drainedOf {statuses : List String} (hactive : statuses ⊆ ACTIVE)
    (hnodup : statuses.Nodup) {log : Log} (hnew : ∀ status ∈ statuses, asked status log = []) :
    bounded.Meets ⟨⟩ (Scanned statuses log) Raised (drainedOf statuses) log := by
  induction statuses generalizing log with
  | nil => exact ⟨nofun, fun _ _ => rfl⟩
  | cons status rest ih =>
    rw [List.nodup_cons] at hnodup
    rw [List.forall_mem_cons] at hnew
    refine (meets_pages (hactive List.mem_cons_self) (by rw [hnew.1]; decide)).bind
      fun idle t hshown => ?_
    obtain ⟨entries, rfl, hchain⟩ := hshown
    obtain ⟨hsame, hother⟩ := asked_pages hchain hnew.1
    rw [← List.reverse_reverse entries, ← hsame] at hchain
    cases idle with
    | false => exact ⟨[], status, rest, rfl, List.forall_mem_nil _, hchain, fun other _ => hother other⟩
    | true =>
      refine (ih (List.subset_of_cons_subset hactive) hnodup.2 fun other hmem => ?_).mono
        (fun idle t hscanned => hscanned.cons hnodup.1 hchain hother) fun _ _ h => h
      rw [hother other fun heq => hnodup.1 (heq ▸ hmem), hnew.2 other hmem]

theorem length_le_of_asked {statuses : List String} {log : Log}
    (hmem : ∀ entry ∈ log, entry.1.status ∈ statuses)
    (hcount : ∀ status, (asked status log).length ≤ 100) :
    log.length ≤ 100 * statuses.length := by
  induction statuses generalizing log with
  | nil =>
    cases log with
    | nil => exact Nat.zero_le _
    | cons entry log => exact absurd (hmem entry List.mem_cons_self) List.not_mem_nil
  | cons status rest ih =>
    have hsplit := List.length_eq_length_filter_add (l := log) fun entry => entry.1.status == status
    have hrest := @ih (log.filter fun entry => !(entry.1.status == status))
      (fun entry hentry => by
        obtain ⟨hlog, hne⟩ := List.mem_filter.mp hentry
        refine (List.mem_cons.mp (hmem entry hlog)).resolve_left fun heq => ?_
        rw [heq, beq_self_eq_true] at hne
        cases hne)
      (fun other => (List.Sublist.length_le
        (List.Sublist.filter _ List.filter_sublist)).trans (hcount other))
    have hhere := hcount status
    rw [asked] at hhere
    rw [List.length_cons]
    omega

/-! ## It comes to an end -/

/-- A program that is never stuck. -/
def Ends {α : Type} : Drain α → Prop
  | .done _ => True
  | .raise _ => True
  | .halt => False
  | .ask _ next => ∀ answer, Ends (next answer)

theorem Ends.bind {α β : Type} {m : Drain α} {f : α → Drain β} (hm : Ends m)
    (hf : ∀ a, Ends (f a)) : Ends (m >>= f) := by
  change Ends (m.bind f)
  induction m with
  | done a => exact hf a
  | raise e => trivial
  | halt => exact hm.elim
  | ask r next ih => exact fun answer => ih answer (hm answer)

theorem ends_pages {status : String} {left : Nat} {seenPages : List String} {seenJobs : List Int}
    {page : String} : Ends (pages status left seenPages seenJobs page) := by
  induction left generalizing seenPages seenJobs page with
  | zero => trivial
  | succ left ih =>
    unfold pages
    split
    · trivial
    · intro answer
      dsimp only
      split
      · trivial
      · split
        · trivial
        · split
          · trivial
          · split
            · trivial
            · exact ih

theorem ends_drainedOf {statuses : List String} : Ends (drainedOf statuses) := by
  induction statuses with
  | nil => trivial
  | cons status rest ih =>
    refine ends_pages.bind fun idle => ?_
    cases idle with
    | false => trivial
    | true => exact ih

theorem eval_isSome {α S : Type} {respond : Query → S → Answer × S} {m : Drain α} (h : Ends m)
    (s : S) : ((m.eval (fun q s => some (respond q s)) s).1).isSome := by
  induction m generalizing s with
  | done a => rfl
  | raise e => rfl
  | halt => exact h.elim
  | ask q next ih => exact ih _ (h _) _

/-! ## Moving jobs -/

section Moving

variable {Job : Type}

/-- Completed statuses come after all others. -/
def rank (status : String) : Nat := ACTIVE.idxOf status

/-- Jobs move forward, and there may be new ones. -/
def Forward (jobs jobs' : Job → Option String) : Prop :=
  ∀ job status, jobs job = some status → ∃ status', jobs' job = some status' ∧ rank status ≤ rank status'

/-- The first page for a status is not empty while there is a job of it. -/
def endpoint : System PUnit.{1} Query (fun _ => Answer) (Job → Option String) where
  performs _ q jobs answer jobs' := jobs' = jobs ∧
    (q.page = "1" → (∃ job, jobs job = some q.status) →
      ∀ headers, answer ≠ .ok (.arr [], headers))
  env := Forward

theorem Forward.trans {jobs jobs' jobs'' : Job → Option String} (h : Forward jobs jobs')
    (h' : Forward jobs' jobs'') : Forward jobs jobs'' := by
  intro job status hjob
  obtain ⟨status', hjob', hle⟩ := h job status hjob
  obtain ⟨status'', hjob'', hle'⟩ := h' job status' hjob'
  exact ⟨status'', hjob'', hle.trans hle'⟩

theorem Forward.refl (jobs : Job → Option String) : Forward jobs jobs :=
  fun _ status hjob => ⟨status, hjob, le_rfl⟩

def moving (start : Job → Option String) :
    Discipline PUnit.{1} Query (fun _ => Answer) (Job → Option String) where
  toSystem := endpoint
  inv := Forward start
  guard _ _ _ := True
  quiet _ _ := True
  guard_of_quiet _ _ _ _ := trivial
  inv_performs _ _ _ _ _ h _ hperforms := hperforms.1 ▸ h
  inv_env _ _ h henv := h.trans henv

def Beyond (start : Job → Option String) (k : Nat) (jobs : Job → Option String) : Prop :=
  ∀ job status, start job = some status → status ∈ ACTIVE →
    ∀ status', jobs job = some status' → k ≤ rank status'

variable {start : Job → Option String} {k : Nat}

theorem stable_beyond : (moving start).Stable ⟨⟩ (Beyond start k) := by
  rintro jobs jobs' ⟨hinv, henv | ⟨j, q, answer, -, -, hsame, -⟩⟩ hbeyond
  · intro job status hjob hactive status' hjob'
    obtain ⟨status₁, hjob₁, -⟩ := hinv job status hjob
    obtain ⟨status₂, hjob₂, hle⟩ := henv job status₁ hjob₁
    cases hjob₂.symm.trans hjob'
    exact (hbeyond job status hjob hactive status₁ hjob₁).trans hle
  · exact hsame ▸ hbeyond

theorem Beyond.succ {status : String} (hactive : status ∈ ACTIVE) (hrank : rank status = k)
    {jobs : Job → Option String} (h : Beyond start k jobs) (hnone : ¬ ∃ job, jobs job = some status) :
    Beyond start (k + 1) jobs := by
  intro job status₀ hjob hactive₀ status' hjob'
  have hle := h job status₀ hjob hactive₀ status' hjob'
  refine Nat.lt_of_le_of_ne hle fun heq => ?_
  rw [← hrank] at heq
  obtain rfl : status = status' := (List.idxOf_inj hactive).mp heq
  exact hnone ⟨job, hjob'⟩

theorem meets_pages_moving {status : String} (hactive : status ∈ ACTIVE) (hrank : rank status = k)
    {jobs : Job → Option String} (hbeyond : Beyond start k jobs) :
    (moving start).Meets ⟨⟩ (fun idle jobs' => idle = true → Beyond start (k + 1) jobs')
      (fun _ _ => True) (pages status 100 [] [] "1") jobs := by
  intro t hrely hinv
  have ht := stable_beyond.rely hrely hbeyond
  refine ⟨trivial, ?_⟩
  rintro answer _ ⟨rfl, hfirst⟩
  dsimp only
  split
  · trivial
  · rename_i values seenJobs next hread
    obtain ⟨headers, rfl, -⟩ := readPage_ok hread
    split
    · trivial
    · split
      · exact nofun
      · rename_i hempty
        obtain rfl : values = [] := by simpa using hempty
        have hnone := fun hjob => hfirst rfl hjob headers rfl
        have hnext := ht.succ hactive hrank hnone
        split
        · exact fun _ => hnext
        · exact (Discipline.Meets.of_only stable_beyond (Program.only_true _) hnext).mono
            (fun _ _ h _ => h) fun _ _ _ => trivial

theorem meets_drainedOf_moving {jobs : Job → Option String} {statuses : List String}
    (hstatuses : ACTIVE.drop k = statuses) (hbeyond : Beyond start k jobs) :
    (moving start).Meets ⟨⟩ (fun idle jobs' => idle = true → Beyond start ACTIVE.length jobs')
      (fun _ _ => True) (drainedOf statuses) jobs := by
  induction statuses generalizing k jobs with
  | nil =>
    intro _ job status hjob hactive status' hjob'
    exact (List.drop_eq_nil_iff.mp hstatuses).trans (hbeyond job status hjob hactive status' hjob')
  | cons status rest ih =>
    have hlt : k < ACTIVE.length := by
      by_contra hge
      rw [List.drop_eq_nil_iff.mpr (Nat.le_of_not_lt hge)] at hstatuses
      cases hstatuses
    rw [List.drop_eq_getElem_cons hlt, List.cons.injEq] at hstatuses
    obtain ⟨rfl, hrest⟩ := hstatuses
    have hrank : rank ACTIVE[k] = k := List.Nodup.idxOf_getElem (by decide) k hlt
    refine (meets_pages_moving (List.getElem_mem hlt) hrank hbeyond).bind fun idle t ht => ?_
    cases idle with
    | false => exact nofun
    | true => exact ih hrest (ht rfl)

end Moving

/-- A run that answers `true` has seen every job that was active at its start completed;
and whatever the server answers, the scan comes to an end within a hundred requests for
each status, and its answer is what the pages said. -/
theorem drained_sound :
    (∀ (Job : Type) (start : Job → Option String)
      (c : Config PUnit.{1} Query (fun _ => Answer) Failure Bool (Job → Option String)),
      endpoint.Reaches ⟨fun _ => drained, start⟩ c → c.procs ⟨⟩ = .done true →
      ∀ job status, start job = some status → status ∈ ACTIVE →
        ∃ status', c.shared job = some status' ∧ status' ∉ ACTIVE) ∧
    (∀ (S : Type) (respond : Query → S → Answer × S) (s : S),
      ((drained.eval (fun q s => some (respond q s)) s).1).isSome) ∧
    ∀ c : Config PUnit.{1} Query (fun _ => Answer) Failure Bool Log,
      anyServer.Reaches ⟨fun _ => drained, []⟩ c →
      (∀ status, (asked status c.shared).length ≤ 100) ∧
      c.shared.length ≤ 100 * ACTIVE.length ∧
      (c.procs ⟨⟩ = .done true →
        ∀ status ∈ ACTIVE, Chain status true [] "1" (asked status c.shared).reverse) ∧
      (c.procs ⟨⟩ = .done false → ∃ before status after, ACTIVE = before ++ status :: after ∧
        (∀ other ∈ before, Chain other true [] "1" (asked other c.shared).reverse) ∧
        Chain status false [] "1" (asked status c.shared).reverse ∧
        ∀ other ∈ after, asked other c.shared = []) ∧
      ∀ e, c.procs ⟨⟩ = .raise e →
        (∃ reason, e = .refuse reason) ∨ ∃ entry ∈ c.shared, entry.2 = .error .exception := by
  refine ⟨?_, fun S respond s => eval_isSome ends_drainedOf s, ?_⟩
  · intro Job start c hreach hdone job status hjob hactive
    have hinit : Beyond start 0 start := fun _ _ _ _ _ _ => Nat.zero_le _
    have hmeets := meets_drainedOf_moving rfl hinit
    have hstable : ∀ idle, (moving start).Stable ⟨⟩
        fun jobs' => idle = true → Beyond start ACTIVE.length jobs' := by
      intro idle s s' hstep h hidle
      exact stable_beyond s s' hstep (h hidle)
    obtain ⟨hinv, hend⟩ := hmeets.reaches hstable (fun _ => .const) (Forward.refl start) hreach
    rw [hdone] at hend
    obtain ⟨status', hjob', -⟩ := hinv job status hjob
    refine ⟨status', hjob', fun hmem => ?_⟩
    exact absurd (hend rfl job status hjob hactive status' hjob')
      (Nat.not_le_of_lt (List.idxOf_lt_length_iff.mpr hmem))
  · intro c hreach
    have hmeets : bounded.Meets ⟨⟩ (Scanned ACTIVE []) Raised drained [] :=
      meets_drainedOf (List.Subset.refl ACTIVE) (by decide) fun _ _ => rfl
    have hinit : bounded.inv [] := ⟨fun _ => Nat.zero_le _, nofun⟩
    obtain ⟨hbounded, hend⟩ := hmeets.reaches (fun _ => Discipline.stable_alone)
      (fun _ => Discipline.stable_alone) hinit hreach
    refine ⟨hbounded.1, length_le_of_asked hbounded.2 hbounded.1, fun hdone => ?_, fun hdone => ?_,
      fun e hraise => ?_⟩
    · rw [hdone] at hend
      exact hend.1
    · rw [hdone] at hend
      obtain ⟨before, status, after, hactive, hchains, hbusy, hrest⟩ := hend
      refine ⟨before, status, after, hactive, hchains, hbusy, fun other hmem => ?_⟩
      have hnodup : (before ++ status :: after).Nodup := hactive ▸ (by decide : ACTIVE.Nodup)
      rw [List.nodup_append', List.nodup_cons] at hnodup
      obtain ⟨-, ⟨hstatus, -⟩, hdisjoint⟩ := hnodup
      refine hrest other (fun hbefore => hdisjoint hbefore (List.mem_cons_of_mem _ hmem)) ?_
      rintro rfl
      exact hstatus hmem
    · rw [hraise] at hend
      cases e with
      | refuse reason => exact .inl ⟨reason, rfl⟩
      | exception => exact .inr (hend rfl)

namespace Sample

def idlePage (jobs : Unit → Option String) (q : Query) : Option (Answer × (Unit → Option String)) :=
  if jobs () = some q.status then none
  else some (.ok (.arr [], [("X-Next-Page", .str "")]), jobs)

def moved (status : String) (jobs : Unit → Option String) : Option (Unit → Option String) :=
  match jobs () with
  | some status' => if rank status' ≤ rank status then some fun _ => some status else none
  | none => none

def responder : Responder (endpoint : System PUnit.{1} Query (fun _ => Answer) (Unit → Option String))
    Unit String where
  respond _ q jobs _ := idlePage jobs q
  happen := moved
  performs_of_respond := by
    intro _ q jobs _ answer jobs' h
    unfold idlePage at h
    split at h
    · cases h
    · rename_i hnone
      cases h
      exact ⟨rfl, fun _ ⟨job, hjob⟩ => absurd hjob hnone⟩
  env_of_happen := by
    intro status jobs jobs' h job status₀ hjob
    unfold moved at h
    split at h
    · rename_i status' hstatus
      split at h
      · rename_i hle
        cases h
        cases hstatus.symm.trans hjob
        exact ⟨status, rfl, hle⟩
      · cases h
    · cases h

def answeredTrue {S : Type} (c : Config PUnit.{1} Query (fun _ => Answer) Failure Bool S) : Bool :=
  match c.procs ⟨⟩ with
  | .done idle => idle
  | _ => false

end Sample

/-- A job that is running at the start is completed before its filter is asked for. -/
theorem drained_sound_running : ∃ c, endpoint.Reaches
    (⟨fun _ => drained, fun _ => some "running"⟩ :
      Config PUnit.{1} Query (fun _ => Answer) Failure Bool (Unit → Option String)) c ∧
    c.procs ⟨⟩ = .done true ∧ ∃ status, c.shared () = some status ∧ status ∉ ACTIVE := by
  have hrun : (Sample.responder.execute
      [.act ⟨⟩ (List.replicate 7 ()), .happens "success", .act ⟨⟩ (List.replicate 2 ())]
      (⟨fun _ => drained, fun _ => some "running"⟩ :
        Config PUnit.{1} Query (fun _ => Answer) Failure Bool (Unit → Option String))).any
      Sample.answeredTrue = true := by
    decide +kernel
  obtain ⟨c, hreach, hanswer⟩ := Responder.exists_reaches hrun
  have hdone : c.procs ⟨⟩ = .done true := by
    unfold Sample.answeredTrue at hanswer
    split at hanswer
    · rename_i idle hidle
      rw [hidle, hanswer]
    · cases hanswer
  exact ⟨c, hreach, hdone, drained_sound.1 Unit _ c hreach hdone () "running" rfl (by decide)⟩

end ClusterState.Maintenance
