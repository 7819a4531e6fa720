import ClusterState.CacheRetention.Subtrees
import ClusterState.CacheRetention.Policies
import ClusterState.CacheRetention.Disturbing

/-! # What is refused, and what is removed

The two walks agree on what may be touched. What `snapshot` has accepted, `remove_tree` removes,
and what the survey has seen refused is never removed.
-/

namespace ClusterState.CacheRetention

open ClusterState.Data.PythonText Concurrency

/-! ## Entries that must not be touched -/

/-- Why an entry with this path below the candidate must not be touched. -/
inductive Forbidden (limits : Limits) (fs : FileSystem) (relative : List Name) (i : Identity) : Prop
  | busy (h : i ∈ limits.busy)
  | mounted (h : i ∈ limits.mounted)
  | elsewhere (h : i.1 ≠ limits.device)
  | special (hdirectory : (fs.stat i).isDirectory = false) (hregular : (fs.stat i).isRegular = false)
      (hsymlink : (fs.stat i).isSymlink = false)
  | link (hsymlink : (fs.stat i).isSymlink = true) (h : relative = [] ∨ limits.links = false)

section Entries

variable {limits : Limits} {fs : FileSystem} {f : Forest} {n : Node} {relative : List Name} {i : Identity}

theorem forbidden_of_checkEntry {b : Bool} (hb : b = false → relative = [] ∨ limits.links = false)
    (h : checkEntry limits b (fs.stat i) ≠ .ok ()) : Forbidden limits fs relative i := by
  rw [checkEntry] at h
  split at h
  case isTrue hopen => exact hopen.elim .busy .mounted
  case isFalse =>
    split at h
    case isFalse => exact (h rfl).elim
    case isTrue hkind =>
      rcases hkind with hdevice | hkind
      · exact .elsewhere hdevice
      · rw [Bool.not_eq_true, Bool.or_eq_false_iff, Bool.or_eq_false_iff] at hkind
        obtain ⟨⟨hdirectory, hregular⟩, hlink⟩ := hkind
        rcases Bool.and_eq_false_iff.mp hlink with hb' | hsymlink
        · cases hsymlink : (fs.stat i).isSymlink with
          | true => exact .link hsymlink (hb hb')
          | false => exact .special hdirectory hregular hsymlink
        · exact .special hdirectory hregular hsymlink

/-- A tree that is not allowed has an entry that must not be touched. -/
theorem exists_forbidden (h : ¬n.Allowed limits fs) :
    ∃ e ∈ n.entries, Forbidden limits fs e.1 e.2 := by
  by_contra hnone
  push Not at hnone
  refine h ⟨?_, fun i hi => ?_, fun i hi => ?_⟩
  · by_contra hcheck
    exact hnone _ List.mem_cons_self (forbidden_of_checkEntry (fun _ => .inl rfl) hcheck)
  · obtain ⟨relative, -, hmem⟩ := Forest.mem_listing (.inl hi)
    by_contra hcheck
    exact hnone _ (List.mem_cons_of_mem _ hmem) (forbidden_of_checkEntry .inr hcheck)
  · obtain ⟨relative, -, hmem⟩ := Forest.mem_listing (.inr hi)
    by_contra hcheck
    exact hnone _ (List.mem_cons_of_mem _ hmem) (forbidden_of_checkEntry .inr hcheck)

end Entries

/-! ## Removing what has been accepted -/

section Removing

variable {K : Kernel} {limits : Limits} {fs : FileSystem} {e : Subtree} {fuel : Nat}

theorem Node.passesBelow {n : Node} (h : n.Allowed limits fs) : n.PassesBelow limits fs := by
  cases n with
  | leaf i => trivial
  | directory i children => exact h.2

theorem eval_removeTree_subtree (h : fs.HoldsSubtree e)
    (hproper : (e.parent :: e.node.directories).Nodup) (hdepth : e.node.depth ≤ fuel)
    (hallowed : e.node.Allowed limits fs) :
    ∃ fs', (removeTree fuel e.target limits (some e.node.identity)).eval (respond K) fs =
        (some (.ok ()), fs') ∧ Removed e.parent e.target.name e.node fs fs' :=
  eval_removeTree_node h.root h.entry h.shows hproper hdepth hallowed.1 (Node.passesBelow hallowed)

end Removing

/-! ## What the survey has seen refused -/

/-- The survey has seen the target accepted. -/
def Accepted (target : Target) (log : Log) : Prop :=
  ∀ v : Sights, Seen v log → ∃ answer, v.look target = .ok answer

def OnlyAccepted : Call → Log → Prop
  | .removeTree target _ _, log => Accepted target log
  | _, _ => True

section Runs

variable {settings : Settings} {roots : List Root} {device : Device} {mounted busy : List Identity}
  {found : Found} {log : Log}

theorem Seen.of_cons {v : Sights} {e : Answered} (h : Seen v (e :: log)) : Seen v log := by
  intro e' he'
  refine h e' ?_
  rw [surveyed, List.reverse_cons, List.takeWhile_append]
  split
  · exact List.mem_append_left _ ((List.takeWhile_prefix _).subset he')
  · exact he'

theorem Accepted.cons {target : Target} (e : Answered) (h : Accepted target log) :
    Accepted target (e :: log) := fun v hv => h v hv.of_cons

theorem onlyAccepted_of_keeps (r : Call) (log : Log) (hr : r.Keeps) : OnlyAccepted r log := by
  cases r with
  | removeTree target limits expected => exact (hr target limits expected rfl).elim
  | _ => trivial

theorem accepts_of_keeps {α : Type} {m : Retain α} (hm : m.Only Call.Keeps) :
    m.Heeds OnlyAccepted (fun _ _ => True) log := .of_only (fun r log => onlyAccepted_of_keeps r log) hm

theorem accepts_call {r : Call} (hr : r.Keeps) :
    (call r).Heeds OnlyAccepted (fun _ _ => True) log := accepts_of_keeps (only_call hr)

theorem accepts_delete (h : Accepted found.target log) :
    (delete settings device found).Heeds OnlyAccepted (fun _ _ => True) log := by
  have keep {α : Type} {m : Retain α} {log : Log} (h : Accepted found.target log)
      (hm : m.Only Call.Keeps) :
      m.Heeds OnlyAccepted (fun _ log' => True ∧ Accepted found.target log') log :=
    (accepts_of_keeps hm).keeping (fun e _ => Accepted.cons e) h
  rw [delete]
  split
  case isFalse => trivial
  case isTrue =>
    apply (keep h (only_call (by simp [Call.Keeps]))).bind
    rintro _ log₁ ⟨-, h⟩
    apply (keep h (only_call (by simp [Call.Keeps]))).bind
    rintro st log₂ ⟨-, h⟩
    split
    case isFalse => trivial
    case isTrue =>
      apply (keep h (only_call (by simp [Call.Keeps]))).bind
      rintro mounted log₃ ⟨-, h⟩
      apply (keep h (only_call (by simp [Call.Keeps]))).bind
      rintro busy log₄ ⟨-, h⟩
      apply (keep h (only_inquire (by simp [Call.Keeps]))).bind
      rintro x log₅ ⟨-, h⟩
      split
      case h_1 => trivial
      case h_2 => trivial
      case h_3 =>
        split
        case isFalse => trivial
        case isTrue =>
          apply (keep h (only_call (by simp [Call.Keeps]))).bind
          rintro _ log₆ ⟨-, h⟩
          exact .of_ask h fun _ => trivial

def AllAccepted (l : List Found) (log : Log) : Prop := ∀ found ∈ l, Accepted found.target log

theorem AllAccepted.cons {l : List Found} (e : Answered) (h : AllAccepted l log) :
    AllAccepted l (e :: log) := fun found hfound => (h found hfound).cons e

theorem accepts_deleteExpired (l : List Found) (h : AllAccepted l log) :
    (deleteExpired settings device l).Heeds OnlyAccepted AllAccepted log := by
  induction l generalizing log with
  | nil => exact List.forall_mem_nil _
  | cons found l ih =>
    obtain ⟨hfound, h⟩ := List.forall_mem_cons.mp h
    have h : AllAccepted l log := h
    rw [deleteExpired]
    split
    case isTrue =>
      refine ((accepts_delete hfound).keeping (fun e _ => AllAccepted.cons e) h).bind ?_
      rintro _ log₁ ⟨-, h⟩
      exact ih h
    case isFalse =>
      refine ((ih h).keeping (fun e _ => Accepted.cons e) hfound).bind ?_
      rintro rest log₁ ⟨hrest, hfound⟩
      exact List.forall_mem_cons.mpr ⟨hfound, hrest⟩

theorem accepts_reclaimAll (pressure : Bool) (l : List Found) (h : AllAccepted l log) :
    (reclaimAll settings device pressure l).Heeds OnlyAccepted (fun _ _ => True) log := by
  induction l generalizing log with
  | nil => trivial
  | cons found l ih =>
    obtain ⟨hfound, h⟩ := List.forall_mem_cons.mp h
    have h : AllAccepted l log := h
    have hreclaim : (reclaim settings device pressure found).Heeds OnlyAccepted
        (fun _ _ => True) log := by
      have honly : (isOver pressure found).Only Call.Keeps := by
        rw [isOver]
        split
        case isTrue => exact (only_call (by simp [Call.Keeps])).bind fun _ => trivial
        case isFalse => trivial
      rw [reclaim]
      refine ((accepts_of_keeps honly).keeping (fun e _ => Accepted.cons e) hfound).bind ?_
      rintro full log₁ ⟨-, hfound⟩
      split
      case isTrue => exact accepts_delete hfound
      case isFalse => trivial
    rw [reclaimAll]
    refine (hreclaim.keeping (fun e _ => AllAccepted.cons e) h).bind ?_
    rintro _ log₁ ⟨-, h⟩
    exact ih h

theorem look_of_admitted {v : Sights} (h : found ∈ v.admitted roots) :
    v.look found.target = .ok (found.proof, found.latest) := by
  obtain ⟨root, -, h⟩ := List.mem_flatMap.mp h
  obtain ⟨name, -, h⟩ := List.mem_filterMap.mp h
  rw [target_of_candidate h]
  rw [Sights.candidate, Option.ite_none_left_eq_some] at h
  obtain ⟨-, h⟩ := h
  split at h
  · cases h
  · rw [Option.ite_none_right_eq_some] at h
    obtain ⟨answer, hanswer, rfl⟩ := Option.map_eq_some_iff.mp h.2
    cases hlook : v.look ⟨root.path, name⟩ with
    | error e =>
      rw [hlook] at hanswer
      cases hanswer
    | ok answer' =>
      rw [hlook] at hanswer
      exact congrArg Except.ok (Option.some.inj hanswer)

theorem Untouched.accepts {α : Type} {Q : α → Log → Prop} {m : Retain α} (h : Untouched log)
    (hm : m.Heeds Anything Q log) (honly : m.Only Call.Looks) :
    m.Heeds OnlyAccepted (fun a log' => Q a log' ∧ Untouched log') log :=
  (h.keep hm honly).under honly fun r log hr => onlyAccepted_of_keeps r log hr.keeps

theorem accepts_sweep : (sweep settings roots).Heeds OnlyAccepted (fun _ _ => True) [] := by
  have hbegun : Untouched [] := ⟨List.forall_mem_nil _, rfl⟩
  rw [sweep]
  refine (hbegun.accepts (.of_only (fun _ _ _ => trivial) (only_checkRoots roots))
    (only_checkRoots roots)).bind ?_
  rintro stats log₁ ⟨-, hbegun⟩
  refine (hbegun.accepts (.of_only (fun _ _ _ => trivial) (only_checkKinds stats))
    (only_checkKinds stats)).bind ?_
  rintro _ log₂ ⟨-, hbegun⟩
  split
  case h_1 => trivial
  case h_2 device _ =>
    refine (hbegun.accepts told (only_call (r := .mounts) trivial)).bind ?_
    rintro mounted _ ⟨rfl, hbegun⟩
    refine (hbegun.accepts told (only_call (r := .opened) trivial)).bind ?_
    rintro busy _ ⟨rfl, hbegun⟩
    refine (hbegun.accepts (sees_collectAll stats) (only_collectAll stats)).bind ?_
    rintro found log₃ ⟨hfound, hbegun⟩
    have haccepted : AllAccepted (ranked roots found) log₃ := by
      intro f hf v hv
      have hf := (hfound v (hv.of_suffix List.suffix_rfl hbegun.1)).mem_iff.mp
        ((List.mem_insertionSort _).mp hf)
      exact ⟨_, look_of_admitted hf⟩
    apply (accepts_deleteExpired _ haccepted).bind
    intro rest log₄ hrest
    refine ((accepts_call (by simp [Call.Keeps])).keeping (fun e _ => AllAccepted.cons e) hrest).bind ?_
    rintro percent log₅ ⟨-, hrest⟩
    exact (accepts_reclaimAll _ rest hrest).bind fun _ _ _ => trivial

theorem accepts_retain : (retain settings roots).Heeds OnlyAccepted (fun _ _ => True) [] :=
  retain_eq settings roots ▸ accepts_sweep.bind fun _ _ _ => accepts_of_keeps only_settle

end Runs

section Results

variable {S : Type} {performs : (r : Call) → S → Except Failure r.Result → S → Prop} {s : S}
  {settings : Settings} {roots : List Root} {c : Going S} {r : Call}

/-- The request has been made, or is about to be made. -/
def Going.Asks (c : Going S) (r : Call) : Prop :=
  (∃ next, c.procs ⟨⟩ = .ask r next) ∨ ∃ x, (⟨r, x⟩ : Answered) ∈ c.shared.log

theorem exists_earlier {guard : Call → Log → Prop} {Q : Unit → Log → Prop}
    (hm : (retain settings roots).Heeds guard Q []) (hrun : Gets performs s settings roots c)
    (hasks : c.Asks r) : ∃ earlier, earlier <:+ c.shared.log ∧ guard r earlier := by
  rcases hasks with ⟨next, hask⟩ | ⟨x, hmem⟩
  · have h := hm.reaches hrun
    rw [hask] at h
    exact ⟨_, List.suffix_rfl, h.1⟩
  · obtain ⟨since, earlier, hlog⟩ := List.append_of_mem hmem
    refine ⟨earlier, ?_, hm.guarded hrun hlog⟩
    rw [hlog]
    exact (List.suffix_cons _ _).trans (List.suffix_append _ _)

theorem Seen.of_append {v : Sights} {since log : Log} (h : Seen v (since ++ log)) : Seen v log := by
  induction since with
  | nil => exact h
  | cons e since ih => exact ih h.of_cons

theorem asks_of_removedBy {target : Target} (h : target ∈ removedBy c.shared.log) :
    ∃ limits expected, c.Asks (.removeTree target limits expected) := by
  obtain ⟨⟨r, x⟩, hmem, hremoval⟩ := List.mem_filterMap.mp (List.mem_reverse.mp h)
  cases r with
  | removeTree target' limits expected =>
    cases x with
    | error e => cases hremoval
    | ok a =>
      cases hremoval
      exact ⟨limits, expected, .inr ⟨_, hmem⟩⟩
  | _ => cases hremoval

/-- Nothing else changing, `remove_tree` removes a tree that `snapshot` accepts, all of it and nothing
else; a tree that `snapshot` refuses has an entry that must not be touched. A run never asks for the
removal of what its survey has seen refused, and asks for it only as `snapshot` has accepted it. -/
theorem removes_what_is_proved {K : Kernel} {limits : Limits} {fs : FileSystem} {e : Subtree} {fuel : Nat}
    (py : Python) (h : fs.HoldsSubtree e) (hproper : (e.parent :: e.node.directories).Nodup)
    (hdepth : e.node.depth ≤ fuel) :
    ((∃ digest latest fs', (snapshot py fuel false e.target limits).eval (respond K) fs =
          (some (.ok ((digest, some e.node.identity), latest)), fs) ∧
        (removeTree fuel e.target limits (some e.node.identity)).eval (respond K) fs =
          (some (.ok ()), fs') ∧ Removed e.parent e.target.name e.node fs fs') ∨
      ∃ message, (snapshot py fuel false e.target limits).eval (respond K) fs =
          (some (.error (.refuse message)), fs) ∧
        ∃ x ∈ e.node.entries, Forbidden limits fs x.1 x.2) ∧
    ∀ (S : Type) (performs : (r : Call) → S → Except Failure r.Result → S → Prop) (s : S)
      (settings : Settings) (roots : List Root) (c : Going S), Gets performs s settings roots c →
      ∀ (v : Sights), Seen v c.shared.log → ∀ (target : Target) (limits : Limits)
        (expected : Option Identity), c.Asks (.removeTree target limits expected) →
        (∃ answer, v.look target = .ok answer) ∧ ∃ digest latest,
          (⟨.snapshot target limits false, .ok ((digest, expected), latest)⟩ : Answered) ∈
            c.shared.log := by
  constructor
  · rcases snapshot_cases py K limits h hdepth with ⟨digest, latest, heval, hallowed⟩ | ⟨message, heval, hnot⟩
    · obtain ⟨fs', hremove, hremoved⟩ := eval_removeTree_subtree (K := K) h hproper hdepth hallowed
      exact .inl ⟨digest, latest, fs', heval, hremove, hremoved⟩
    · exact .inr ⟨message, heval, exists_forbidden hnot⟩
  · intro S performs s settings roots c hrun v hseen target limits expected hasks
    constructor
    · obtain ⟨earlier, ⟨since, hlog⟩, haccepted⟩ := exists_earlier accepts_retain hrun hasks
      rw [← hlog] at hseen
      exact haccepted v hseen.of_append
    · obtain ⟨earlier, hsuffix, device, found, before, hwarranted⟩ :=
        exists_earlier heeds_retain hrun hasks
      obtain ⟨mounted, busy, st, latest, hlimits, hlook⟩ := hwarranted.second
      have hproof : (⟨.snapshot target limits false, .ok (found.proof, latest)⟩ : Answered) ∈
          earlier := by
        rw [hlook.looks, hlimits, hwarranted.target_eq]
        exact List.mem_cons_of_mem _ List.mem_cons_self
      refine ⟨found.proof.1, latest, hsuffix.subset ?_⟩
      rw [hwarranted.expected_eq]
      exact hproof

end Results

namespace Sample

def unlinked : Limits := { limits with links := false }

theorem forbids_link : ¬candidate.subtree.node.Allowed unlinked fileSystem := by
  intro h
  have hlink : Passes unlinked fileSystem (inode 31) := h.2.2 _ (by decide)
  cases hlink

theorem depth_subtree : candidate.subtree.node.depth ≤ 3 := by decide

theorem accepts_candidate (message : String) :
    (snapshot python 3 false candidate.target limits).eval (respond kernel) fileSystem ≠
      (some (.error (.refuse message)), fileSystem) := by
  intro heval
  rcases snapshot_cases python kernel limits holds_candidate.subtree depth_subtree with
    ⟨digest, latest, heval', -⟩ | ⟨-, -, hnot⟩
  · cases heval.symm.trans heval'
  · exact hnot allowed_candidate

theorem refuses_link (digest : Text) (latest : WithBot ℚ) :
    (snapshot python 3 false candidate.target unlinked).eval (respond kernel) fileSystem ≠
      (some (.ok ((digest, some candidate.identity), latest)), fileSystem) := by
  intro heval
  rcases snapshot_cases python kernel unlinked holds_candidate.subtree depth_subtree with
    ⟨-, -, -, hallowed⟩ | ⟨message, heval', -⟩
  · exact forbids_link hallowed
  · cases heval.symm.trans heval'

end Sample

/-- A workspace with a link is removed, although a file in it has another name elsewhere. Elsewhere
the link is forbidden. The run removes what its survey has seen accepted. -/
theorem removes_what_is_proved_shared :
    (∃ fs', (removeTree 3 Sample.candidate.target Sample.limits (some Sample.candidate.identity)).eval
        (respond Sample.kernel) Sample.fileSystem = (some (.ok ()), fs') ∧
      Removed Sample.candidate.parent Sample.candidate.target.name Sample.candidate.node
        Sample.fileSystem fs') ∧
    (∃ x ∈ Sample.candidate.subtree.node.entries,
      Forbidden Sample.unlinked Sample.fileSystem x.1 x.2) ∧
    ∃ (c : Going (List Target)) (limits : Limits) (expected : Option Identity),
      c.Asks (.removeTree Sample.old limits expected) ∧
      ∃ answer, Sample.sights.look Sample.old = .ok answer := by
  have hholds := Sample.holds_candidate.subtree
  have htree (limits : Limits) := (@removes_what_is_proved Sample.kernel limits Sample.fileSystem
    Sample.candidate.subtree 3 Sample.python hholds Sample.proper_candidate Sample.depth_subtree)
  refine ⟨?_, ?_, ?_⟩
  · rcases (htree Sample.limits).1 with ⟨digest, latest, fs', -, hremove, hremoved⟩ | ⟨message, heval, -⟩
    · exact ⟨fs', hremove, hremoved⟩
    · exact (Sample.accepts_candidate message heval).elim
  · rcases (htree Sample.unlinked).1 with ⟨digest, latest, fs', heval, -⟩ | ⟨message, -, hforbidden⟩
    · exact (Sample.refuses_link digest latest heval).elim
    · exact hforbidden
  · obtain ⟨c, hrun, hend⟩ := Sample.exists_emptied
    rw [Bool.and_eq_true, decide_eq_true_iff] at hend
    obtain ⟨-, hreplies⟩ := Sample.log_of_shrinks hrun
    have hold : Sample.old ∈ removedBy c.shared.log := by
      rw [hend.2]
      exact List.mem_cons_self
    obtain ⟨limits, expected, hasks⟩ := asks_of_removedBy hold
    exact ⟨c, limits, expected, hasks, ((htree limits).2 _ _ _ _ _ c hrun _
      (Sample.seen_sights hreplies) _ _ _ hasks).1⟩

end ClusterState.CacheRetention
