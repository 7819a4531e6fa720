import ClusterState.CacheRetention.Requests
import ClusterState.Concurrency.Heeding

/-! # What the sweep chooses

The policy says which candidates go, from what there is to see below the roots and from how
full the file system is after so many deletions. A sweep that comes to its end has deleted
these, in this order.
-/

namespace ClusterState.CacheRetention

open ClusterState.Data.PythonText Concurrency

/-! ## The policy -/

/-- What there is to see below the roots. -/
structure Sights where
  names : Path → List Name
  kind : Target → Except Failure Metadata
  look : Target → Except Failure (Proof × WithBot ℚ)

namespace Sights

variable (v : Sights)

/-- The entry as a candidate, unless it is retained or protected. -/
def candidate (root : Root) (name : Name) : Option Found :=
  if skipped ⟨root.path, name⟩ || storeNames.contains name then none
  else
    match v.kind ⟨root.path, name⟩ with
    | .error _ => none
    | .ok st =>
      if st.isDirectory then
        (v.look ⟨root.path, name⟩).toOption.map fun (proof, latest) =>
          ⟨root, ⟨root.path, name⟩, proof, latest⟩
      else none

def admitted (roots : List Root) : List Found :=
  roots.flatMap fun root => (v.names root.path).filterMap (v.candidate root)

def Agrees : Answered → Prop
  | ⟨.iterdir path, .ok names⟩ => names = v.names path
  | ⟨.lstatChild target, x⟩ => x = v.kind target
  | ⟨.snapshot target _ false, x⟩ => x = v.look target
  | _ => True

end Sights

def asksGate : Answered → Bool
  | ⟨.gate, _⟩ => true
  | _ => false

/-- What has been answered before the gate was first asked. -/
def surveyed (log : Log) : List Answered := log.reverse.takeWhile fun e => !asksGate e

/-- This is what the survey has seen. -/
def Seen (v : Sights) (log : Log) : Prop := ∀ e ∈ surveyed log, v.Agrees e

def removal : Answered → Option Target
  | ⟨.removeTree target _ _, .ok _⟩ => some target
  | _ => none

/-- What has been removed, in this order. -/
def removedBy (log : Log) : List Target := (log.filterMap removal).reverse

/-- How full the file system is depends on what has been removed. -/
def Measures (used : List Target → ℚ) (log : Log) : Prop :=
  ∀ since earlier path percent, log = since ++ ⟨.used path, .ok percent⟩ :: earlier →
    percent = used (removedBy earlier)

/-- After those that are gone, so many of these have to go, and no more. -/
structure Enough (used : List Target → ℚ) (gone l : List Target) (n : Nat) : Prop where
  le : n ≤ l.length
  full : ∀ m < n, 65 < used (gone ++ l.take m)
  room : n < l.length → used (gone ++ l.take n) ≤ 65

section Choice

variable (settings : Settings) (roots : List Root)

def tooOld (order : List Found) : List Target :=
  (order.filter fun found => found.expired settings).map Found.target

def young (order : List Found) : List Target :=
  (order.filter fun found => !found.expired settings).map Found.target

/-- The targets that go: in this order all that are too old, and, if the file system is too full
after that, as many of the rest as it takes. -/
structure Chosen (v : Sights) (used : List Target → ℚ) (order : List Found) (n : Nat)
    (targets : List Target) : Prop where
  perm : order.Perm (v.admitted roots)
  ordered : order.Pairwise fun a b => rank roots a ≤ rank roots b
  enough : 67 ≤ used (tooOld settings order) →
    Enough used (tooOld settings order) (young settings order) n
  calm : used (tooOld settings order) < 67 → n = 0
  targets_eq : targets = tooOld settings order ++ (young settings order).take n

end Choice

/-! ## Logs -/

section Logs

variable {v : Sights} {used : List Target → ℚ} {log log' : Log} {e : Answered}

theorem removedBy_cons : removedBy (e :: log) = removedBy log ++ (removal e).toList := by
  rw [removedBy, List.filterMap_cons]
  cases removal e <;> simp [removedBy]

theorem Measures.of_suffix (h : Measures used log') (hsuffix : log <:+ log') : Measures used log := by
  obtain ⟨new, rfl⟩ := hsuffix
  rintro since earlier path percent rfl
  exact h (new ++ since) earlier path percent (List.append_assoc _ _ _).symm

theorem Measures.head {path : Path} {percent : ℚ}
    (h : Measures used (⟨.used path, .ok percent⟩ :: log)) : percent = used (removedBy log) :=
  h [] log path percent rfl

theorem surveyed_append (hlog : ∀ e ∈ log, asksGate e = false) {e : Answered} (he : e ∈ log)
    (since : Log) : e ∈ surveyed (since ++ log) := by
  rw [surveyed, List.reverse_append, List.takeWhile_append_of_pos]
  · exact List.mem_append_left _ (List.mem_reverse.mpr he)
  · intro e he
    rw [hlog e (List.mem_reverse.mp he)]
    rfl

theorem Seen.of_suffix (h : Seen v log') (hsuffix : log <:+ log')
    (hlog : ∀ e ∈ log, asksGate e = false) : ∀ e ∈ log, v.Agrees e := by
  obtain ⟨since, rfl⟩ := hsuffix
  exact fun e he => h e (surveyed_append hlog he since)

theorem Enough.cons {gone l : List Target} {n : Nat} {target : Target} (hfull : 65 < used gone)
    (h : Enough used (gone ++ [target]) l n) : Enough used gone (target :: l) (n + 1) where
  le := Nat.succ_le_succ h.le
  full m hm := by
    cases m with
    | zero => rwa [List.take_zero, List.append_nil]
    | succ m =>
      rw [List.take_succ_cons, List.append_cons]
      exact h.full m (Nat.lt_of_succ_lt_succ hm)
  room hn := by
    rw [List.take_succ_cons, List.append_cons]
    exact h.room (Nat.lt_of_succ_lt_succ hn)

end Logs

/-! ## The parts of the sweep -/

/-- No request is barred. -/
def Anything (_ : Call) (_ : Log) : Prop := True

def Call.Keeps (r : Call) : Prop := ∀ target limits expected, r ≠ .removeTree target limits expected

theorem Call.Looks.keeps {r : Call} (h : r.Looks) : r.Keeps := by
  rintro target limits expected rfl
  exact h

section Parts

variable {settings : Settings} {device : Device} {mounted busy : List Identity} {log : Log}
  {found : Found} {root : Root} {name : Name}

theorem told {r : Call} :
    (call r).Heeds Anything (fun a log' => log' = ⟨r, .ok a⟩ :: log) log :=
  .of_ask trivial fun _ => rfl

theorem removedBy_of_keeps {r : Call} {x : Except Failure r.Result} {l : List Target} (hr : r.Keeps)
    (h : removedBy log = l) : removedBy (log.cons ⟨r, x⟩) = l := by
  rw [removedBy_cons, h]
  cases r with
  | removeTree target limits expected => exact (hr target limits expected rfl).elim
  | _ => exact List.append_nil l

/-- What is looked at is a candidate, or is refused. -/
def Sights.Tells (v : Sights) (root : Root) (name : Name) : Except Failure Found → Prop
  | .ok found => v.candidate root name = some found
  | .error (.refuse _) => v.candidate root name = none
  | .error _ => True

theorem tells_error {v : Sights} {e : Failure} (h : v.candidate root name = none) :
    v.Tells root name (.error e) := by
  cases e with
  | refuse message => exact h
  | _ => trivial

theorem sees_examine (hkept : skipped ⟨root.path, name⟩ = false) :
    (examine root device mounted busy ⟨root.path, name⟩).attempt.Heeds Anything
      (fun result log' => ∀ v : Sights, (∀ e ∈ log', v.Agrees e) → v.Tells root name result) log := by
  rw [examine]
  refine Program.Heeds.attempt_ask trivial (fun e v hv => ?_) fun st => ?_
  · have hkind : .error e = v.kind ⟨root.path, name⟩ := hv _ List.mem_cons_self
    apply tells_error
    rw [Sights.candidate, ← hkind]
    split <;> rfl
  · split
    case isFalse hdirectory =>
      intro v hv
      have hkind : .ok st = v.kind ⟨root.path, name⟩ := hv _ List.mem_cons_self
      apply tells_error
      simp [Sights.candidate, ← hkind, hdirectory]
    case isTrue hdirectory =>
      split
      case isTrue hstore =>
        intro v hv
        apply tells_error
        rw [Sights.candidate, if_pos]
        rw [hstore, Bool.or_true]
      case isFalse hstore =>
        refine Program.Heeds.attempt_ask trivial (fun e v hv => ?_) fun answer v hv => ?_
        · obtain ⟨hlook, hv⟩ := List.forall_mem_cons.mp hv
          have hlook : .error e = v.look ⟨root.path, name⟩ := hlook
          have hkind : .ok st = v.kind ⟨root.path, name⟩ := hv _ List.mem_cons_self
          apply tells_error
          simp [Sights.candidate, ← hlook, ← hkind, Except.toOption]
        · obtain ⟨hlook, hv⟩ := List.forall_mem_cons.mp hv
          have hlook : .ok answer = v.look ⟨root.path, name⟩ := hlook
          have hkind : .ok st = v.kind ⟨root.path, name⟩ := hv _ List.mem_cons_self
          have hopen : (skipped ⟨root.path, name⟩ || storeNames.contains name) = false := by
            rw [hkept, Bool.false_or]
            exact Bool.eq_false_iff.mpr hstore
          change v.candidate root name = some _
          rw [Sights.candidate, ← hlook, ← hkind, hopen]
          simp [hdirectory, Except.toOption]

theorem sees_collect (names : List Name) :
    (collect root device mounted busy names).Heeds Anything
      (fun found log' => ∀ v : Sights, (∀ e ∈ log', v.Agrees e) →
        found = names.filterMap (v.candidate root)) log := by
  induction names generalizing log with
  | nil => exact fun v _ => rfl
  | cons name names ih =>
    rw [collect]
    split
    case isTrue hskipped =>
      refine ih.mono fun found log' hfound v hv => ?_
      have hnone : v.candidate root name = none := by
        rw [Sights.candidate, if_pos]
        rw [hskipped, Bool.true_or]
      rw [List.filterMap_cons, hnone]
      exact hfound v hv
    case isFalse hkept =>
      apply (sees_examine (Bool.eq_false_iff.mpr hkept)).bind
      intro result log₁ hresult
      split
      case h_1 found =>
        apply ih.suffix.bind
        rintro rest log' ⟨hrest, hsuffix⟩ v hv
        have hfound : v.candidate root name = some found :=
          hresult v fun e he => hv e (hsuffix.subset he)
        rw [List.filterMap_cons, hfound, hrest v hv]
      case h_2 message =>
        apply ih.suffix.mono
        rintro rest log' ⟨hrest, hsuffix⟩ v hv
        have hnone : v.candidate root name = none := hresult v fun e he => hv e (hsuffix.subset he)
        rw [List.filterMap_cons, hnone]
        exact hrest v hv
      case h_3 => trivial

theorem sees_collectAll (stats : List (Root × Metadata)) :
    (collectAll mounted busy stats).Heeds Anything
      (fun found log' => ∀ v : Sights, (∀ e ∈ log', v.Agrees e) →
        found.Perm (v.admitted (stats.map Prod.fst))) log := by
  induction stats generalizing log with
  | nil => exact fun v _ => .refl _
  | cons p stats ih =>
    obtain ⟨root, st⟩ := p
    rw [collectAll]
    apply told.bind
    rintro names _ rfl
    apply (sees_collect (sorted names)).suffix.bind
    rintro found log₁ ⟨hfound, hsuffix⟩
    apply ih.suffix.bind
    rintro rest log' ⟨hrest, hsuffix'⟩ v hv
    have hfound := hfound v fun e he => hv e (hsuffix'.subset he)
    have hnames : names = v.names root.path := hv _ (hsuffix'.subset (hsuffix.subset List.mem_cons_self))
    rw [List.map_cons, Sights.admitted, List.flatMap_cons, hfound, ← hnames]
    exact ((List.perm_insertionSort _ names).filterMap _).append (hrest v hv)

/-! ## The deletions -/

/-- Nothing has been removed, and the gate has not been asked. -/
def Untouched (log : Log) : Prop := (∀ e ∈ log, asksGate e = false) ∧ removedBy log = []

theorem Untouched.cons {r : Call} (x : Except Failure r.Result) (hr : r.Looks) (h : Untouched log) :
    Untouched (log.cons ⟨r, x⟩) := by
  refine ⟨List.forall_mem_cons.mpr ⟨?_, h.1⟩, removedBy_of_keeps hr.keeps h.2⟩
  cases r with
  | gate => exact hr.elim
  | _ => rfl

theorem Untouched.keep {α : Type} {Q : α → Log → Prop} {m : Retain α} (h : Untouched log)
    (hm : m.Heeds Anything Q log) (honly : m.Only Call.Looks) :
    m.Heeds Anything (fun a log' => Q a log' ∧ Untouched log') log :=
  hm.keeping_only (fun _ x _ hr h => h.cons x hr) honly h

end Parts

end ClusterState.CacheRetention
