import ClusterState.CacheRetention.Neighbours
import ClusterState.CacheRetention.Retaining

/-! # An undisturbed sweep

Where nothing else changes the file system, the sweep removes what its policy selects,
each candidate whole and in the order of the policy.
-/

namespace ClusterState.CacheRetention

open ClusterState.Data.PythonText Concurrency

/-! ## The surroundings -/

/-- What the run finds besides its file system. Nothing comes to be opened or mounted, and the
gate stays open. -/
structure Host where
  python : Python
  kernel : Kernel
  fuel : Nat
  mounted : List Identity
  busy : List Identity
  used : FileSystem → ℚ
  other : (r : Call) → FileSystem → Option (Except Failure r.Result × FileSystem)

namespace Host

variable (H : Host)

def walk {α : Type} (m : Walk Identity α) (fs : FileSystem) : Option (Except Failure α × FileSystem) :=
  (m.eval (CacheRetention.respond H.kernel) fs).1.map fun x =>
    (x, (m.eval (CacheRetention.respond H.kernel) fs).2)

def atPath {α : Type} (fs : FileSystem) (path : Path) (f : Identity → α) :
    Option (Except Failure α × FileSystem) :=
  match fs.directories path with
  | some d => some (.ok (f d), fs)
  | none => some (.error .gone, fs)

def respond : (r : Call) → FileSystem → Option (Except Failure r.Result × FileSystem)
  | .lstat path, fs => atPath fs path fs.stat
  | .iterdir path, fs => atPath fs path (H.kernel.listed fs)
  | .lstatChild target, fs =>
    match (fs.directories target.root).bind fun d => fs.lookup d target.name with
    | some i => some (.ok (fs.stat i), fs)
    | none => some (.error .gone, fs)
  | .snapshot target limits nativeUv, fs => H.walk (snapshot H.python H.fuel nativeUv target limits) fs
  | .removeTree target limits expected, fs => H.walk (removeTree H.fuel target limits expected) fs
  | .mounts, fs => some (.ok H.mounted, fs)
  | .opened, fs => some (.ok H.busy, fs)
  | .gate, fs => some (.ok (), fs)
  | .used _, fs => some (.ok (H.used fs), fs)
  | r, fs => H.other r fs

end Host

/-! ## Roots and their candidates -/

structure Tree where
  root : Root
  identity : Identity
  content : Forest

structure FileSystem.HoldsTree (fs : FileSystem) (t : Tree) : Prop where
  root : fs.directories t.root.path = some t.identity
  directory : (fs.stat t.identity).isDirectory = true
  entries : (fs.entries t.identity).Perm t.content.top
  ascends : t.content.Ascends
  shows : fs.Shows t.content

def Tree.candidate (t : Tree) (name : Name) (i : Identity) (children : Forest) : Candidate :=
  ⟨⟨t.root.path, name⟩, t.identity, i, children⟩

def Tree.candidateAt (t : Tree) : Name × Node → Option Candidate
  | (_, .leaf _) => none
  | (name, .directory i children) =>
    if skipped ⟨t.root.path, name⟩ || storeNames.contains name then none
    else some (t.candidate name i children)

def Tree.candidates (t : Tree) : List Candidate := t.content.nodes.filterMap t.candidateAt

def foundAs (H : Host) (fs : FileSystem) (device : Device) (root : Root) (c : Candidate) :
    Option (Found × Candidate) :=
  match c.scan H.python (limitsOf root device H.mounted H.busy) fs with
  | .ok tally => some (⟨root, c.target, tally.proof H.python, tally.latest⟩, c)
  | .error _ => none

def Tree.admitted (H : Host) (fs : FileSystem) (device : Device) (t : Tree) : List (Found × Candidate) :=
  t.candidates.filterMap (foundAs H fs device t.root)

def admitted (H : Host) (fs : FileSystem) (device : Device) (trees : List Tree) :
    List (Found × Candidate) := trees.flatMap (Tree.admitted H fs device)

def inOrder (roots : List Root) (l : List (Found × Candidate)) : List (Found × Candidate) :=
  l.insertionSort fun p q => rank roots p.1 ≤ rank roots q.1

/-! ## The policy -/

inductive Deleted : List Candidate → FileSystem → FileSystem → Prop
  | nil (fs : FileSystem) : Deleted [] fs fs
  | cons {c : Candidate} {cs : List Candidate} {fs fs₁ fs₂ : FileSystem}
      (hremoved : Removed c.parent c.target.name c.node fs fs₁) (hrest : Deleted cs fs₁ fs₂) :
      Deleted (c :: cs) fs fs₂

inductive Relieved (used : FileSystem → ℚ) :
    List Candidate → List Candidate → FileSystem → FileSystem → Prop
  | exhausted (fs : FileSystem) : Relieved used [] [] fs fs
  | enough {cs : List Candidate} {fs : FileSystem} (h : used fs ≤ 65) : Relieved used cs [] fs fs
  | next {c : Candidate} {cs taken : List Candidate} {fs fs₁ fs₂ : FileSystem} (h : 65 < used fs)
      (hremoved : Removed c.parent c.target.name c.node fs fs₁)
      (hrest : Relieved used cs taken fs₁ fs₂) : Relieved used (c :: cs) (c :: taken) fs fs₂

/-! ## One deletion -/

section Deleting

variable {H : Host} {device : Device} {fs fs' : FileSystem} {settings : Settings} {p : Found × Candidate}

theorem eval_call {r : Call} {a : r.Result} (h : H.respond r fs = some (.ok a, fs')) :
    (call r).eval H.respond fs = (some (.ok a), fs') := by
  rw [call, Program.eval_ask h]
  rfl

theorem eval_inquire {r : Call} {x : Except Failure r.Result} (h : H.respond r fs = some (x, fs')) :
    (inquire r).eval H.respond fs = (some (.ok x), fs') := by
  rw [inquire, Program.eval_ask h]
  rfl

theorem walk_eq {α : Type} {m : Walk Identity α} {x : Except Failure α}
    (h : m.eval (respond H.kernel) fs = (some x, fs')) : H.walk m fs = some (x, fs') := by
  rw [Host.walk, h]
  rfl

structure Present (H : Host) (device : Device) (fs : FileSystem) (p : Found × Candidate) : Prop where
  target : p.1.target = p.2.target
  root : p.1.root.path = p.2.target.root
  holds : fs.Holds p.2
  proper : p.2.Proper
  depth : p.2.content.depth < H.fuel
  parent : (fs.stat p.2.parent).isDirectory = true
  device_eq : p.2.parent.1 = device

def limitsFor (H : Host) (device : Device) (p : Found × Candidate) : Limits :=
  limitsOf p.1.root device H.mounted H.busy

structure Pending (H : Host) (device : Device) (fs : FileSystem) (p : Found × Candidate) : Prop extends
    Present H device fs p where
  scan : ∃ tally, p.2.scan H.python (limitsFor H device p) fs = .ok tally ∧
    tally.proof H.python = p.1.proof

theorem respond_lstat {path : Path} {d : Identity} (h : fs.directories path = some d) :
    H.respond (.lstat path) fs = some (.ok (fs.stat d), fs) := by
  simp only [Host.respond, Host.atPath, h]

theorem Present.eval_delete (hexecute : settings.execute = true) (h : Present H device fs p)
    {tally : Tally} (hscan : p.2.scan H.python (limitsFor H device p) fs = .ok tally) :
    (delete settings device p.1).eval H.respond fs =
      (if tally.proof H.python = p.1.proof then do
        call .gate
        call (.removeTree p.1.target (limitsFor H device p) (tally.proof H.python).2)
      else declineChanged p.1 []).eval H.respond fs := by
  have hlstat : H.respond (.lstat p.1.root.path) fs = some (.ok (fs.stat p.2.parent), fs) := by
    rw [h.root]
    exact respond_lstat h.holds.root
  have hsame : ((fs.stat p.2.parent).isDirectory &&
      decide ((fs.stat p.2.parent).device = device)) = true := by
    rw [Bool.and_eq_true, decide_eq_true_iff]
    exact ⟨h.parent, h.device_eq⟩
  have hsnapshot : H.respond (.snapshot p.1.target (limitsFor H device p) false) fs =
      some (.ok (tally.proof H.python, tally.latest), fs) := by
    rw [h.target]
    refine walk_eq ((eval_snapshot (by simp) h.holds h.depth).trans ?_)
    rw [hscan]
    rfl
  have hgate : H.respond .gate fs = some (.ok (), fs) := rfl
  have hmounts : H.respond .mounts fs = some (.ok H.mounted, fs) := rfl
  have hopened : H.respond .opened fs = some (.ok H.busy, fs) := rfl
  rw [delete, if_pos hexecute, Program.eval_bind_ok (eval_call hgate),
    Program.eval_bind_ok (eval_call hlstat), if_pos hsame, Program.eval_bind_ok (eval_call hmounts),
    Program.eval_bind_ok (eval_call hopened)]
  exact Program.eval_bind_ok (eval_inquire hsnapshot)

theorem Pending.exists_removal (h : Pending H device fs p) :
    ∃ fs', (removeTree H.fuel p.2.target (limitsFor H device p) (some p.2.identity)).eval
        (respond H.kernel) fs = (some (.ok ()), fs') ∧
      Removed p.2.parent p.2.target.name p.2.node fs fs' := by
  obtain ⟨tally, hscan, -⟩ := h.scan
  rcases p.2.scan_cases H.python (limitsFor H device p) fs with
    ⟨-, -, -, hallowed⟩ | ⟨message, hscan', -⟩
  · exact eval_removeTree h.holds h.proper h.depth hallowed
  · cases hscan.symm.trans hscan'

theorem Pending.eval_delete_of (hexecute : settings.execute = true) (h : Pending H device fs p)
    (heval : (removeTree H.fuel p.2.target (limitsFor H device p) (some p.2.identity)).eval
      (CacheRetention.respond H.kernel) fs = (some (.ok ()), fs')) :
    (delete settings device p.1).eval H.respond fs = (some (.ok ()), fs') := by
  obtain ⟨tally, hscan, hproof⟩ := h.scan
  rcases p.2.scan_cases H.python (limitsFor H device p) fs with
    ⟨tally', hscan', hroot, -⟩ | ⟨message, hscan', -⟩
  case inr => cases hscan.symm.trans hscan'
  obtain rfl := Except.ok.inj (hscan.symm.trans hscan')
  have hgate : H.respond .gate fs = some (.ok (), fs) := rfl
  have hremove : H.respond (.removeTree p.1.target (limitsFor H device p) (tally.proof H.python).2) fs =
      some (.ok (), fs') := by
    rw [h.target, Tally.proof, hroot]
    exact walk_eq heval
  rw [h.eval_delete hexecute hscan, if_pos hproof, Program.eval_bind_ok (eval_call hgate)]
  exact eval_call hremove

theorem Pending.eval_delete (hexecute : settings.execute = true) (h : Pending H device fs p) :
    ∃ fs', (delete settings device p.1).eval H.respond fs = (some (.ok ()), fs') ∧
      Removed p.2.parent p.2.target.name p.2.node fs fs' := by
  obtain ⟨fs', heval, hremoved⟩ := h.exists_removal
  exact ⟨fs', h.eval_delete_of hexecute heval, hremoved⟩

/-! ## What is left to delete -/

structure Surveyed (H : Host) (device : Device) (fs : FileSystem) (l : List (Found × Candidate)) :
    Prop where
  pending : ∀ p ∈ l, Pending H device fs p
  apart : l.Pairwise fun p q => p.2.Apart q.2
  shared : l.Pairwise fun p q => p.2.SharesRegular fs q.2

theorem Surveyed.perm {l l' : List (Found × Candidate)} (h : Surveyed H device fs l)
    (hperm : l.Perm l') : Surveyed H device fs l' where
  pending p hp := h.pending p (hperm.mem_iff.mpr hp)
  apart := (hperm.pairwise_iff fun hapart => hapart.symm).mp h.apart
  shared := (hperm.pairwise_iff fun hshared i hi hi' => hshared i hi' hi).mp h.shared

theorem Present.of_removed {q : Found × Candidate} (hq : Present H device fs q)
    (hapart : p.2.Apart q.2) (hremoved : Removed p.2.parent p.2.target.name p.2.node fs fs') :
    Present H device fs' q where
  target := hq.target
  root := hq.root
  holds := hremoved.holds hq.holds hapart
  proper := hq.proper
  depth := hq.depth
  parent := by
    rw [hremoved.frame.isDirectory]
    exact hq.parent
  device_eq := hq.device_eq

theorem Pending.of_removed {q : Found × Candidate} (hp : Pending H device fs p)
    (hq : Pending H device fs q) (hapart : p.2.Apart q.2) (hshared : p.2.SharesRegular fs q.2)
    (hremoved : Removed p.2.parent p.2.target.name p.2.node fs fs') : Pending H device fs' q where
  toPresent := hq.toPresent.of_removed hapart hremoved
  scan := by
    rw [hremoved.scan hp.parent hp.holds hq.holds hapart hshared]
    exact hq.scan

theorem Surveyed.of_removed {l : List (Found × Candidate)} (h : Surveyed H device fs (p :: l))
    (hremoved : Removed p.2.parent p.2.target.name p.2.node fs fs') : Surveyed H device fs' l := by
  obtain ⟨hp, hpending⟩ := List.forall_mem_cons.mp h.pending
  obtain ⟨hapart, haparts⟩ := List.pairwise_cons.mp h.apart
  obtain ⟨hshared, hshareds⟩ := List.pairwise_cons.mp h.shared
  refine ⟨fun q hq => ?_, haparts, hshareds.imp fun hpq i hi hi' => ?_⟩
  · exact hp.of_removed (hpending q hq) (hapart q hq) (hshared q hq) hremoved
  · rw [hremoved.isRegular]
    exact hpq i hi hi'

theorem Surveyed.of_removed_middle {kept l : List (Found × Candidate)}
    (h : Surveyed H device fs (kept ++ p :: l))
    (hremoved : Removed p.2.parent p.2.target.name p.2.node fs fs') :
    Surveyed H device fs' (kept ++ l) := (h.perm List.perm_middle).of_removed hremoved

/-! ## The deletions -/

def expiredOf (settings : Settings) (l : List (Found × Candidate)) : List (Found × Candidate) :=
  l.filter fun p => p.1.expired settings

def freshOf (settings : Settings) (l : List (Found × Candidate)) : List (Found × Candidate) :=
  l.filter fun p => !p.1.expired settings

theorem eval_deleteExpired (hexecute : settings.execute = true) {kept l : List (Found × Candidate)}
    (h : Surveyed H device fs (kept ++ l)) :
    ∃ fs', (deleteExpired settings device (l.map Prod.fst)).eval H.respond fs =
        (some (.ok ((freshOf settings l).map Prod.fst)), fs') ∧
      Deleted ((expiredOf settings l).map Prod.snd) fs fs' ∧
      Surveyed H device fs' (kept ++ freshOf settings l) := by
  induction l generalizing fs kept with
  | nil => exact ⟨fs, rfl, .nil fs, h⟩
  | cons p l ih =>
    rw [List.map_cons, deleteExpired]
    by_cases hexpired : p.1.expired settings = true
    · have hpending := h.pending p (List.mem_append_right _ List.mem_cons_self)
      obtain ⟨fs₁, heval, hremoved⟩ := hpending.eval_delete hexecute
      obtain ⟨fs₂, heval', hdeleted, hsurveyed⟩ := ih (h.of_removed_middle hremoved)
      have hfresh : freshOf settings (p :: l) = freshOf settings l := by simp [freshOf, hexpired]
      have hold : expiredOf settings (p :: l) = p :: expiredOf settings l := by
        simp [expiredOf, hexpired]
      rw [if_pos hexpired, Program.eval_bind_ok heval, hfresh, hold]
      exact ⟨fs₂, heval', .cons hremoved hdeleted, hsurveyed⟩
    · have hfresh : freshOf settings (p :: l) = p :: freshOf settings l := by simp [freshOf, hexpired]
      have hold : expiredOf settings (p :: l) = expiredOf settings l := by simp [expiredOf, hexpired]
      rw [List.append_cons] at h
      obtain ⟨fs', heval, hdeleted, hsurveyed⟩ := ih h
      rw [if_neg hexpired, Program.eval_bind_ok heval, hfresh, hold, List.append_cons]
      exact ⟨fs', rfl, hdeleted, hsurveyed⟩

theorem eval_isOver {found : Found} :
    (isOver true found).eval H.respond fs = (some (.ok (decide (65 < H.used fs))), fs) := by
  have hused : H.respond (.used found.root.path) fs = some (.ok (H.used fs), fs) := rfl
  rw [isOver, if_pos rfl, Program.eval_bind_ok (eval_call hused)]
  rfl

theorem eval_reclaim_enough {found : Found} (h : ¬65 < H.used fs) :
    (reclaim settings device true found).eval H.respond fs = (some (.ok ()), fs) := by
  rw [reclaim, Program.eval_bind_ok eval_isOver, decide_eq_false h, if_neg Bool.false_ne_true]
  rfl

theorem eval_reclaimAll_enough {l : List Found} (h : ¬65 < H.used fs) :
    (reclaimAll settings device true l).eval H.respond fs = (some (.ok ()), fs) := by
  induction l with
  | nil => rfl
  | cons found l ih => rw [reclaimAll, Program.eval_bind_ok (eval_reclaim_enough h), ih]

theorem eval_reclaimAll (hexecute : settings.execute = true) {l : List (Found × Candidate)}
    (h : Surveyed H device fs l) :
    ∃ taken fs', (reclaimAll settings device true (l.map Prod.fst)).eval H.respond fs =
        (some (.ok ()), fs') ∧ Relieved H.used (l.map Prod.snd) taken fs fs' := by
  by_cases hfull : 65 < H.used fs
  case neg => exact ⟨[], fs, eval_reclaimAll_enough hfull, .enough (not_lt.mp hfull)⟩
  case pos =>
    induction l generalizing fs with
    | nil => exact ⟨[], fs, rfl, .exhausted fs⟩
    | cons p l ih =>
      obtain ⟨fs₁, heval, hremoved⟩ := (h.pending p List.mem_cons_self).eval_delete hexecute
      have hreclaim : (reclaim settings device true p.1).eval H.respond fs = (some (.ok ()), fs₁) := by
        rw [reclaim, Program.eval_bind_ok eval_isOver, decide_eq_true hfull, if_pos rfl, heval]
      rw [List.map_cons, reclaimAll, Program.eval_bind_ok hreclaim]
      by_cases hfull₁ : 65 < H.used fs₁
      · obtain ⟨taken, fs₂, heval', hrelieved⟩ := ih (h.of_removed hremoved) hfull₁
        exact ⟨p.2 :: taken, fs₂, heval', .next hfull hremoved hrelieved⟩
      · refine ⟨[p.2], fs₁, eval_reclaimAll_enough hfull₁, .next hfull hremoved (.enough ?_)⟩
        exact not_lt.mp hfull₁

end Deleting

end ClusterState.CacheRetention
