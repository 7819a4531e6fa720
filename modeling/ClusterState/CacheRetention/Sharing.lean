import ClusterState.CacheRetention.Disturbing
import ClusterState.CacheRetention.Policies

/-! # Candidates that share a link

The digest leaves the `ctime` of regular files out, and not that of symbolic links. So the run
is stopped by its own deletions exactly where candidates have a link in common.
-/

namespace ClusterState.CacheRetention

open ClusterState.Data.PythonText Concurrency

section Definitions

variable (H : Host) (device : Device) (fs : FileSystem)

/-- The removal of the one candidate leaves the proof of the other one as it is. -/
def Undisturbed (p q : Found × Candidate) : Prop :=
  ∀ fs', (removeTree H.fuel p.2.target (limitsFor H device p) (some p.2.identity)).eval
      (respond H.kernel) fs = (some (.ok ()), fs') →
    ∃ latest, (snapshot H.python H.fuel false q.2.target (limitsFor H device q)).eval
      (respond H.kernel) fs' = (some (.ok (q.1.proof, latest)), fs')

/-- The run deletes all that its policy selects, and goes on to what comes after. -/
def Completes (settings : Settings) (trees : List Tree) : Prop :=
  ∃ fs₁ fs₂ taken, Deleted ((expiredOf settings (inOrder (trees.map Tree.root)
      (admitted H fs device trees))).map Prod.snd) fs fs₁ ∧
    ((67 ≤ H.used fs₁ ∧ Relieved H.used ((freshOf settings (inOrder (trees.map Tree.root)
        (admitted H fs device trees))).map Prod.snd) taken fs₁ fs₂) ∨
      (¬67 ≤ H.used fs₁ ∧ fs₂ = fs₁)) ∧
    (retain settings (trees.map Tree.root)).eval H.respond fs =
      (settle settings (trees.map Tree.root) (sweptWith H device fs fs₁ trees)).eval H.respond fs₂

/-- No symbolic link has names in both. -/
def SharesNoLink (p q : Found × Candidate) : Prop :=
  ∀ i ∈ p.2.content.leaves, i ∈ q.2.content.leaves → (fs.stat i).isSymlink = false

end Definitions

section Sharing

variable {H : Host} {device : Device} {fs fs' : FileSystem} {p q : Found × Candidate}
  {settings : Settings} {trees : List Tree}

theorem Pending.allowed (h : Pending H device fs p) : p.2.Allowed (limitsFor H device p) fs := by
  obtain ⟨tally, hscan, -⟩ := h.scan
  rcases p.2.scan_cases H.python (limitsFor H device p) fs with
    ⟨-, -, -, hallowed⟩ | ⟨message, hrefused, -⟩
  · exact hallowed
  · cases hscan.symm.trans hrefused

theorem Pending.sharesRegular (h : Pending H device fs p) (hlinks : SharesNoLink fs p q) :
    p.2.SharesRegular fs q.2 := by
  intro i hi hi'
  exact isRegular_of_passes (h.allowed.2.2 i hi) (Forest.not_isDirectory_of_mem h.holds.shows hi)
    (hlinks i hi hi')

theorem sharesNoLink_of_regular (h : p.2.SharesRegular fs q.2) : SharesNoLink fs p q := by
  intro i hi hi'
  have hformat : (fs.stat i).format = 0o100000 := beq_iff_eq.mp (h i hi hi')
  rw [Attributes.isSymlink, hformat]
  rfl

theorem Candidate.Apart.ne (h : p.2.Apart q.2) : p ≠ q := by
  rintro rfl
  exact h.name rfl rfl

theorem Pending.proved (h : Pending H device fs p) :
    ∃ latest, (snapshot H.python H.fuel false p.2.target (limitsFor H device p)).eval
      (respond H.kernel) fs = (some (.ok (p.1.proof, latest)), fs) := by
  obtain ⟨tally, hscan, hproof⟩ := h.scan
  refine ⟨tally.latest, (eval_snapshot (by simp) h.holds h.depth).trans ?_⟩
  rw [hscan, ← hproof]
  rfl

theorem Pending.undisturbed (hp : Pending H device fs p) (hq : Pending H device fs q)
    (hapart : p.2.Apart q.2) (hshared : p.2.SharesRegular fs q.2) : Undisturbed H device fs p q := by
  intro fs' heval
  obtain ⟨fs₁, heval', hremoved⟩ := hp.exists_removal
  obtain rfl := (Prod.mk.inj (heval.symm.trans heval')).2
  exact (hp.of_removed hq hapart hshared hremoved).proved

/-- A proof that outlasts the removal of a candidate is that of one without a link of it. -/
theorem Pending.sharesRegular_of_undisturbed (hmoves : H.kernel.Moves) (hsound : fs.Sound)
    (hp : Pending H device fs p) (hq : Pending H device fs q) (hapart : p.2.Apart q.2)
    (hnamed : q.2.content.Named)
    (hsha : ∀ fs', H.python.sha256 (q.2.text H.python fs) = H.python.sha256 (q.2.text H.python fs') →
      q.2.text H.python fs = q.2.text H.python fs')
    (h : Undisturbed H device fs p q) : p.2.SharesRegular fs q.2 := by
  obtain ⟨fs', heval, hremoved⟩ := hp.exists_removal
  obtain ⟨latest, hsnapshot⟩ := h fs' heval
  obtain ⟨tally, hscan, hproof⟩ := hq.scan
  have hpresent := hq.toPresent.of_removed hapart hremoved
  rw [eval_snapshot (by simp) hpresent.holds hpresent.depth] at hsnapshot
  cases hscan' : q.2.scan H.python (limitsFor H device q) fs' with
  | error e =>
    rw [hscan'] at hsnapshot
    cases hsnapshot
  | ok tally' =>
    rw [hscan'] at hsnapshot
    have hproof' : tally'.proof H.python = q.1.proof :=
      (Prod.mk.inj (Except.ok.inj (Option.some.inj (Prod.mk.inj hsnapshot).1))).1
    have hdigest := (Prod.mk.inj (hproof.trans hproof'.symm)).1
    rw [Candidate.text_of_scan hscan, Candidate.text_of_scan hscan'] at hdigest
    exact sharesRegular_of_text hmoves hsound hp.holds hnamed heval hremoved (hsha fs' hdigest)

/-- Nothing else changing, no deletion disturbs another candidate and the run deletes all that it
selects if and only if no two candidates share a symbolic link. -/
theorem deletions_undisturbed_iff (hmoves : H.kernel.Moves) (hsound : fs.Sound)
    (hexecute : settings.execute = true) (hne : trees ≠ []) (h : fs.HoldsTrees H device trees)
    (hnamed : ∀ p ∈ admitted H fs device trees, p.2.content.Named)
    (hsha : ∀ p ∈ admitted H fs device trees, ∀ fs',
      H.python.sha256 (p.2.text H.python fs) = H.python.sha256 (p.2.text H.python fs') →
        p.2.text H.python fs = p.2.text H.python fs') :
    ((∀ p ∈ admitted H fs device trees, ∀ q ∈ admitted H fs device trees, p ≠ q →
        Undisturbed H device fs p q) ∧ Completes H device fs settings trees) ↔
      (admitted H fs device trees).Pairwise (SharesNoLink fs) := by
  constructor
  · rintro ⟨hundisturbed, -⟩
    refine h.apart.imp_of_mem fun {p q} hp hq hapart => sharesNoLink_of_regular ?_
    exact (h.pending hp).sharesRegular_of_undisturbed hmoves hsound (h.pending hq) hapart
      (hnamed q hq) (hsha q hq) (hundisturbed p hp q hq hapart.ne)
  · intro hlinks
    have hshared : (admitted H fs device trees).Pairwise fun p q => p.2.SharesRegular fs q.2 :=
      hlinks.imp_of_mem fun hp _ => (h.pending hp).sharesRegular
    constructor
    · have hall : (admitted H fs device trees).Pairwise fun p q =>
          p.2.Apart q.2 ∧ p.2.SharesRegular fs q.2 := h.apart.and hshared
      have hsymm : Std.Symm fun p q : Found × Candidate =>
          p.2.Apart q.2 ∧ p.2.SharesRegular fs q.2 :=
        ⟨fun p q hpq => ⟨hpq.1.symm, fun i hi hi' => hpq.2 i hi' hi⟩⟩
      intro p hp q hq hneq
      obtain ⟨hapart, hregular⟩ := hall.forall hp hq hneq
      exact (h.pending hp).undisturbed (h.pending hq) hapart hregular
    · obtain ⟨fs₁, fs₂, taken, heval, hdeleted, hrelieved⟩ := eval_sweep hexecute hne h hshared
      refine ⟨fs₁, fs₂, taken, hdeleted, hrelieved, ?_⟩
      rw [retain_eq, Program.eval_bind_ok heval]

end Sharing

namespace Sample

def linkedTree : Tree :=
  { tree with
    content := .directory (codePoints "a") (inode 10) contentOfA
      (.directory (codePoints "b") (inode 20) (.leaf (codePoints "link") (inode 31) .nil) .nil) }

theorem holds_linkedTree : linked.HoldsTree linkedTree where
  root := rfl
  directory := rfl
  entries := .swap _ _ _
  ascends := ⟨by decide, ascends_contentOfA, by decide, ⟨by decide, trivial⟩, trivial⟩
  shows := ⟨rfl, .swap _ _ _, ⟨rfl, rfl, .refl _, ⟨rfl, trivial⟩, trivial⟩, rfl, .refl _,
    ⟨rfl, trivial⟩, trivial⟩

theorem holdsTrees_linked : linked.HoldsTrees host (8, 1) [linkedTree] where
  holds := List.forall_mem_singleton.mpr holds_linkedTree
  device_eq := List.forall_mem_singleton.mpr rfl
  depth := List.forall_mem_singleton.mpr (by decide)
  distinct := by decide

def refusedWith (message : String) : Option (Except Failure Unit) → Bool
  | some (.error (.refuse message')) => message' == message
  | _ => false

theorem sound_aged : aged.Sound := sound_fileSystem

end Sample

/-- Two workspaces share a link, and both are too old. The run deletes one of them, and then finds
the other one changed. -/
theorem retain_stops_linked : Sample.linked.HoldsTrees Sample.host (8, 1) [Sample.linkedTree] ∧
    Sample.linked.Sound ∧ Sample.host.kernel.Moves ∧
    Sample.refusedWith "candidate changed/open/mounted: /var/lib/ci-builds-nocow/b"
      ((retain Sample.policy ([Sample.linkedTree].map Tree.root)).eval Sample.host.respond
        Sample.linked).1 = true :=
  ⟨Sample.holdsTrees_linked, Sample.sound_linked, Sample.moves_kernel, by decide +kernel⟩

/-- A file that two workspaces share does not stop the run. -/
theorem deletions_undisturbed_shared :
    (admitted Sample.host Sample.aged (8, 1) [Sample.tree]).length = 2 ∧
      Completes Sample.host (8, 1) Sample.aged Sample.policy [Sample.tree] := by
  obtain ⟨a, b, hadmitted, -⟩ := Sample.exists_admitted
  have hstands := Sample.stands_tree
  refine ⟨by rw [hadmitted]; rfl, ?_⟩
  refine ((deletions_undisturbed_iff Sample.moves_kernel Sample.sound_aged Sample.executes_policy
    (by simp) hstands.toHoldsTrees ?_ fun _ _ _ => id).mpr ?_).2
  · rw [hadmitted]
    intro p hp
    rcases List.mem_pair.mp hp with rfl | rfl
    · exact Sample.named_contentOfA
    · exact Sample.named_contentOfB
  · exact hstands.shared.imp sharesNoLink_of_regular

end ClusterState.CacheRetention
