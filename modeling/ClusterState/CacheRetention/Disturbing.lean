import ClusterState.CacheRetention.Digests
import ClusterState.CacheRetention.Surveying

/-! # When a deletion gets in the way of another one

An unlinked inode that has other names shows it in its `ctime`, which the digest keeps of
symbolic links. Candidates that share one cannot both be deleted in one run.
-/

namespace ClusterState.CacheRetention

open ClusterState.Data.PythonText Concurrency

/-- A change of an inode is later than the changes before. -/
def Kernel.Moves (K : Kernel) : Prop := ∀ fs i, (fs.attributes i).ctime < K.changed fs i

section Marking

variable {K : Kernel} {fs fs' : FileSystem} {d i j : Identity} {name : Name} {α : Type}

theorem respond_cases {r : Syscall Identity} {x : Except Failure r.Result}
    (h : respond K r fs = some (x, fs')) :
    fs' = fs ∨ ∃ d name i, fs.lookup d name = some i ∧ fs' = fs.drop K d name i := by
  cases r with
  | openParent root =>
    rw [respond] at h
    split at h <;> (cases h; exact .inl rfl)
  | statAt d name =>
    rw [respond] at h
    split at h <;> (cases h; exact .inl rfl)
  | openAt d name =>
    rw [respond] at h
    split at h
    · split at h <;> (cases h; exact .inl rfl)
    · cases h
      exact .inl rfl
  | fstat d =>
    cases h
    exact .inl rfl
  | listdir d =>
    cases h
    exact .inl rfl
  | scandir d =>
    cases h
    exact .inl rfl
  | rmdir d name =>
    rw [respond] at h
    split at h
    · rename_i i hlookup
      split at h
      · cases h
        exact .inr ⟨d, name, i, hlookup, rfl⟩
      · cases h
        exact .inl rfl
    · cases h
      exact .inl rfl
  | unlink d name =>
    rw [respond] at h
    split at h
    · rename_i i hlookup
      split at h
      · cases h
        exact .inl rfl
      · cases h
        exact .inr ⟨d, name, i, hlookup, rfl⟩
    · cases h
      exact .inl rfl

/-- The inode is no directory, and either it has its name or its `ctime` tells of the loss. -/
structure Disturbed (before : Int) (i d : Identity) (name : Name) (fs : FileSystem) : Prop where
  entries : fs.entries i = []
  later : before ≤ (fs.attributes i).ctime
  named : fs.lookup d name = some i ∨ before < (fs.attributes i).ctime

variable {before : Int}

theorem Disturbed.drop (hmoves : K.Moves) (h : Disturbed before i d name fs) {d' : Identity} {name' : Name}
    (hlookup : fs.lookup d' name' = some j) : Disturbed before i d name (fs.drop K d' name' j) := by
  have hne : i ≠ d' := by
    rintro rfl
    rw [FileSystem.lookup, h.entries] at hlookup
    cases hlookup
  have hentries : (fs.drop K d' name' j).entries i = [] := by
    simp only [FileSystem.drop, Function.update_of_ne hne]
    exact h.entries
  by_cases hij : i = j
  · have hctime : ((fs.drop K d' name' j).attributes i).ctime = K.changed fs i := by
      subst hij
      simp only [FileSystem.drop, Function.update_of_ne hne, Function.update_self]
    have hlt : before < ((fs.drop K d' name' j).attributes i).ctime := by
      rw [hctime]
      exact h.later.trans_lt (hmoves fs i)
    exact ⟨hentries, hlt.le, .inr hlt⟩
  · have hsame : (fs.drop K d' name' j).attributes i = fs.attributes i := by
      simp only [FileSystem.drop, Function.update_of_ne hne, Function.update_of_ne hij]
    refine ⟨hentries, hsame ▸ h.later, ?_⟩
    rw [hsame]
    refine h.named.imp_left fun hnamed => ?_
    by_cases hd : d = d'
    · subst hd
      have hname : name ≠ name' := by
        rintro rfl
        exact hij (Option.some.inj (hnamed.symm.trans hlookup))
      rw [FileSystem.lookup, entries_drop]
      exact (lookup_filter (p := fun n => decide (n ≠ name')) (decide_eq_true hname)).trans hnamed
    · have hkeep : (fs.drop K d' name' j).entries d = fs.entries d :=
        frame_drop.entries d (by simpa using hd)
      rw [FileSystem.lookup, hkeep]
      exact hnamed

theorem Disturbed.eval (hmoves : K.Moves) (h : Disturbed before i d name fs) (m : Walk Identity α) :
    Disturbed before i d name (m.eval (respond K) fs).2 := by
  refine Program.eval_preserves (fun r x s s' hrespond hs => ?_) m h
  rcases respond_cases hrespond with rfl | ⟨d', name', j, hlookup, rfl⟩
  · exact hs
  · exact hs.drop hmoves hlookup

end Marking

/-! ## Two candidates -/

/-- Only directories have entries. -/
def FileSystem.Sound (fs : FileSystem) : Prop :=
  ∀ i, (fs.stat i).isDirectory = false → fs.entries i = []

section Neighbours

variable {K : Kernel} {py : Python} {limits limits' : Limits} {fs fs' : FileSystem} {c c' : Candidate}
  {d i : Identity} {f : Forest} {fuel : Nat} {tally tally' : Tally}

theorem Forest.exists_lookup (hshows : fs.Shows f) (hascends : f.Ascends) (hhas : fs.Has d f)
    (hi : i ∈ f.leaves) : ∃ d' ∈ d :: f.directories, ∃ name, fs.lookup d' name = some i := by
  induction f generalizing d with
  | nil => cases hi
  | leaf name j rest ih =>
    obtain ⟨hname, hhas⟩ := List.forall_mem_cons.mp hhas
    rcases List.mem_cons.mp hi with rfl | hi
    · exact ⟨d, List.mem_cons_self, name, hname⟩
    · exact ih hshows.2 hascends.2 hhas hi
  | directory name j children rest ihc ih =>
    obtain ⟨-, hperm, hchildren, hrest⟩ := hshows
    obtain ⟨-, hascendsc, hascends⟩ := hascends
    obtain ⟨-, hhas⟩ := List.forall_mem_cons.mp hhas
    rcases List.mem_append.mp hi with hi | hi
    · obtain ⟨d', hd', hlookup⟩ := ihc hchildren hascendsc (has_of_perm hascendsc hperm) hi
      exact ⟨d', List.mem_cons_of_mem _ (List.mem_append_left _ hd'), hlookup⟩
    · obtain ⟨d', hd', hlookup⟩ := ih hrest hascends hhas hi
      refine ⟨d', ?_, hlookup⟩
      rcases List.mem_cons.mp hd' with rfl | hd'
      · exact List.mem_cons_self
      · exact List.mem_cons_of_mem _ (List.mem_append_right _ hd')

/-- The removal of a candidate shows in every leaf of it. -/
theorem ctime_lt_of_removed (hmoves : K.Moves) (hsound : fs.Sound) (h : fs.Holds c)
    (heval : (removeTree fuel c.target limits (some c.identity)).eval (respond K) fs =
      (some (.ok ()), fs'))
    (hremoved : Removed c.parent c.target.name c.node fs fs') (hi : i ∈ c.content.leaves) :
    (fs.attributes i).ctime < (fs'.attributes i).ctime := by
  obtain ⟨d, hd, name, hlookup⟩ :=
    Forest.exists_lookup h.shows h.ascends (has_of_perm h.ascends h.entries) hi
  have hdisturbed : Disturbed (fs.attributes i).ctime i d name fs :=
    ⟨hsound i (Forest.not_isDirectory_of_mem h.shows hi), le_rfl, .inl hlookup⟩
  have hdisturbed' := hdisturbed.eval hmoves (removeTree fuel c.target limits (some c.identity))
  rw [heval] at hdisturbed'
  refine hdisturbed'.named.resolve_left fun hnamed => ?_
  rw [FileSystem.lookup, hremoved.empty d hd] at hnamed
  cases hnamed

theorem Candidate.Allowed.of_removed (h : c'.Allowed limits fs)
    (hremoved : Removed c.parent c.target.name c.node fs fs') : c'.Allowed limits fs' := by
  obtain ⟨hroot, hdirectories, hleaves⟩ := h
  refine ⟨?_, fun i hi => ?_, fun i hi => ?_⟩
  · rw [hremoved.frame.checkEntry]
    exact hroot
  · rw [Passes, hremoved.frame.checkEntry]
    exact hdirectories i hi
  · rw [Passes, hremoved.frame.checkEntry]
    exact hleaves i hi

theorem imprints_ne (hi : i ∈ c'.content.leaves)
    (hkind : (fs.stat i).isRegular = false) (hkind' : (fs'.stat i).isRegular = false)
    (hctime : (fs.attributes i).ctime ≠ (fs'.attributes i).ctime) : c'.imprints fs ≠ c'.imprints fs' := by
  intro heq
  obtain ⟨path, -, hpath⟩ := Forest.mem_listing (.inr hi)
  have himprints := List.map_inj_left.mp heq (path, i) (List.mem_cons_of_mem _ hpath)
  have himprint := congrArg Imprint.ctime (Prod.mk.inj himprints).2
  simp only [Metadata.imprint, hkind, hkind', Bool.false_eq_true, if_false, Option.some.injEq] at himprint
  exact hctime himprint

/-- The digest of a candidate outlasts the removal of another one only if they share no link. -/
theorem sharesRegular_of_text (hmoves : K.Moves) (hsound : fs.Sound) (h : fs.Holds c)
    (hnamed : c'.content.Named)
    (heval : (removeTree fuel c.target limits (some c.identity)).eval (respond K) fs =
      (some (.ok ()), fs'))
    (hremoved : Removed c.parent c.target.name c.node fs fs')
    (htext : c'.text py fs = c'.text py fs') : c.SharesRegular fs c' := by
  intro i hi hi'
  by_contra hregular
  rw [Bool.not_eq_true] at hregular
  have hregular' : (fs'.stat i).isRegular = false := hremoved.isRegular.trans hregular
  have hctime := ctime_lt_of_removed hmoves hsound h heval hremoved hi
  exact imprints_ne hi' hregular hregular' hctime.ne (imprints_of_text hnamed hnamed htext)

end Neighbours

/-! ## One deletion after another -/

section Deletions

variable {H : Host} {device : Device} {fs : FileSystem} {settings : Settings} {p q : Found × Candidate}

/-- Of two candidates that have been found, each can be deleted; then the other one can be deleted
if and only if they share regular files only. A shared link makes the run refuse, unless the
digest collides. -/
theorem second_deletion_exact (hmoves : H.kernel.Moves) (hsound : fs.Sound)
    (hexecute : settings.execute = true) (hp : Pending H device fs p) (hq : Pending H device fs q)
    (hapart : p.2.Apart q.2) (hnamed : q.2.content.Named) :
    ∃ fs₁, (delete settings device p.1).eval H.respond fs = (some (.ok ()), fs₁) ∧
      Removed p.2.parent p.2.target.name p.2.node fs fs₁ ∧
      (p.2.SharesRegular fs q.2 → ∃ fs₂,
        (delete settings device q.1).eval H.respond fs₁ = (some (.ok ()), fs₂) ∧
          Removed q.2.parent q.2.target.name q.2.node fs₁ fs₂) ∧
      (¬p.2.SharesRegular fs q.2 →
        (H.python.sha256 (q.2.text H.python fs) = H.python.sha256 (q.2.text H.python fs₁) →
          q.2.text H.python fs = q.2.text H.python fs₁) →
        (delete settings device q.1).eval H.respond fs₁ =
          (some (.error (.refuse ("candidate changed/open/mounted: " ++
            String.ofList (shown q.1.target.path)))), fs₁)) := by
  obtain ⟨fs₁, heval, hremoved⟩ := hp.exists_removal
  refine ⟨fs₁, hp.eval_delete_of hexecute heval, hremoved, fun hshared => ?_, fun hshared hsha => ?_⟩
  · exact (hp.of_removed hq hapart hshared hremoved).eval_delete hexecute
  · obtain ⟨tally, hscan, hproof⟩ := hq.scan
    have hallowed : q.2.Allowed (limitsFor H device q) fs := by
      rcases q.2.scan_cases H.python (limitsFor H device q) fs with
        ⟨-, -, -, hallowed⟩ | ⟨message, hrefused, -⟩
      · exact hallowed
      · cases hscan.symm.trans hrefused
    rcases q.2.scan_cases H.python (limitsFor H device q) fs₁ with
      ⟨tally', hscan', -, -⟩ | ⟨message, -, hnot⟩
    case inr => exact (hnot (hallowed.of_removed hremoved)).elim
    have hne : ¬tally'.proof H.python = q.1.proof := by
      intro heq
      have hdigest := (Prod.mk.inj (heq.trans hproof.symm)).1
      rw [Candidate.text_of_scan hscan, Candidate.text_of_scan hscan'] at hdigest
      exact hshared (sharesRegular_of_text hmoves hsound hp.holds hnamed heval hremoved
        (hsha hdigest.symm))
    have hpresent := hq.toPresent.of_removed hapart hremoved
    rw [hpresent.eval_delete hexecute hscan', if_neg hne]
    simp only [declineChanged, declinePath, List.append_nil]
    rfl

end Deletions

namespace Sample

theorem moves_kernel : kernel.Moves := fun fs i => Int.lt_succ (fs.attributes i).ctime

theorem ino_of_leaf {i : Identity} (h : (fileSystem.stat i).isDirectory = false) :
    i.2 = 30 ∨ i.2 = 31 := by
  by_contra hnot
  rw [not_or] at hnot
  have hmode : modeOf i.2 = 0o040755 := by rw [modeOf, if_neg hnot.1, if_neg hnot.2]
  have hdirectory : (fileSystem.stat i).isDirectory = true := by
    change (modeOf i.2 &&& 0o170000 == 0o040000) = true
    rw [hmode]
    rfl
  rw [hdirectory] at h
  cases h

theorem sound_fileSystem : fileSystem.Sound := by
  intro i hleaf
  change entriesOf i.2 = []
  rcases ino_of_leaf hleaf with h | h <;> (rw [h]; rfl)

/-- The same file system, with another name of the link. -/
def linked : FileSystem :=
  { fileSystem with
    entries i := if i.2 = 20 then [(codePoints "link", inode 31)] else entriesOf i.2 }

theorem sound_linked : linked.Sound := by
  intro i hleaf
  change (if i.2 = 20 then [(codePoints "link", inode 31)] else entriesOf i.2) = []
  rcases ino_of_leaf hleaf with h | h <;> (rw [h]; rfl)

def linkedB : Candidate :=
  tree.candidate (codePoints "b") (inode 20) (.leaf (codePoints "link") (inode 31) .nil)

theorem named_contentOfB : contentOfB.Named := ⟨⟨by decide, by decide, by decide⟩, trivial⟩

theorem named_linkedB : linkedB.content.Named := ⟨⟨by decide, by decide, by decide⟩, trivial⟩

theorem apart_candidates : candidateA.Apart candidateB := by
  have hpairwise := Tree.pairwise_apart holds_tree (stands_tree.nodup List.mem_cons_self)
  rw [candidates_tree] at hpairwise
  exact List.pairwise_pair.mp hpairwise

theorem apart_linkedB : candidateA.Apart linkedB where
  directories := apart_candidates.directories
  parent := apart_candidates.parent
  parent' := apart_candidates.parent'
  name := apart_candidates.name

theorem holds_candidateB : fileSystem.Holds candidateB where
  root := rfl
  entry := by decide
  directory := rfl
  entries := .refl _
  ascends := ⟨List.forall_mem_nil _, trivial⟩
  shows := ⟨rfl, trivial⟩

theorem linked_holds_candidateA : linked.Holds candidateA where
  root := rfl
  entry := by decide
  directory := rfl
  entries := .swap _ _ _
  ascends := ascends_contentOfA
  shows := ⟨rfl, rfl, .refl _, ⟨rfl, trivial⟩, trivial⟩

theorem holds_linkedB : linked.Holds linkedB where
  root := rfl
  entry := by decide
  directory := rfl
  entries := .refl _
  ascends := ⟨List.forall_mem_nil _, trivial⟩
  shows := ⟨rfl, trivial⟩

theorem exists_found {fs : FileSystem} {c : Candidate} (hroot : c.target.root = builds)
    (hparent : c.parent = inode 2) (hholds : fs.Holds c) (hproper : c.Proper)
    (hdepth : c.content.depth < 4) (hdirectory : (fs.stat (inode 2)).isDirectory = true)
    (hallowed : c.Allowed limits fs) : ∃ p, p.2 = c ∧ Pending host (8, 1) fs p := by
  rcases c.scan_cases host.python limits fs with ⟨tally, hscan, -⟩ | ⟨message, -, hnot⟩
  · have hscan : c.scan host.python (limitsOf tree.root (8, 1) [] []) fs = .ok tally := by
      rw [limitsOf_tree]
      exact hscan
    refine ⟨(⟨tree.root, c.target, tally.proof host.python, tally.latest⟩, c), rfl, ?_⟩
    exact {
      target := rfl
      root := hroot.symm
      holds := hholds
      proper := hproper
      depth := hdepth
      parent := hparent ▸ hdirectory
      device_eq := hparent ▸ rfl
      scan := ⟨tally, hscan, rfl⟩ }
  · exact (hnot hallowed).elim

theorem exists_candidateA {fs : FileSystem} (hholds : fs.Holds candidateA)
    (hdirectory : (fs.stat (inode 2)).isDirectory = true) (hallowed : candidateA.Allowed limits fs) :
    ∃ p, p.2 = candidateA ∧ Pending host (8, 1) fs p :=
  exists_found rfl rfl hholds proper_candidate (by decide) hdirectory hallowed

theorem linked_shares : ¬candidateA.SharesRegular linked linkedB := by
  intro h
  have hregular : (linked.stat (inode 31)).isRegular = true :=
    h (inode 31) (List.mem_cons_of_mem _ List.mem_cons_self) List.mem_cons_self
  cases hregular

end Sample

/-- The workspaces share a file, and both go. Where they share a link, the second one stays. -/
theorem second_deletion_exact_shared :
    (∃ (p q : Found × Candidate) (fs₁ fs₂ : FileSystem), p.2 = Sample.candidateA ∧
      q.2 = Sample.candidateB ∧
      (delete Sample.policy (8, 1) p.1).eval Sample.host.respond Sample.fileSystem =
        (some (.ok ()), fs₁) ∧
      (delete Sample.policy (8, 1) q.1).eval Sample.host.respond fs₁ = (some (.ok ()), fs₂)) ∧
    ∃ (p q : Found × Candidate) (fs₁ : FileSystem), p.2 = Sample.candidateA ∧ q.2 = Sample.linkedB ∧
      (delete Sample.policy (8, 1) p.1).eval Sample.host.respond Sample.linked =
        (some (.ok ()), fs₁) ∧
      (delete Sample.policy (8, 1) q.1).eval Sample.host.respond fs₁ =
        (some (.error (.refuse ("candidate changed/open/mounted: " ++
          String.ofList (shown q.1.target.path)))), fs₁) := by
  constructor
  · obtain ⟨p, hp, hpending⟩ :=
      Sample.exists_candidateA Sample.holds_candidate rfl Sample.allowed_candidate
    obtain ⟨q, hq, hpending'⟩ := Sample.exists_found (c := Sample.candidateB) rfl rfl
      Sample.holds_candidateB (by rw [Candidate.Proper]; decide) (by decide) rfl
      ⟨rfl, List.forall_mem_nil _, List.forall_mem_singleton.mpr rfl⟩
    have hshares : p.2.SharesRegular Sample.fileSystem q.2 := by
      rw [hp, hq]
      intro i _ hi
      rw [List.mem_singleton.mp hi]
      rfl
    obtain ⟨fs₁, hdelete, -, hsecond, -⟩ := second_deletion_exact Sample.moves_kernel
      Sample.sound_fileSystem Sample.executes_policy hpending hpending'
      (by rw [hp, hq]; exact Sample.apart_candidates) (by rw [hq]; exact Sample.named_contentOfB)
    obtain ⟨fs₂, hdelete', -⟩ := hsecond hshares
    exact ⟨p, q, fs₁, fs₂, hp, hq, hdelete, hdelete'⟩
  · have hallowed : Sample.candidateA.Allowed Sample.limits Sample.linked := Sample.allowed_candidate
    obtain ⟨p, hp, hpending⟩ :=
      Sample.exists_candidateA Sample.linked_holds_candidateA rfl hallowed
    obtain ⟨q, hq, hpending'⟩ := Sample.exists_found (c := Sample.linkedB) rfl rfl
      Sample.holds_linkedB (by rw [Candidate.Proper]; decide) (by decide) rfl
      ⟨rfl, List.forall_mem_nil _, List.forall_mem_singleton.mpr rfl⟩
    have hshares : ¬p.2.SharesRegular Sample.linked q.2 := by
      rw [hp, hq]
      exact Sample.linked_shares
    obtain ⟨fs₁, hdelete, -, -, hrefuse⟩ := second_deletion_exact Sample.moves_kernel
      Sample.sound_linked Sample.executes_policy hpending hpending'
      (by rw [hp, hq]; exact Sample.apart_linkedB) (by rw [hq]; exact Sample.named_linkedB)
    exact ⟨p, q, fs₁, hp, hq, hdelete, hrefuse hshares id⟩

end ClusterState.CacheRetention
