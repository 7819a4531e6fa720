import ClusterState.Backup.Retrying

/-! # A later run

In a later run every call succeeds that can, and the native backup is a good one.
-/

namespace ClusterState.Backup

open Concurrency

variable {Content : Type} {py : Python Content} {s : State Content}

structure NativeBackup (Content : Type) where
  version : String
  production : Production
  name : String
  empty : List String
  archive : Content
  metadata : Content
  /-- What `mkdtemp` picks. -/
  random : String

namespace NativeBackup

def target (b : NativeBackup Content) : String := (stem? b.name).getD b.name

def newFile (content : Content) : File Content := ⟨⟨1000, 1000, 0o600⟩, content⟩

def attempt (s : State Content) (r : Request Content) : Option Unit × State Content :=
  match s.effect r with
  | some s' => (some (), s')
  | none => (none, s)

def respond (b : NativeBackup Content) (py : Python Content) :
    (r : Request Content) → State Content → Option (r.Value × State Content)
  | .getuid, s => some ((1000, 1000), s)
  | .recovery, s => some (true, s)
  | .look l, s => some (some (s.places l), s)
  | .mkdirExports, s => some (attempt s .mkdirExports)
  | .flock, s => some (some (), s)
  | .version, s => some (some b.version, s)
  | .openLog, s => some (some (), s)
  | .native, s => some (some b.production, s)
  | .cleanup, s => some (some (), s)
  | .inspectArchive _ _, s => some (some b.metadata, s)
  | .digestSource _, s => some (some (py.sha256 b.archive), s)
  | .mkdtemp target, s =>
    if s.entry .exports (State.stageName target b.random) = none then
      some (some (State.stageName target b.random), s.put .exports (State.stageName target b.random)
        (.directory ⟨State.newDirectory, ∅⟩))
    else none
  | .copyfile name stage, s => some (some (), s.putFile .exports stage name (newFile b.archive))
  | .write stage name content, s =>
    some (some (), s.putFile .exports stage name (newFile content))
  | .stat l path, s => some (some (s.entry l path), s)
  | .sync, s => some (some (), s)
  | .rename stage target, s => some (attempt s (.rename stage target))
  | .unlink l path name, s => some (attempt s (.unlink l path name))
  | .rmdir l path, s => some (attempt s (.rmdir l path))
  | .rmtree stage, s => some (some (), s.drop .exports stage)

variable {b : NativeBackup Content} {s' : State Content}

theorem performs_attempt {r : Request Content} {x : Option Unit} (h : attempt s r = (x, s')) :
    (s' = s ∧ x = none) ∨ s.effect r = some s' := by
  unfold attempt at h
  split at h
  · rename_i heffect
    cases h
    exact .inr heffect
  · cases h
    exact .inl ⟨rfl, rfl⟩

theorem performs_of_respond {r : Request Content} {x : r.Value}
    (h : b.respond py r s = some (x, s')) : s.Performs r x s' := by
  cases r with
  | mkdtemp target =>
    simp only [respond] at h
    split at h
    · rename_i hfree
      cases h
      exact .inr ⟨b.random, hfree, rfl, .inr rfl⟩
    · cases h
  | look l =>
    cases h
    exact ⟨rfl, fun _ hp => (Option.some.inj hp).symm⟩
  | stat l path =>
    cases h
    exact ⟨rfl, fun _ he => (Option.some.inj he).symm⟩
  | copyfile name stage =>
    cases h
    exact .inr ⟨_, rfl⟩
  | write stage name content =>
    cases h
    exact .inr ⟨_, rfl, fun _ => rfl⟩
  | rmtree stage =>
    cases h
    exact .inr rfl
  | mkdirExports => exact performs_attempt (Option.some.inj h)
  | rename stage target => exact performs_attempt (Option.some.inj h)
  | unlink l path name => exact performs_attempt (Option.some.inj h)
  | rmdir l path => exact performs_attempt (Option.some.inj h)
  | _ =>
    cases h
    exact rfl

theorem published_effect {r : Request Content} {target : String} (h : s.effect r = some s')
    (htarget : target ∈ s.published) : target ∈ s'.published := by
  unfold State.effect at h
  split at h
  · split at h <;> cases h
    exact htarget
  · split at h <;> cases h
    exact List.mem_cons_of_mem _ htarget
  · split at h
    · split at h <;> cases h
      exact htarget
    · cases h
  · split at h
    · split at h <;> cases h
      exact htarget
    · cases h
  · cases h
    exact htarget

theorem published_putFile {l : Location} {path name : String} {f : File Content} :
    (s.putFile l path name f).published = s.published := by
  unfold State.putFile
  split <;> rfl

theorem published_of_performs {r : Request Content} {x : r.Value} {target : String}
    (h : s.Performs r x s') (htarget : target ∈ s.published) : target ∈ s'.published := by
  cases r with
  | look l =>
    obtain ⟨rfl, -⟩ := h
    exact htarget
  | stat l path =>
    obtain ⟨rfl, -⟩ := h
    exact htarget
  | mkdtemp name =>
    obtain ⟨rfl, -⟩ | ⟨random, -, rfl, -⟩ := h <;> exact htarget
  | copyfile name stage =>
    obtain ⟨rfl, -⟩ | ⟨f, rfl⟩ := h
    · exact htarget
    · exact published_putFile.symm ▸ htarget
  | write stage name content =>
    obtain ⟨rfl, -⟩ | ⟨f, rfl, -⟩ := h
    · exact htarget
    · exact published_putFile.symm ▸ htarget
  | rmtree stage =>
    obtain ⟨-, rfl | ⟨e, rfl⟩⟩ | rfl := h <;> exact htarget
  | mkdirExports =>
    obtain ⟨rfl, -⟩ | heffect := h
    · exact htarget
    · exact published_effect heffect htarget
  | rename stage target =>
    obtain ⟨rfl, -⟩ | heffect := h
    · exact htarget
    · exact published_effect heffect htarget
  | unlink l path name =>
    obtain ⟨rfl, -⟩ | heffect := h
    · exact htarget
    · exact published_effect heffect htarget
  | rmdir l path =>
    obtain ⟨rfl, -⟩ | heffect := h
    · exact htarget
    · exact published_effect heffect htarget
  | _ =>
    obtain rfl : s' = s := h
    exact htarget

structure Good (py : Python Content) (b : NativeBackup Content) (s : State Content) : Prop where
  version : isStableVersion b.version = true
  production : checkProduction py b.version b.production = .ok (b.name, b.empty)
  target : s.entry .exports b.target = none
  stage : s.entry .exports (State.stageName b.target b.random) = none

def Publishes (py : Python Content) (b : NativeBackup Content) (s : State Content) : Prop :=
  b.target ∈ ((main py).eval (b.respond py) { s with published := [] }).2.published

/-! ## Computing the later run -/

section Eval

variable {α β : Type}

theorem eval_act {r : Request Content} {x : r.Value} {next : r.Value → Export Content β}
    (h : b.respond py r s = some (x, s')) :
    (act r >>= next).eval (b.respond py) s = (next x).eval (b.respond py) s' := Program.eval_ask h

theorem eval_lift {x : Except Failure α} {a : α} {next : α → Export Content β} (h : x = .ok a) :
    (lift x >>= next).eval (b.respond py) s = (next a).eval (b.respond py) s := by
  rw [h]
  rfl

theorem eval_orFail {a : α} {next : α → Export Content β} :
    (orFail (some a) >>= next).eval (b.respond py) s = (next a).eval (b.respond py) s := rfl

theorem eval_directoryAt {l : Location} {path : String} {d : Directory Content}
    (h : s.entry l path = some (.directory d)) :
    (directoryAt l path : Export Content _).eval (b.respond py) s = (some (.ok d), s) := by
  rw [directoryAt, eval_act rfl, eval_orFail, h]
  rfl

theorem eval_checkDigest {path name checksum reason : String} {d : Directory Content}
    (hentry : s.entry .exports path = some (.directory d))
    (hdigest : digest py d name = .ok checksum) :
    (checkDigest py path name checksum reason).eval (b.respond py) s = (some (.ok ()), s) := by
  rw [checkDigest, Program.eval_bind_ok (eval_directoryAt hentry), eval_lift hdigest, lift,
    require_of rfl]
  rfl

theorem eval_checkStage {listed : List ((_ : String) × Leaf Content)}
    (h : ∀ entry ∈ listed, privateFile entry.2 = .ok ()) :
    (checkStage listed : Export Content _).eval (b.respond py) s = (some (.ok ()), s) := by
  induction listed with
  | nil => rfl
  | cons entry rest ih =>
    rw [checkStage, eval_lift (h entry List.mem_cons_self), eval_act rfl, eval_orFail]
    exact ih fun e he => h e (List.mem_cons_of_mem entry he)

theorem entry_mkdirExports (h : s.effect .mkdirExports = some s') (l : Location) (name : String) :
    s'.entry l name = s.entry l name := by
  simp only [State.effect] at h
  split at h
  · rename_i habsent
    cases h
    cases l with
    | exports =>
      rw [State.entry, State.places_setPlace, State.entry, habsent]
      rfl
    | dbArchives => rfl
  · cases h

theorem eval_namespaceExports (hs : Orderly py s) : ∃ t,
    (namespaceExports : Export Content _).eval (b.respond py) s = (some (.ok ()), t) ∧
      (t.places .exports).attributes? = some State.newDirectory ∧ Orderly py t ∧
      t.emptying = s.emptying ∧ ∀ l name, t.entry l name = s.entry l name := by
  have hlast : ∀ t : State Content, (t.places .exports).attributes? = some State.newDirectory →
      (act (.look .exports) >>= fun x => orFail x >>= fun p =>
        lift (privatePlace p) : Export Content _).eval (b.respond py) t = (some (.ok ()), t) := by
    intro t ht
    have hprivate : privatePlace (t.places .exports) = .ok () := by
      rw [privatePlace, ht]
      exact require_of rfl
    rw [eval_act rfl, eval_orFail, lift, hprivate]
    rfl
  rw [namespaceExports, eval_act rfl, eval_orFail]
  rcases hs.privatePlace .exports with habsent | hattributes
  · have heffect : s.effect .mkdirExports =
        some (s.setPlace .exports (.directory State.newDirectory ∅)) := by
      simp only [State.effect, habsent]
    refine ⟨_, ?_, congrArg Place.attributes? State.places_setPlace, hs.mkdirExports heffect, rfl,
      entry_mkdirExports heffect⟩
    have hmade : b.respond py .mkdirExports s =
        some (some (), s.setPlace .exports (.directory State.newDirectory ∅)) := by
      rw [respond, attempt, heffect]
    rw [habsent, mkdirIfAbsent]
    refine (Program.eval_bind_ok (a := ()) ?_).trans (hlast _ (congrArg _ State.places_setPlace))
    rw [eval_act hmade]
    rfl
  · refine ⟨s, ?_, hattributes, hs, rfl, fun _ _ => rfl⟩
    have hthere : mkdirIfAbsent (s.places .exports) = (pure () : Export Content Unit) := by
      cases hplace : s.places .exports with
      | absent =>
        rw [hplace] at hattributes
        cases hattributes
      | _ => rfl
    rw [hthere]
    exact hlast s hattributes

theorem matchName_of_production {version : String} {p : Production} {name : String}
    {empty : List String} (h : checkProduction py version p = .ok (name, empty)) :
    ∃ found, matchName py name = some found := by
  obtain ⟨_, -, h⟩ := Data.bind_eq_ok.mp h
  obtain ⟨_, -, h⟩ := Data.bind_eq_ok.mp h
  split at h
  · split at h
    · rename_i found hfound
      obtain ⟨_, -, h⟩ := Data.bind_eq_ok.mp h
      obtain ⟨_, -, h⟩ := Data.bind_eq_ok.mp h
      cases h
      exact ⟨_, hfound⟩
    · cases h
  · cases h

theorem eval_prepare (hs : Orderly py s) (hnone : s.emptying = none) (hb : Good py b s) :
    ∃ p t, (prepare py).eval (b.respond py) s = (some (.ok p), t) ∧ p.name = b.name ∧
      p.target = b.target ∧ p.checksum = py.sha256 b.archive ∧
      (t.places .exports).attributes?.isSome ∧ Good py b t := by
  obtain ⟨t, hnamespace, hattributes, ht, hemptying, hentry⟩ := eval_namespaceExports (b := b) hs
  obtain ⟨⟨retained, hretained⟩, dbRetained, hdbRetained⟩ :=
    ht.accepts_iff.mpr (hemptying.trans hnone)
  obtain ⟨⟨timestamp, version⟩, hmatch⟩ := matchName_of_production hb.production
  have hfree : t.entry .exports b.target = none := (hentry _ _).trans hb.target
  have hproduce : (produce py b.version).eval (b.respond py) t = (some (.ok (b.name, b.empty)), t) := by
    rw [produce, eval_act rfl, eval_orFail, hb.production]
    rfl
  refine ⟨⟨b.name, timestamp, b.metadata, py.sha256 b.archive, b.target, retained, dbRetained⟩, t, ?_,
    rfl, rfl, rfl, by rw [hattributes]; rfl, ⟨hb.version, hb.production, hfree,
      (hentry _ _).trans hb.stage⟩⟩
  rw [prepare, eval_act rfl, eval_lift (require_of rfl), eval_act rfl, eval_lift (require_of rfl),
    Program.eval_bind_ok hnamespace, eval_act rfl, eval_orFail, eval_act rfl, eval_orFail,
    eval_lift (require_of hb.version), eval_act rfl, eval_orFail, Program.eval_bind_ok hproduce]
  simp only [hmatch]
  rw [eval_act rfl, eval_orFail, eval_act rfl, eval_orFail, eval_act rfl, eval_orFail,
    eval_lift (require_of (by rw [← NativeBackup.target, hfree]; rfl)), eval_act rfl, eval_orFail,
    eval_lift hretained, eval_act rfl, eval_orFail, eval_lift hdbRetained]
  rfl

theorem entry_putFile_ne {l l' : Location} {path path' name : String} {f : File Content}
    (h : (l', path') ≠ (l, path)) : (s.putFile l path name f).entry l' path' = s.entry l' path' := by
  unfold State.putFile
  split
  · exact State.entry_put_ne h
  · rfl

def staged (py : Python Content) (p : Prepared Content) (archive : Content) : Directory Content :=
  ⟨State.newDirectory, stagedFiles p.name (newFile archive) (newFile p.metadata)
    (newFile (py.ofText (checksumText p.checksum p.name)))⟩

theorem private_insert {files : AList fun _ : String => Leaf Content} {name : String}
    {leaf : Leaf Content} (hfiles : ∀ entry ∈ files.entries, privateFile entry.2 = .ok ())
    (hleaf : privateFile leaf = .ok ()) :
    ∀ entry ∈ (files.insert name leaf).entries, privateFile entry.2 = .ok () := by
  intro entry hentry
  rw [AList.entries_insert] at hentry
  rcases List.mem_cons.mp hentry with rfl | hentry
  · exact hleaf
  · exact hfiles entry ((List.kerase_sublist _ _).subset hentry)

theorem staged_private {p : Prepared Content} {archive : Content} :
    ∀ entry ∈ (staged py p archive).files.entries, privateFile entry.2 = .ok () := by
  have hnew : ∀ c : Content, privateFile (.file (newFile c)) = .ok () := fun _ => require_of rfl
  have hempty : ∀ entry ∈ (∅ : AList fun _ : String => Leaf Content).entries,
      privateFile entry.2 = .ok () := fun _ h => absurd h List.not_mem_nil
  exact private_insert (private_insert (private_insert hempty (hnew _)) (hnew _)) (hnew _)

theorem digest_staged {p : Prepared Content} {archive : Content}
    (hname : p.name = p.target ++ backupSuffix) :
    digest py (staged py p archive) p.name = .ok (py.sha256 archive) := by
  rw [digest, content, staged, hname, lookup_stagedFiles]
  rfl

theorem eval_publish {p : Prepared Content} {stage : String}
    (hentry : s.entry .exports stage = some (.directory ⟨State.newDirectory, ∅⟩))
    (hfree : s.entry .exports p.target = none) (hname : p.name = p.target ++ backupSuffix)
    (hchecksum : p.checksum = py.sha256 b.archive) :
    ∃ t, (publish py p stage).eval (b.respond py) s = (some (.ok ()), t) ∧ p.target ∈ t.published := by
  have hne : (Location.exports, p.target) ≠ (Location.exports, stage) := by
    rintro heq
    cases heq
    rw [hfree] at hentry
    cases hentry
  -- the stage with one, two and three files
  obtain ⟨s₁, hs₁⟩ : ∃ t, t = s.putFile .exports stage p.name (newFile b.archive) := ⟨_, rfl⟩
  obtain ⟨s₂, hs₂⟩ : ∃ t, t = s₁.putFile .exports stage "backup_information.yml"
    (newFile p.metadata) := ⟨_, rfl⟩
  obtain ⟨s₃, hs₃⟩ : ∃ t, t = s₂.putFile .exports stage "archive.sha256"
    (newFile (py.ofText (checksumText p.checksum p.name))) := ⟨_, rfl⟩
  have hentry₁ : s₁.entry .exports stage = some (.directory ⟨State.newDirectory,
      (∅ : AList fun _ : String => Leaf Content).insert p.name (.file (newFile b.archive))⟩) :=
    hs₁ ▸ entry_putFile p.name (newFile b.archive) hentry
  have hentry₂ := entry_putFile "backup_information.yml" (newFile p.metadata) hentry₁
  rw [← hs₂] at hentry₂
  have hentry₃ : s₃.entry .exports stage = some (.directory (staged py p b.archive)) :=
    hs₃ ▸ entry_putFile "archive.sha256" _ hentry₂
  have hfree₃ : s₃.entry .exports p.target = none := by
    rw [hs₃, entry_putFile_ne hne, hs₂, entry_putFile_ne hne, hs₁, entry_putFile_ne hne, hfree]
  -- the rename
  obtain ⟨s₄, hs₄⟩ : ∃ t, s₃.effect (.rename stage p.target) = some t := by
    simp only [State.effect, hentry₃, hfree₃]
    exact ⟨_, rfl⟩
  have hrename : b.respond py (.rename stage p.target) s₃ = some (some (), s₄) := by
    rw [respond, attempt, hs₄]
  have hpublished : s₄.entry .exports p.target = some (.directory (staged py p b.archive)) ∧
      p.target ∈ s₄.published := by
    simp only [State.effect, hentry₃, hfree₃, Option.some.injEq] at hs₄
    subst hs₄
    have hplace : ((s₃.drop .exports stage).places .exports).attributes?.isSome :=
      State.attributes_drop.symm ▸ Place.attributes_of_lookup hentry₃
    exact ⟨State.entry_put hplace, List.mem_cons_self⟩
  have hdigest₁ : digest py ⟨State.newDirectory, (∅ : AList fun _ : String => Leaf Content).insert
      p.name (.file (newFile b.archive))⟩ p.name = .ok p.checksum := by
    rw [digest, content, AList.lookup_insert, hchecksum]
    rfl
  have hleaf : privateLeaf ⟨State.newDirectory, (∅ : AList fun _ : String => Leaf Content).insert
      p.name (.file (newFile b.archive))⟩ p.name = .ok () := by
    rw [privateLeaf, AList.lookup_insert]
    exact require_of rfl
  have hdigest : digest py (staged py p b.archive) p.name = .ok p.checksum := by
    rw [digest_staged hname, hchecksum]
  refine ⟨s₄, ?_, hpublished.2⟩
  rw [publish, eval_act rfl, eval_orFail, ← hs₁, Program.eval_bind_ok (eval_directoryAt hentry₁),
    eval_lift hleaf, Program.eval_bind_ok (eval_checkDigest hentry₁ hdigest₁), eval_act rfl,
    eval_orFail, ← hs₂, eval_act rfl, eval_orFail, ← hs₃,
    Program.eval_bind_ok (eval_directoryAt hentry₃),
    Program.eval_bind_ok (eval_checkStage staged_private),
    Program.eval_bind_ok (eval_checkDigest hentry₃ hdigest), eval_act rfl, eval_orFail,
    eval_act hrename, eval_orFail, eval_act rfl, eval_orFail]
  exact eval_checkDigest hpublished.1 hdigest

end Eval

theorem publishes_of_orderly (hs : Orderly py s) (hnone : s.emptying = none) (hb : Good py b s) :
    Publishes py b s := by
  have hstart : Orderly py { s with published := [] } := ⟨hs.privatePlace, hs.passes, hs.emptying⟩
  obtain ⟨p, t, hprepare, hname, htarget, hchecksum, hattributes, hgood⟩ :=
    eval_prepare (b := b) hstart hnone ⟨hb.version, hb.production, hb.target, hb.stage⟩
  obtain ⟨found, hmatch⟩ := matchName_of_production hb.production
  have hstage : b.respond py (.mkdtemp p.target) t =
      some (some (State.stageName b.target b.random),
        t.put .exports (State.stageName b.target b.random) (.directory ⟨State.newDirectory, ∅⟩)) := by
    rw [htarget, respond, if_pos hgood.stage]
  have hne : (Location.exports, b.target) ≠
      (Location.exports, State.stageName b.target b.random) := by
    intro heq
    have htarget' := (qualified_name hmatch).2
    rw [← NativeBackup.target, (Prod.mk.inj heq).2, State.stageName, matchStem_hidden] at htarget'
    cases htarget'
  have hfree : (t.put .exports (State.stageName b.target b.random)
      (.directory ⟨State.newDirectory, ∅⟩)).entry .exports p.target = none := by
    rw [htarget, State.entry_put_ne hne, hgood.target]
  have hsuffix : p.name = p.target ++ backupSuffix := by
    rw [hname, htarget, NativeBackup.target, (qualified_name hmatch).1]
  obtain ⟨u, hpublish, hpublished⟩ := eval_publish (State.entry_put hattributes) hfree hsuffix hchecksum
  rw [Publishes, main, Program.eval_bind_ok hprepare, eval_act hstage, eval_orFail]
  have hkeeps : ∀ r (y : r.Value) (s s' : State Content), b.respond py r s = some (y, s') →
      b.target ∈ s.published → b.target ∈ s'.published := fun r y s s' hrespond hin =>
    published_of_performs (performs_of_respond hrespond) hin
  apply Program.eval_finallyDo hkeeps
  rw [Program.eval_bind_ok hpublish]
  exact Program.eval_preserves hkeeps _ (htarget ▸ hpublished)

end NativeBackup

/-! ## Results -/

/-- Nothing has been cut: everything with the name of a completed backup is one. -/
structure Intact (py : Python Content) (s : State Content) : Prop where
  privatePlace : ∀ l, PrivatePlace (s.places l)
  accepts : Accepts py s
  emptying : s.emptying = none

theorem Intact.orderly (h : Intact py s) : Orderly py s where
  privatePlace := h.privatePlace
  passes l name e he _ := by
    cases l with
    | exports => exact completed_ok_iff.mp h.accepts.1 name e he
    | dbArchives =>
      exact (completedDbArchives_ok_iff (h.privatePlace _)).mp h.accepts.2 name e he
  emptying l name hin := by
    rw [h.emptying] at hin
    cases hin

/-- Runs of the exporter, each of which may be cut anywhere. -/
def exporter (py : Python Content) :
    Server Unit (Request Content) Request.Value Failure (State Content) where
  system := ⟨fun _ r s x s' => s.Performs r x s', fun _ _ => False⟩
  serve _ := main py
  restart s := { s with published := [] }

theorem exporter_follows : (exporter py).Follows (exporting py) where
  system_eq := rfl
  serves _ _ _ := achieves_main
  restarts _ h := ⟨h.privatePlace, h.passes, h.emptying⟩

theorem export_can_be_retried {c : Session (Request Content) Request.Value Failure (State Content)}
    {b : NativeBackup Content} (hs : Intact py s) (hc : (exporter py).Reachable s c)
    (hb : b.Good py c.shared) :
    Accepts py c.shared ∧ b.Publishes py c.shared ↔ c.shared.emptying = none := by
  have hsound := exporter_follows.reachable hs.orderly hc
  constructor
  · rintro ⟨haccepts, -⟩
    exact hsound.1.accepts_iff.mp haccepts
  · intro hnone
    exact ⟨hsound.1.accepts_iff.mpr hnone, NativeBackup.publishes_of_orderly hsound.1 hnone hb⟩

end ClusterState.Backup
