import ClusterState.Backup.Execution
import ClusterState.Backup.Sparing

/-! # Retention never reduces recoverability

Wherever a run is cut, the newest backups are whole.
-/

namespace ClusterState.Backup

open Concurrency

variable {Content : Type} {py : Python Content} {places : Location → Place Content}
  {s : State Content} {log : List (Answered Content)} {α β : Type} {Q : β → Trace Content → Prop}

/-- A program that makes its calls only when it may, and can fail in any way. -/
abbrev Keeps (py : Python Content) (places : Location → Place Content)
    (Q : α → Trace Content → Prop) (m : Export Content α) (σ : Trace Content) : Prop :=
  (sparing py places).Meets ⟨⟩ Q (fun _ _ => True) m σ

theorem keeps_act {r : Request Content} {next : r.Value → Export Content β}
    (hguard : Sparing py places r ⟨s, log⟩)
    (hnext : ∀ x t, Spares py places ⟨s, log⟩ → s.Performs r x t →
      Keeps py places Q (next x) ⟨t, ⟨r, x⟩ :: log⟩) :
    Keeps py places Q (act r >>= next) ⟨s, log⟩ := by
  refine Discipline.meets_ask hguard fun x t hs hperforms => ?_
  obtain ⟨t, log'⟩ := t
  obtain ⟨hsite, hlog⟩ := hperforms
  change log' = _ at hlog
  subst hlog
  exact hnext x t hs hsite

theorem sparing_of_harmless {r : Request Content} (hr : Harmless r) {σ : Trace Content} :
    Sparing py places r σ := by
  cases r <;> trivial

theorem keeps_read {r : Request Content} {next : r.Value → Export Content β} (hr : Harmless r)
    (hnext : ∀ x, s.Performs r x s → Keeps py places Q (next x) ⟨s, ⟨r, x⟩ :: log⟩) :
    Keeps py places Q (act r >>= next) ⟨s, log⟩ := by
  refine keeps_act (sparing_of_harmless hr) fun x t _ hperforms => ?_
  obtain rfl := eq_of_harmless hr hperforms
  exact hnext x hperforms

theorem keeps_orFail {σ : Trace Content} {x : Option α} {next : α → Export Content β}
    (hnext : ∀ a, x = some a → Keeps py places Q (next a) σ) :
    Keeps py places Q (orFail x >>= next) σ := by
  cases x with
  | some a => exact hnext a rfl
  | none => trivial

theorem keeps_lift {σ : Trace Content} {x : Except Failure α} {next : α → Export Content β}
    (hnext : ∀ a, x = .ok a → Keeps py places Q (next a) σ) :
    Keeps py places Q (lift x >>= next) σ := by
  cases x with
  | ok a => exact hnext a rfl
  | error e => trivial

theorem keeps_directoryAt {l : Location} {path : String} {next : Directory Content → Export Content β}
    (hnext : ∀ d, s.entry l path = some (.directory d) →
      Keeps py places Q (next d) ⟨s, ⟨.stat l path, some (some (.directory d))⟩ :: log⟩) :
    Keeps py places Q (directoryAt l path >>= next) ⟨s, log⟩ := by
  refine keeps_read trivial fun x hperforms => ?_
  obtain ⟨-, hread⟩ := hperforms
  cases x with
  | none => trivial
  | some e =>
    obtain rfl := hread e rfl
    cases he : s.entry l path with
    | none => trivial
    | some e =>
      cases e with
      | directory d => exact hnext d he
      | other => trivial

/-! ## Before the publication -/

structure Begun (places : Location → Place Content) (s : State Content) : Prop where
  published : s.published = []
  entries : ∀ l, entries (s.places l) = entries (places l)

theorem lookup_of_entries {p p' : Place Content} (h : entries p = entries p') (name : String) :
    p.lookup name = p'.lookup name := by
  have hlookup : ∀ p : Place Content, p.lookup name = (Backup.entries p).dlookup name := by
    intro p
    cases p <;> rfl
  rw [hlookup, hlookup, h]

theorem Begun.entry (h : Begun places s) (l : Location) (name : String) :
    s.entry l name = (places l).lookup name := lookup_of_entries (h.entries l) name

theorem Begun.exportsIn (h : Begun places s) :
    exportsIn py (s.places .exports) = exportsIn py (places .exports) := by
  rw [Backup.exportsIn, Backup.exportsIn, recognised, recognised, h.entries]

theorem Begun.archivesIn (h : Begun places s) :
    archivesIn py (s.places .dbArchives) = archivesIn py (places .dbArchives) := by
  rw [Backup.archivesIn, Backup.archivesIn, recognised, recognised, h.entries]

theorem Begun.mkdirExports {t : State Content} (h : Begun places s)
    (heffect : s.effect .mkdirExports = some t) : Begun places t := by
  simp only [State.effect] at heffect
  split at heffect
  · rename_i habsent
    cases heffect
    refine ⟨h.published, fun l => ?_⟩
    rw [← h.entries]
    cases l with
    | exports =>
      rw [State.places_setPlace, habsent]
      rfl
    | dbArchives => rfl
  · cases heffect

theorem keeps_namespaceExports (hs : Begun places s) : Keeps py places
    (fun _ t => Begun places t.site ∧ (t.site.places .exports).attributes?.isSome)
    namespaceExports ⟨s, log⟩ := by
  refine keeps_read trivial fun x _ => keeps_orFail fun p _ => ?_
  have hrest : ∀ t log, Begun places t → Keeps py places
      (fun _ t => Begun places t.site ∧ (t.site.places .exports).attributes?.isSome)
      (act (.look .exports) >>= fun x => orFail x >>= fun p => lift (privatePlace p)) ⟨t, log⟩ := by
    intro t log ht
    refine keeps_read trivial fun x hperforms => keeps_orFail fun p hp => ?_
    obtain rfl := hperforms.2 p hp
    unfold privatePlace
    split
    · rename_i attributes hattributes
      unfold privateDirectory require
      split
      · exact ⟨ht, (congrArg Option.isSome hattributes).trans rfl⟩
      · trivial
    · trivial
  unfold mkdirIfAbsent
  split
  · refine keeps_act trivial fun x t _ hmkdir => keeps_orFail fun _ _ => ?_
    obtain ⟨rfl, -⟩ | heffect := hmkdir
    · exact hrest _ _ hs
    · exact hrest t _ (hs.mkdirExports heffect)
  · exact hrest s _ hs

theorem keeps_produce {version : String} :
    Keeps py places (fun _ t => t.site = s) (produce py version) ⟨s, log⟩ := by
  refine keeps_read trivial fun x _ => keeps_orFail fun p _ => ?_
  cases checkProduction py version p with
  | ok produced => rfl
  | error e => trivial

structure Prepares (py : Python Content) (places : Location → Place Content) (p : Prepared Content)
    (log : List (Answered Content)) : Prop where
  name : p.name = p.target ++ backupSuffix
  target : ∃ version, matchStem py p.target = some (p.timestamp, version)
  fresh : (places .exports).lookup p.target = none
  retained : p.retained = exportsIn py (places .exports)
  dbRetained : p.dbRetained = archivesIn py (places .dbArchives)
  digested : ⟨.digestSource p.name, some p.checksum⟩ ∈ log

theorem keeps_prepare (hs : Begun places s) : Keeps py places
    (fun p t => Begun places t.site ∧ (t.site.places .exports).attributes?.isSome ∧
      Prepares py places p t.log) (prepare py) ⟨s, log⟩ := by
  refine keeps_read trivial fun _ _ => keeps_lift fun _ _ => ?_
  refine keeps_read trivial fun _ _ => keeps_lift fun _ _ => ?_
  refine (keeps_namespaceExports hs).bind fun _ t ht => ?_
  obtain ⟨t, log⟩ := t
  obtain ⟨ht, hexports⟩ := ht
  refine keeps_read trivial fun _ _ => keeps_orFail fun _ _ => ?_
  refine keeps_read trivial fun _ _ => keeps_orFail fun version _ => keeps_lift fun _ _ => ?_
  refine keeps_read trivial fun _ _ => keeps_orFail fun _ _ => ?_
  refine keeps_produce.bind fun produced t' ht' => ?_
  obtain ⟨t', log⟩ := t'
  obtain rfl : t' = t := ht'
  obtain ⟨name, empty⟩ := produced
  simp only
  split
  · trivial
  · rename_i timestamp version hmatch
    obtain ⟨hname, htarget⟩ := qualified_name hmatch
    refine keeps_read trivial fun _ _ => keeps_orFail fun metadata _ => ?_
    refine keeps_read trivial fun digested _ => keeps_orFail fun checksum hchecksum => ?_
    subst hchecksum
    refine keeps_read trivial fun _ hstat => keeps_orFail fun there hthere => ?_
    obtain rfl := hstat.2 there hthere
    refine keeps_lift fun _ hfree => ?_
    refine keeps_read trivial fun _ hlook => keeps_orFail fun place hplace => ?_
    obtain rfl := hlook.2 place hplace
    refine keeps_lift fun retained hretained => ?_
    refine keeps_read trivial fun _ hlook => keeps_orFail fun place hplace => ?_
    obtain rfl := hlook.2 place hplace
    refine keeps_lift fun dbRetained hdbRetained => ?_
    refine ⟨ht, hexports, hname.symm, ⟨version, htarget⟩, ?_, ?_, ?_, ?_⟩
    · rw [← ht.entry]
      exact Option.isNone_iff_eq_none.mp (of_require hfree)
    · exact (eq_of_completed hretained).trans ht.exportsIn
    · exact (eq_of_completedDbArchives hdbRetained).trans ht.archivesIn
    · exact .tail _ (.tail _ (.tail _ (.head _)))

/-! ## Publishing -/

theorem keeps_checkDigest {path name checksum reason : String}
    {next : Unit → Export Content β}
    (hnext : ∀ d, s.entry .exports path = some (.directory d) → digest py d name = .ok checksum →
      Keeps py places Q (next ()) ⟨s, ⟨.stat .exports path, some (some (.directory d))⟩ :: log⟩) :
    Keeps py places Q (checkDigest py path name checksum reason >>= next) ⟨s, log⟩ := by
  have hcheck : Keeps py places (fun _ t => ∃ d, s.entry .exports path = some (.directory d) ∧
      digest py d name = .ok checksum ∧
      t = ⟨s, ⟨.stat .exports path, some (some (.directory d))⟩ :: log⟩)
      (checkDigest py path name checksum reason) ⟨s, log⟩ := by
    refine keeps_directoryAt fun d hd => keeps_lift fun found hfound => ?_
    by_cases heq : found = checksum
    · subst heq
      rw [require_of rfl]
      exact ⟨d, hd, hfound, rfl⟩
    · rw [require, if_neg heq]
      trivial
  refine hcheck.bind fun _ t ht => ?_
  obtain ⟨d, hd, hdigest, rfl⟩ := ht
  exact hnext d hd hdigest

theorem keeps_checkStage {listed : List ((_ : String) × Leaf Content)} :
    Keeps py places (fun _ t => t.site = s ∧ log ⊆ t.log ∧
      ∀ entry ∈ listed, privateFile entry.2 = .ok ()) (checkStage listed) ⟨s, log⟩ := by
  induction listed generalizing log with
  | nil => exact ⟨rfl, fun _ h => h, nofun⟩
  | cons entry rest ih =>
    refine keeps_lift fun _ hprivate => keeps_read trivial fun _ _ => keeps_orFail fun _ _ => ?_
    refine ih.mono (fun _ t ht => ?_) fun _ _ => id
    exact ⟨ht.1, fun _ h => ht.2.1 (.tail _ h), List.forall_mem_cons.mpr ⟨hprivate, ht.2.2⟩⟩

def Ready (py : Python Content) (target : String) (σ : Trace Content) : Prop :=
  target ∈ σ.site.published ∧ ReadBack py σ.log target

theorem keeps_publish {p : Prepared Content} {stage : String} (hp : Prepares py places p log)
    (hown : OwnStage places stage) (hnone : s.published = [])
    (hentry : s.entry .exports stage = some (.directory ⟨State.newDirectory, ∅⟩)) :
    Keeps py places (fun _ t => Ready py p.target t) (publish py p stage) ⟨s, log⟩ := by
  obtain ⟨version, hmatch⟩ := hp.target
  refine keeps_act hown fun x t _ hperforms => keeps_orFail fun _ hok => ?_
  obtain ⟨-, hfail⟩ | ⟨archive, rfl⟩ := hperforms
  · rw [hfail] at hok
    cases hok
  have hwritten := entry_putFile p.name archive hentry
  have hnone₁ := (@NativeBackup.published_putFile _ _ .exports stage p.name archive).trans hnone
  generalize s.putFile .exports stage p.name archive = s₁ at hwritten hnone₁
  refine keeps_directoryAt fun d hd => keeps_lift fun _ _ => ?_
  refine keeps_checkDigest fun d' hd' hdigest => ?_
  cases hwritten.symm.trans hd'
  refine keeps_act hown fun x t _ hperforms => keeps_orFail fun _ hok => ?_
  obtain ⟨-, hfail⟩ | ⟨yml, rfl, -⟩ := hperforms
  · rw [hfail] at hok
    cases hok
  have hwritten₂ := entry_putFile "backup_information.yml" yml hwritten
  have hnone₂ := (@NativeBackup.published_putFile _ _ .exports stage "backup_information.yml"
    yml).trans hnone₁
  generalize s₁.putFile .exports stage "backup_information.yml" yml = s₂ at hwritten₂ hnone₂
  refine keeps_act hown fun x t _ hperforms => keeps_orFail fun _ hok => ?_
  obtain ⟨-, hfail⟩ | ⟨sha, rfl, hsum⟩ := hperforms
  · rw [hfail] at hok
    cases hok
  have hwritten₃ := entry_putFile "archive.sha256" sha hwritten₂
  have hnone₃ := (@NativeBackup.published_putFile _ _ .exports stage "archive.sha256" sha).trans hnone₂
  generalize s₂.putFile .exports stage "archive.sha256" sha = s₃ at hwritten₃ hnone₃
  refine keeps_directoryAt fun d₃ hd₃ => ?_
  cases hwritten₃.symm.trans hd₃
  refine keeps_checkStage.bind fun _ t ht => ?_
  obtain ⟨t, log'⟩ := t
  obtain ⟨rfl, hlog, hprivate⟩ := ht
  refine keeps_checkDigest fun _ _ _ => ?_
  refine keeps_read trivial fun _ _ => keeps_orFail fun _ _ => ?_
  have hsum' : py.sha256 archive.content = p.checksum := by
    rw [digest, content, AList.lookup_insert] at hdigest
    exact Except.ok.inj hdigest
  have hsource := hp.digested
  rw [hp.name] at hwritten₃ hprivate hsource
  have htext := hsum hok
  rw [hp.name, ← hsum'] at htext
  have hcompleted := completedExport_of_passes hmatch (passes_of_stage hmatch hprivate htext)
  refine keeps_act ⟨hnone₃, hown, hp.fresh, _, hmatch, fun e he => ?_⟩
    fun x t₄ _ hperforms => keeps_orFail fun _ hok => ?_
  · cases hwritten₃.symm.trans he
    exact hcompleted
  · subst hok
    obtain ⟨-, hfail⟩ | heffect := hperforms
    · cases hfail
    have hpublished : p.target ∈ t₄.published := by
      simp only [State.effect] at heffect
      split at heffect
      · cases heffect
        exact List.mem_cons_self
      · cases heffect
    refine keeps_read trivial fun _ _ => keeps_orFail fun _ _ => ?_
    refine keeps_directoryAt fun d _ => keeps_lift fun found hfound => ?_
    unfold require
    split
    · rename_i heq
      subst heq
      refine ⟨hpublished, [], _, d, p.checksum, rfl, ⟨[⟨.sync, _⟩], _, stage, rfl, ?_⟩, ?_⟩
      · exact .tail _ (.tail _ (hlog (.tail _ (.tail _ (.tail _ (.tail _ (.tail _ (.tail _ hsource))))))))
      · rw [← hp.name]
        exact hfound
    · trivial

/-! ## Retention -/

def Removes (Goes : Location → String → Prop) : Request Content → Prop
  | .stat _ _ => True
  | .sync => True
  | .cleanup => True
  | .unlink l path _ => Goes l path
  | .rmdir l path => Goes l path
  | _ => False

section Removes

variable {Goes : Location → String → Prop}

theorem only_orFail {m : Option α} {quiet : Request Content → Prop} :
    (orFail m : Export Content α).Only quiet := by
  cases m <;> trivial

theorem only_act {r : Request Content} {quiet : Request Content → Prop} (hr : quiet r) :
    (act r).Only quiet := ⟨hr, fun _ => trivial⟩

theorem only_unlinkAll {l : Location} {path : String} (h : Goes l path) {names : List String} :
    (unlinkAll l path names : Export Content Unit).Only (Removes Goes) := by
  induction names with
  | nil => trivial
  | cons name rest ih => exact (only_act h).bind fun _ => only_orFail.bind fun _ => ih

theorem only_directoryAt {l : Location} {path : String} :
    (directoryAt l path : Export Content _).Only (Removes Goes) := by
  refine (only_act trivial).bind fun _ => only_orFail.bind fun found => ?_
  rcases found with _ | ⟨d | _⟩ <;> trivial

theorem only_pruneOwned {l : Location} {names : List String} (h : ∀ name ∈ names, Goes l name) :
    (pruneOwned l names : Export Content Unit).Only (Removes Goes) := by
  induction names with
  | nil => trivial
  | cons old rest ih =>
    obtain ⟨hold, hrest⟩ := List.forall_mem_cons.mp h
    refine only_directoryAt.bind fun d => (only_unlinkAll hold).bind fun _ => ?_
    exact (only_act hold).bind fun _ => only_orFail.bind fun _ => ih hrest

theorem only_retention {p : Prepared Content}
    (hexports : ∀ name ∈ dropLast 7 (sorted timestampKey (p.retained ++ [(p.timestamp, p.target)])),
      Goes .exports name)
    (hdbArchives : ∀ name ∈ dropLast 14 p.dbRetained, Goes .dbArchives name) :
    (retention p).Only (Removes Goes) := by
  refine (only_pruneOwned hexports).bind fun _ => (only_pruneOwned hdbArchives).bind fun _ => ?_
  have hsync : ∀ {m : Export Content Unit}, m.Only (Removes Goes) →
      (act .sync >>= fun x => orFail x >>= fun _ => m).Only (Removes Goes) := fun hm =>
    (only_act trivial).bind fun _ => only_orFail.bind fun _ => hm
  have hcleanup : (act .cleanup >>= orFail : Export Content Unit).Only (Removes Goes) :=
    (only_act trivial).bind fun _ => only_orFail
  have hend := hsync hcleanup
  split
  · exact hsync hend
  · exact hend

end Removes

theorem Ready.performs {target : String} {r : Request Content} {σ σ' : Trace Content} {x : r.Value}
    (h : Ready py target σ)
    (hperforms : Logged.performs (fun r s x s' => s.Performs r x s') r σ x σ') :
    Ready py target σ' := by
  refine ⟨NativeBackup.published_of_performs hperforms.1 h.1, ?_⟩
  rw [hperforms.2]
  exact h.2.cons _

theorem Spares.published_eq {target : String} {σ : Trace Content} (h : Spares py places σ)
    (htarget : target ∈ σ.site.published) : σ.site.published = [target] := by
  rcases h.published with hnone | ⟨target', hpublished, -⟩
  · rw [hnone] at htarget
    cases htarget
  · rw [hpublished, List.mem_singleton] at htarget
    rw [hpublished, htarget]

theorem keeps_retention {p : Prepared Content} {σ : Trace Content} {before : List (Answered Content)}
    (hp : Prepares py places p before) (hready : Ready py p.target σ) :
    Keeps py places (fun _ _ => True) (retention p) σ := by
  obtain ⟨version, hmatch⟩ := hp.target
  have htarget : publication py p.target = some (p.timestamp, p.target) :=
    publication_eq_some.mpr ⟨rfl, version, hmatch⟩
  have hpublication : [p.target].filterMap (publication py) = [(p.timestamp, p.target)] := by
    rw [List.filterMap_cons, htarget]
    rfl
  have honly : (retention p).Only (Removes (Dropped py places [p.target])) := by
    apply only_retention
    · intro name hname
      rw [hp.retained, ← hpublication] at hname
      exact hname
    · intro name hname
      rw [hp.dbRetained] at hname
      exact hname
  have hguard : ∀ r (σ : Trace Content), Removes (Dropped py places [p.target]) r →
      Spares py places σ → Ready py p.target σ → Sparing py places r σ := by
    intro r σ hr hs hready
    have hremovable : ∀ {l path}, Dropped py places [p.target] l path →
        Removable py places σ l path := fun hdropped =>
      ⟨(hs.published_eq hready.1).symm ▸ hdropped, p.target, hready⟩
    cases r with
    | unlink l path file => exact hremovable hr
    | rmdir l path => exact hremovable hr
    | stat | sync | cleanup => trivial
    | _ => exact hr.elim
  have hmeets : (sparing py places).Meets ⟨⟩ (fun _ => Ready py p.target)
      (fun _ => Ready py p.target) (retention p) σ :=
    Discipline.meets_only hguard (fun _ _ _ _ _ hperforms h => h.performs hperforms) honly hready
  exact hmeets.mono (fun _ _ _ => trivial) fun _ _ _ => trivial

theorem keeps_removeStage {stage : String} {σ : Trace Content} (hown : OwnStage places stage) :
    Keeps py places (fun _ _ => True) (removeStage stage) σ := by
  obtain ⟨s, log⟩ := σ
  refine keeps_read trivial fun _ _ => keeps_orFail fun there _ => ?_
  cases there with
  | none => trivial
  | some e => exact keeps_act hown fun x _ _ _ => by cases x <;> trivial

theorem keeps_main (hs : Begun places s) :
    Keeps py places (fun _ _ => True) (main py) ⟨s, log⟩ := by
  refine (keeps_prepare hs).bind fun p t hp => ?_
  obtain ⟨t, log⟩ := t
  obtain ⟨hbegun, hexports, hprepares⟩ := hp
  refine keeps_act trivial fun x t' hspares hperforms => keeps_orFail fun stage hstage => ?_
  obtain ⟨-, hfail⟩ | ⟨random, hfree, rfl, hfail | hname⟩ := hperforms
  · rw [hfail] at hstage
    cases hstage
  · rw [hfail] at hstage
    cases hstage
  · cases hstage.symm.trans hname
    have hown : OwnStage places (State.stageName p.target random) := hspares.ownStage hfree
    refine Discipline.Meets.finallyDo ?_ (fun _ _ (_ : True) => keeps_removeStage hown)
      fun _ _ (_ : True) => keeps_removeStage hown
    have hprepares' : Prepares py places p (⟨.mkdtemp p.target, x⟩ :: log) :=
      { hprepares with digested := .tail _ hprepares.digested }
    have hstaged := @State.entry_put _ _ _ (State.stageName p.target random)
      (.directory ⟨State.newDirectory, ∅⟩) hexports
    exact (keeps_publish hprepares' hown (s := State.put _ _ _ _) hbegun.published hstaged).bind
      fun _ _ hready => keeps_retention hprepares hready

/-! ## The result -/

def Completed (py : Python Content) (l : Location) (name : String) (e : Entry Content) : Prop :=
  match l with
  | .exports => ∃ x, completedExport py name e = .ok (some x)
  | .dbArchives => ∃ x, completedArchive py name e = .ok (some x)

/-- What a run has made of the directory that it began with. -/
structure Recoverable (py : Python Content) (places : Location → Place Content)
    (σ : Trace Content) : Prop where
  exports : ∀ x ∈ newest 7 (exportsWith py (places .exports) σ.site.published),
    ∃ e, σ.site.entry .exports x.2 = some e ∧ completedExport py x.2 e = .ok (some x)
  archives : ∀ x ∈ newest 14 (archivesIn py (places .dbArchives)),
    ∃ e, σ.site.entry .dbArchives x.2 = some e ∧ completedArchive py x.2 e = .ok (some x)
  pruned : ∀ l name e, (places l).lookup name = some e → σ.site.entry l name ≠ some e →
    ∃ target ∈ σ.site.published, ReadBack py σ.log target
  unread : ∀ target ∈ σ.site.published, ¬ ReadBack py σ.log target →
    ∃ e, σ.site.entry .exports target = some e ∧ Completed py .exports target e
  others : ∀ l name e, (places l).lookup name = some e → ¬ Completed py l name e →
    σ.site.entry l name = some e

section Recoverable

variable {σ : Trace Content}

theorem Spares.nodup_exportsWith (h : Spares py places σ) :
    ((exportsWith py (places .exports) σ.site.published).map Prod.snd).Nodup := by
  rcases h.published with hnone | ⟨target, hpublished, hnew⟩
  · rw [hnone]
    exact Backup.nodup_exportsWith List.nodup_nil nofun
  · rw [hpublished]
    refine Backup.nodup_exportsWith (List.nodup_singleton target) fun target' htarget' => ?_
    rw [List.mem_singleton.mp htarget']
    exact hnew.fresh

theorem Removable.completed {l : Location} {name : String} {e : Entry Content}
    (h : Removable py places σ l name) (hs : Spares py places σ)
    (he : (places l).lookup name = some e) : Completed py l name e := by
  have hdropped := h.dropped
  cases l with
  | exports =>
    obtain ⟨x, hx, rfl⟩ := snd_mem_of_dropLast hdropped
    rcases mem_exportsWith.mp hx with hx | ⟨hpublished, -⟩
    · obtain ⟨e', he', hcompleted⟩ := mem_exportsIn.mp hx
      cases he.symm.trans he'
      exact ⟨x, hcompleted⟩
    · rcases hs.published with hnone | ⟨target, htarget, hnew⟩
      · rw [hnone] at hpublished
        cases hpublished
      · rw [htarget, List.mem_singleton] at hpublished
        rw [hpublished, hnew.fresh] at he
        cases he
  | dbArchives =>
    obtain ⟨x, hx, rfl⟩ := snd_mem_of_dropLast hdropped
    obtain ⟨e', he', hcompleted⟩ := mem_archivesIn.mp hx
    cases he.symm.trans he'
    exact ⟨x, hcompleted⟩

theorem Spares.recoverable (h : Spares py places σ) : Recoverable py places σ where
  exports x hx := by
    have hkept := not_dropped_of_newest h.nodup_exportsWith hx
    rcases mem_exportsWith.mp (mem_of_newest hx) with hbefore | ⟨hpublished, version, hmatch⟩
    · obtain ⟨e, he, hcompleted⟩ := mem_exportsIn.mp hbefore
      exact ⟨e, (h.others _ _ e he).resolve_right fun hr => hkept hr.dropped, hcompleted⟩
    · rcases h.published with hnone | ⟨target, htarget, hnew⟩
      · rw [hnone] at hpublished
        cases hpublished
      · rw [htarget, List.mem_singleton] at hpublished
        obtain ⟨timestamp, name⟩ := x
        obtain rfl : name = target := hpublished
        obtain ⟨found, hfound, hwhole⟩ := hnew.whole
        cases hfound.symm.trans hmatch
        exact hwhole.resolve_right fun hr => hkept hr.dropped
  archives x hx := by
    have hkept := not_dropped_of_newest nodup_archivesIn hx
    obtain ⟨e, he, hcompleted⟩ := mem_archivesIn.mp (mem_of_newest hx)
    exact ⟨e, (h.others _ _ e he).resolve_right fun hr => hkept hr.dropped, hcompleted⟩
  pruned l name e he hchanged := ((h.others l name e he).resolve_left hchanged).readBack
  unread target htarget hunread := by
    have hpublished := h.published_eq htarget
    rcases h.published with hnone | ⟨target', htarget', hnew⟩
    · rw [hnone] at htarget
      cases htarget
    · obtain rfl : target' = target := List.singleton_inj.mp (htarget'.symm.trans hpublished)
      obtain ⟨found, -, ⟨e, he, hcompleted⟩ | hremovable⟩ := hnew.whole
      · exact ⟨e, he, _, hcompleted⟩
      · obtain ⟨read, hread, hback⟩ := hremovable.readBack
        rw [hpublished, List.mem_singleton] at hread
        exact absurd (hread ▸ hback) hunread
  others l name e he hnot :=
    (h.others l name e he).resolve_right fun hr => hnot (hr.completed h he)

end Recoverable

def tracing (Content : Type) :
    System PUnit.{1} (Request Content) Request.Value (Trace Content) :=
  .alone (Logged.performs fun r s x s' => s.Performs r x s')

/-- Wherever a run is cut, the newest backups are whole, nothing has gone before the new
export had been read back, and nothing but completed backups has changed. -/
theorem retention_keeps_recoverability (py : Python Content) (places : Location → Place Content)
    {c : Config PUnit.{1} (Request Content) Request.Value Failure Unit (Trace Content)}
    (hr : (tracing Content).Reaches ⟨fun _ => main py, ⟨.begin places, []⟩⟩ c) :
    Recoverable py places c.shared := by
  have hmain : Keeps py places (fun _ _ => True) (main py) ⟨.begin places, []⟩ :=
    keeps_main ⟨rfl, fun _ => rfl⟩
  exact (hmain.reaches (fun _ => Discipline.stable_alone) (fun _ => Discipline.stable_alone)
    (spares_begin py places) hr).1.recoverable

/-- A run is cut when it has taken one file out of the oldest of eight exports. -/
theorem cut_pruning_keeps_recoverability :
    ∃ c : Config PUnit.{1} (Request String) Request.Value Failure Unit (Trace String),
      (tracing String).Reaches
        ⟨fun _ => main Sample.python, ⟨.begin Sample.sevenExports.places, []⟩⟩ c ∧
      c.shared.site.emptying ≠ none ∧
      Recoverable Sample.python Sample.sevenExports.places c.shared := by
  have hrun : ((responder Sample.first).execute [.act ⟨⟩ (List.replicate 30 ())]
      (⟨fun _ => main Sample.python, .begin Sample.sevenExports.places⟩ :
        Config PUnit.{1} (Request String) Request.Value Failure Unit (State String))).any (fun c =>
        decide (c.shared.emptying ≠ none)) = true := by
    decide
  obtain ⟨c, hreach, hcheck⟩ := Responder.exists_reaches hrun
  obtain ⟨log, hlogged⟩ := System.Reaches.logged hreach
  exact ⟨_, hlogged, of_decide_eq_true hcheck, retention_keeps_recoverability _ _ hlogged⟩

end ClusterState.Backup
