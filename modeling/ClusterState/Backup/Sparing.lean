import ClusterState.Backup.Completions
import ClusterState.Concurrency.Logging

/-! # What retention spares

A backup goes only when the new one has been published and read back, and then only if it
is not one of the newest. Nothing else that was there is touched.
-/

namespace ClusterState.Backup

open Concurrency

variable {Content : Type} (py : Python Content) (places : Location → Place Content)

abbrev Answered (Content : Type) := (r : Request Content) × r.Value

abbrev Trace (Content : Type) := Logged (Request Content) Request.Value (State Content)

def State.begin : State Content := ⟨places, none, []⟩

/-- A stage became the export, after the native archive had this checksum. -/
def Renamed (log : List (Answered Content)) (target checksum : String) : Prop :=
  ∃ since before stage, log = since ++ ⟨.rename stage target, some ()⟩ :: before ∧
    ⟨.digestSource (target ++ backupSuffix), some checksum⟩ ∈ before

/-- The export was read since, and its archive had the checksum. -/
def ReadBack (log : List (Answered Content)) (target : String) : Prop :=
  ∃ since before d checksum, log = since ++ ⟨.stat .exports target, some (some (.directory d))⟩ :: before ∧
    Renamed before target checksum ∧ digest py d (target ++ backupSuffix) = .ok checksum

/-- What retention drops of a location, once these exports are published. -/
def Dropped (published : List String) : Location → String → Prop
  | .exports, name => name ∈ dropLast 7 (exportsWith py (places .exports) published)
  | .dbArchives, name => name ∈ dropLast 14 (archivesIn py (places .dbArchives))

structure Removable (σ : Trace Content) (l : Location) (name : String) : Prop where
  dropped : Dropped py places σ.site.published l name
  readBack : ∃ target ∈ σ.site.published, ReadBack py σ.log target

/-- The new export is whole as long as it is not removed. -/
structure New (σ : Trace Content) (target : String) : Prop where
  fresh : (places .exports).lookup target = none
  whole : ∃ found, matchStem py target = some found ∧
    ((∃ e, σ.site.entry .exports target = some e ∧
        completedExport py target e = .ok (some (found.1, target))) ∨
      Removable py places σ .exports target)

/-- Everything that was there still is, but for what may go. -/
structure Spares (σ : Trace Content) : Prop where
  others : ∀ l name e, (places l).lookup name = some e →
    σ.site.entry l name = some e ∨ Removable py places σ l name
  published : σ.site.published = [] ∨ ∃ target, σ.site.published = [target] ∧ New py places σ target

/-- A name of `mkdtemp` that was not there before the run. -/
structure OwnStage (stage : String) : Prop where
  hidden : ∃ hidden, stage = "." ++ hidden
  fresh : (places .exports).lookup stage = none

def Sparing : Request Content → Trace Content → Prop
  | .rename stage target, σ => σ.site.published = [] ∧ OwnStage places stage ∧
      (places .exports).lookup target = none ∧ ∃ found, matchStem py target = some found ∧
        ∀ e, σ.site.entry .exports stage = some e →
          completedExport py target e = .ok (some (found.1, target))
  | .unlink l path _, σ => Removable py places σ l path
  | .rmdir l path, σ => Removable py places σ l path
  | .copyfile _ stage, _ => OwnStage places stage
  | .write stage _ _, _ => OwnStage places stage
  | .rmtree stage, _ => OwnStage places stage
  | _, _ => True

variable {py places} {s s' : State Content} {σ σ' : Trace Content} {l : Location} {name target : String}

theorem Renamed.cons {log : List (Answered Content)} {checksum : String} (event : Answered Content)
    (h : Renamed log target checksum) : Renamed (event :: log) target checksum := by
  obtain ⟨since, before, stage, rfl, hdigest⟩ := h
  exact ⟨event :: since, before, stage, rfl, hdigest⟩

theorem ReadBack.cons {log : List (Answered Content)} (event : Answered Content)
    (h : ReadBack py log target) : ReadBack py (event :: log) target := by
  obtain ⟨since, before, d, checksum, rfl, hrenamed⟩ := h
  exact ⟨event :: since, before, d, checksum, rfl, hrenamed⟩

theorem Removable.later (h : Removable py places σ l name)
    (hpublished : σ'.site.published = σ.site.published) {event : Answered Content}
    (hlog : σ'.log = event :: σ.log) : Removable py places σ' l name where
  dropped := hpublished ▸ h.dropped
  readBack := by
    obtain ⟨target, htarget, hback⟩ := h.readBack
    exact ⟨target, hpublished ▸ htarget, hlog ▸ hback.cons event⟩

theorem owned_of_dropped {published : List String} (h : Dropped py places published l name) :
    Owned py l name := by
  cases l with
  | exports =>
    obtain ⟨x, hx, rfl⟩ := snd_mem_of_dropLast h
    rcases mem_exportsWith.mp hx with hx | ⟨-, version, hmatch⟩
    · obtain ⟨e, -, hcompleted⟩ := mem_exportsIn.mp hx
      exact owned_of_completedExport hcompleted
    · exact Option.isSome_iff_exists.mpr ⟨_, hmatch⟩
  | dbArchives =>
    obtain ⟨x, hx, rfl⟩ := snd_mem_of_dropLast h
    obtain ⟨e, -, hcompleted⟩ := mem_archivesIn.mp hx
    exact owned_of_completedArchive hcompleted

theorem not_owned_hidden (hidden : String) : ¬ Owned py .exports ("." ++ hidden) := by
  change ¬ (matchStem py ("." ++ hidden)).isSome
  rw [matchStem_hidden]
  exact Bool.false_ne_true

/-! ## What a call can change -/

theorem Spares.touch (h : Spares py places σ) (hpublished : σ'.site.published = σ.site.published)
    {event : Answered Content} (hlog : σ'.log = event :: σ.log)
    (hentry : ∀ l name, σ'.site.entry l name = σ.site.entry l name ∨
      Removable py places σ l name ∨ (l = .exports ∧ OwnStage places name)) :
    Spares py places σ' where
  others l name e he := by
    rcases hentry l name with hsame | hremovable | ⟨rfl, hown⟩
    · rw [hsame]
      exact (h.others l name e he).imp_right fun hr => hr.later hpublished hlog
    · exact .inr (hremovable.later hpublished hlog)
    · rw [hown.fresh] at he
      cases he
  published := by
    rw [hpublished]
    refine h.published.imp_right fun ⟨target, htarget, hnew⟩ => ⟨target, htarget, hnew.fresh, ?_⟩
    obtain ⟨found, hmatch, hwhole⟩ := hnew.whole
    refine ⟨found, hmatch, ?_⟩
    rcases hentry .exports target with hsame | hremovable | ⟨-, ⟨⟨hidden, rfl⟩, -⟩⟩
    · rw [hsame]
      exact hwhole.imp_right fun hr => hr.later hpublished hlog
    · exact .inr (hremovable.later hpublished hlog)
    · rw [matchStem_hidden] at hmatch
      cases hmatch

theorem Spares.ownStage {hidden : String} (h : Spares py places σ)
    (hfree : σ.site.entry .exports ("." ++ hidden) = none) : OwnStage places ("." ++ hidden) := by
  refine ⟨⟨hidden, rfl⟩, ?_⟩
  cases he : (places .exports).lookup ("." ++ hidden) with
  | none => rfl
  | some e =>
    rcases h.others _ _ e he with hentry | hremovable
    · rw [hfree] at hentry
      cases hentry
    · exact absurd (owned_of_dropped hremovable.dropped) (not_owned_hidden hidden)

theorem entry_put_cases (l : Location) (name : String) (e : Entry Content) (l' : Location)
    (name' : String) : (s.put l name e).entry l' name' = s.entry l' name' ∨ l' = l ∧ name' = name := by
  by_cases heq : (l', name') = (l, name)
  · exact .inr (Prod.mk.inj heq)
  · exact .inl (State.entry_put_ne heq)

theorem entry_drop_cases (l : Location) (name : String) (l' : Location) (name' : String) :
    (s.drop l name).entry l' name' = s.entry l' name' ∨ l' = l ∧ name' = name := by
  by_cases heq : (l', name') = (l, name)
  · exact .inr (Prod.mk.inj heq)
  · exact .inl (State.entry_drop_ne heq)

theorem entry_putFile_cases (l : Location) (path file : String) (f : File Content) (l' : Location)
    (name' : String) :
    (s.putFile l path file f).entry l' name' = s.entry l' name' ∨ l' = l ∧ name' = path := by
  unfold State.putFile
  split
  · exact entry_put_cases l path _ l' name'
  · exact .inl rfl

theorem effect_of_removal {r : Request Content} {path : String}
    (hr : r = .rmdir l path ∨ ∃ file, r = .unlink l path file) (heffect : s.effect r = some s') :
    s'.published = s.published ∧
      ∀ l' name', s'.entry l' name' = s.entry l' name' ∨ l' = l ∧ name' = path := by
  rcases hr with rfl | ⟨file, rfl⟩
  · simp only [State.effect] at heffect
    split at heffect
    · split at heffect
      · cases heffect
        exact ⟨rfl, entry_drop_cases l path⟩
      · cases heffect
    · cases heffect
  · simp only [State.effect] at heffect
    split at heffect
    · split at heffect
      · cases heffect
        exact ⟨rfl, entry_put_cases l path _⟩
      · cases heffect
    · cases heffect

theorem Spares.remove {r : Request Content} {path : String} (h : Spares py places σ)
    (hr : r = .rmdir l path ∨ ∃ file, r = .unlink l path file)
    (hremovable : Removable py places σ l path) {event : Answered Content}
    (hlog : σ'.log = event :: σ.log)
    (hperforms : σ'.site = σ.site ∨ σ.site.effect r = some σ'.site) : Spares py places σ' := by
  rcases hperforms with hsame | heffect
  · exact h.touch (congrArg _ hsame) hlog fun l name => .inl (congrArg (·.entry l name) hsame)
  · obtain ⟨hpublished, hentry⟩ := effect_of_removal hr heffect
    refine h.touch hpublished hlog fun l' name' => ?_
    rcases hentry l' name' with hsame | ⟨rfl, rfl⟩
    · exact .inl hsame
    · exact .inr (.inl hremovable)

theorem Spares.rename {stage : String} (h : Spares py places σ)
    (hguard : Sparing py places (.rename stage target) σ)
    (heffect : σ.site.effect (.rename stage target) = some σ'.site) : Spares py places σ' := by
  obtain ⟨hnone, hown, hfresh, found, hmatch, hcompleted⟩ := hguard
  have hkept : ∀ l name e, (places l).lookup name = some e → σ.site.entry l name = some e := by
    intro l name e he
    refine (h.others l name e he).resolve_right fun hremovable => ?_
    obtain ⟨target', htarget', -⟩ := hremovable.readBack
    rw [hnone] at htarget'
    cases htarget'
  simp only [State.effect] at heffect
  split at heffect
  · rename_i e hstage hfree
    have hsite := (Option.some.inj heffect).symm
    have hplace : ((σ.site.drop .exports stage).places .exports).attributes?.isSome :=
      State.attributes_drop.symm ▸ Place.attributes_of_lookup hstage
    have hentry : ∀ l name, σ'.site.entry l name =
        ((σ.site.drop .exports stage).put .exports target e).entry l name := by
      intro l name
      rw [hsite]
      rfl
    refine ⟨fun l name e' he' => .inl ?_, .inr ⟨target, ?_, hfresh, found, hmatch, .inl ⟨e, ?_, ?_⟩⟩⟩
    · rw [hentry]
      rcases entry_put_cases (s := σ.site.drop .exports stage) .exports target e l name with
        hput | ⟨rfl, rfl⟩
      · rcases entry_drop_cases (s := σ.site) .exports stage l name with hdrop | ⟨rfl, rfl⟩
        · rw [hput, hdrop, hkept l name e' he']
        · rw [hown.fresh] at he'
          cases he'
      · rw [hfresh] at he'
        cases he'
    · rw [hsite, ← hnone]
    · rw [hentry, State.entry_put hplace]
    · exact hcompleted e hstage
  · cases heffect

theorem effect_of_mkdirExports (heffect : s.effect .mkdirExports = some s') :
    s'.published = s.published ∧ ∀ l name, s'.entry l name = s.entry l name := by
  refine ⟨?_, NativeBackup.entry_mkdirExports heffect⟩
  simp only [State.effect] at heffect
  split at heffect
  · cases heffect
    rfl
  · cases heffect

theorem Spares.performs {r : Request Content} {x : r.Value} (h : Spares py places σ)
    (hguard : Sparing py places r σ)
    (hperforms : Logged.performs (fun r s x s' => s.Performs r x s') r σ x σ') :
    Spares py places σ' := by
  obtain ⟨hperforms, hlog⟩ := hperforms
  have hstage : ∀ {stage : String}, OwnStage places stage → ∀ {l name}, l = .exports ∧ name = stage →
      Removable py places σ l name ∨ (l = .exports ∧ OwnStage places name) := by
    rintro stage hown l name ⟨rfl, rfl⟩
    exact .inr ⟨rfl, hown⟩
  have hsame : σ'.site = σ.site → Spares py places σ' := fun hsite =>
    h.touch (congrArg _ hsite) hlog fun l name => .inl (congrArg (·.entry l name) hsite)
  cases r with
  | look l => exact hsame hperforms.1
  | stat l path => exact hsame hperforms.1
  | mkdtemp target =>
    obtain ⟨hsite, -⟩ | ⟨random, hfree, hsite, -⟩ := hperforms
    · exact hsame hsite
    · refine h.touch ((congrArg State.published hsite).trans rfl) hlog fun l name => ?_
      rw [hsite]
      exact (entry_put_cases _ _ _ l name).imp_right (hstage (h.ownStage hfree))
  | copyfile file stage =>
    obtain ⟨hsite, -⟩ | ⟨f, hsite⟩ := hperforms
    · exact hsame hsite
    · refine h.touch ((congrArg State.published hsite).trans NativeBackup.published_putFile) hlog
        fun l name => ?_
      rw [hsite]
      exact (entry_putFile_cases _ _ _ f l name).imp_right (hstage hguard)
  | write stage file content =>
    obtain ⟨hsite, -⟩ | ⟨f, hsite, -⟩ := hperforms
    · exact hsame hsite
    · refine h.touch ((congrArg State.published hsite).trans NativeBackup.published_putFile) hlog
        fun l name => ?_
      rw [hsite]
      exact (entry_putFile_cases _ _ _ f l name).imp_right (hstage hguard)
  | rmtree stage =>
    obtain ⟨-, hsite | ⟨e, hsite⟩⟩ | hsite := hperforms
    · exact hsame hsite
    · refine h.touch ((congrArg State.published hsite).trans rfl) hlog fun l name => ?_
      rw [hsite]
      exact (entry_put_cases _ _ e l name).imp_right (hstage hguard)
    · refine h.touch ((congrArg State.published hsite).trans rfl) hlog fun l name => ?_
      rw [hsite]
      exact (entry_drop_cases _ _ l name).imp_right (hstage hguard)
  | mkdirExports =>
    obtain ⟨hsite, -⟩ | heffect := hperforms
    · exact hsame hsite
    · obtain ⟨hpublished, hentry⟩ := effect_of_mkdirExports heffect
      exact h.touch hpublished hlog fun l name => .inl (hentry l name)
  | rename stage target =>
    obtain ⟨hsite, -⟩ | heffect := hperforms
    · exact hsame hsite
    · exact h.rename hguard heffect
  | unlink l path file => exact h.remove (.inr ⟨file, rfl⟩) hguard hlog (hperforms.imp_left And.left)
  | rmdir l path => exact h.remove (.inl rfl) hguard hlog (hperforms.imp_left And.left)
  | _ => exact hsame hperforms

variable (py places)

def sparing : Discipline PUnit (Request Content) Request.Value (Trace Content) :=
  .alone (Logged.performs fun r s x s' => s.Performs r x s') (Spares py places) (Sparing py places)
    fun _ _ _ _ h hguard hperforms => h.performs hguard hperforms

theorem spares_begin : Spares py places ⟨.begin places, []⟩ where
  others _ _ _ he := .inl he
  published := .inl rfl

end ClusterState.Backup
