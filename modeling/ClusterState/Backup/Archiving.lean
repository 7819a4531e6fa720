import ClusterState.Backup.Contract

/-! # A published archive is recognised

Until the rename all that the script adds is hidden. The rename is guarded by
everything the exporter insists on, so it does not matter where the script is cut.
-/

namespace ClusterState.Backup.Upgrade

open Concurrency

variable {Content : Type}

inductive Event where
  | observed (observation : String)
  | dumped
  deriving DecidableEq

structure Site (Content : Type) where
  archives : Place Content
  /-- What was asked of the database, latest first. -/
  log : List Event

namespace Site

def put (s : Site Content) (name : String) (e : Entry Content) : Site Content :=
  { s with archives := s.archives.insert name e }

def putFile (s : Site Content) (stage name : String) (f : File Content) : Site Content :=
  match s.archives.lookup stage with
  | some (.directory d) =>
    s.put stage (.directory { d with files := d.files.insert name (.file f) })
  | _ => s

def file (s : Site Content) (stage name : String) : Option (File Content) :=
  match s.archives.lookup stage with
  | some (.directory d) =>
    match d.files.lookup name with
    | some (.file f) => some f
    | _ => none
  | _ => none

def partialDump : String := "database.dump.partial"

def renamed (files : AList fun _ : String => Leaf Content) : AList fun _ : String => Leaf Content :=
  match files.lookup partialDump with
  | some leaf => (files.erase partialDump).insert "database.dump" leaf
  | none => files

def renameDump (s : Site Content) (stage : String) : Site Content :=
  match s.archives.lookup stage with
  | some (.directory d) => s.put stage (.directory { d with files := renamed d.files })
  | _ => s

/-- A file may be written in part by a command that fails. -/
def Writes (s : Site Content) (stage name : String) (x : Option Unit) (s' : Site Content)
    (complete : File Content → Prop) : Prop :=
  (x = none ∧ (s' = s ∨ ∃ f, s' = s.putFile stage name f)) ∨
    (x = some () ∧ ∃ f, s' = s.putFile stage name f ∧ complete f)

def isRandom (random : String) : Prop :=
  random.toList.length = 12 ∧ random.toList.all Char.isAlphanum = true

end Site

variable (py : Python Content)

/-- What a command does. A signal is a command that fails. -/
def Performs (s : Site Content) : (c : Command) → c.Value Content → Site Content → Prop
  | .query, x, s' => (x = none ∧ s' = s) ∨
      ∃ o, x = some o ∧ s' = { s with log := .observed (trimNewlines o) :: s.log }
  | .archives, x, s' => s' = s ∧ x = s.archives
  | .mkdirArchives, _, s' => s' = s ∨
      s.archives = .absent ∧ s' = { s with archives := .directory State.newDirectory ∅ }
  | .mktemp, x, s' => (x = none ∧ s' = s) ∨ ∃ random, Site.isRandom random ∧
      s.archives.lookup (".admission." ++ random) = none ∧
      s' = s.put (".admission." ++ random) (.directory ⟨State.newDirectory, ∅⟩) ∧
      (x = none ∨ x = some random)
  | .pgDump stage, x, s' =>
      ∃ t, s.Writes stage Site.partialDump x t (fun _ => True) ∧ s' = { t with log := .dumped :: t.log }
  | .entry path, x, s' => s' = s ∧ x = s.archives.lookup path
  | .mvDump stage, x, s' => (x = none ∧ s' = s) ∨ s' = s.renameDump stage
  | .sha256sum stage, x, s' => s.Writes stage "database.sha256" x s' fun f =>
      ∃ dump, s.file stage "database.dump" = some dump ∧
        f.content = py.ofText (checksumText (py.sha256 dump.content) "database.dump")
  | .pgRestoreList stage, x, s' => s.Writes stage "archive.list" x s' fun _ => True
  | .date, x, s' => s' = s ∧ x.Valid
  | .writeAdmission stage text, x, s' =>
      s.Writes stage "admission.txt" x s' fun f => f.content = py.ofText text
  | .publish stage published, _, s' => s' = s ∨ ∃ e, s.archives.lookup stage = some e ∧
      s.archives.lookup published = none ∧
      s' = { s with archives := (s.archives.erase stage).insert published e }
  | .removeStage stage, _, s' => s' = s ∨ s' = { s with archives := s.archives.erase stage } ∨
      ∃ d d', s.archives.lookup stage = some (.directory d) ∧ s' = s.put stage (.directory d')
  | _, _, s' => s' = s

/-! ## The discipline -/

def Hidden (name : String) : Prop := ∃ rest, name = "." ++ rest

def Steady (log : List Event) : Prop :=
  ∃ o, log = [.observed o, .observed o, .dumped, .observed o, .observed o]

section Discipline

variable (start : Place Content)

def Clean (s : Site Content) : Prop :=
  ∀ name, ¬ Hidden name → s.archives.lookup name = start.lookup name

def Published (s : Site Content) : Prop :=
  ∃ name d observed, isAdmission name = true ∧ start.lookup name = none ∧
    s.archives.lookup name = some (.directory d) ∧
    completedArchive py name (.directory d) = .ok (some (observed, name)) ∧ Steady s.log ∧
    ∀ other, ¬ Hidden other → other ≠ name → s.archives.lookup other = start.lookup other

structure Inv (s : Site Content) : Prop where
  kept : ∀ name e, start.lookup name = some e → s.archives.lookup name = some e
  privatePlace : PrivatePlace start → PrivatePlace s.archives
  added : Clean start s ∨ Published py start s

def OwnStage (stage : String) : Prop := Hidden stage ∧ start.lookup stage = none

def Ready (stage published : String) (s : Site Content) : Prop :=
  isAdmission published = true ∧ Steady s.log ∧ ∀ e, s.archives.lookup stage = some e →
    ∃ d observed, e = .directory d ∧
      completedArchive py published (.directory d) = .ok (some (observed, published))

def Guard : Command → Site Content → Prop
  | .query, s => Clean start s
  | .pgDump stage, s => OwnStage start stage ∧ Clean start s
  | .mvDump stage, _ => OwnStage start stage
  | .sha256sum stage, _ => OwnStage start stage
  | .pgRestoreList stage, _ => OwnStage start stage
  | .writeAdmission stage _, _ => OwnStage start stage
  | .removeStage stage, _ => OwnStage start stage
  | .publish stage published, s =>
      OwnStage start stage ∧ Clean start s ∧ Ready py stage published s
  | _, _ => True

variable {py} {start : Place Content} {s s' : Site Content} {stage published : String}

structure Touches (stage : String) (p p' : Place Content) : Prop where
  absent : p = .absent → p' = .absent
  attributes : p'.attributes? = p.attributes?
  lookup : ∀ name, name ≠ stage → p'.lookup name = p.lookup name

theorem Touches.refl {p : Place Content} : Touches stage p p := ⟨id, rfl, fun _ _ => rfl⟩

theorem touches_insert {p : Place Content} {e : Entry Content} :
    Touches stage p (p.insert stage e) where
  absent h := by rw [h]; rfl
  attributes := Place.attributes_insert
  lookup _ h := Place.lookup_insert_ne h

theorem touches_erase {p : Place Content} : Touches stage p (p.erase stage) where
  absent h := by rw [h]; rfl
  attributes := Place.attributes_erase
  lookup _ h := Place.lookup_erase_ne h

theorem touches_putFile {name : String} {f : File Content} :
    Touches stage s.archives (s.putFile stage name f).archives := by
  unfold Site.putFile
  split
  · exact touches_insert
  · exact .refl

theorem touches_renameDump : Touches stage s.archives (s.renameDump stage).archives := by
  unfold Site.renameDump
  split
  · exact touches_insert
  · exact .refl

theorem touches_writes {name : String} {x : Option Unit} {complete : File Content → Prop}
    (h : s.Writes stage name x s' complete) : Touches stage s.archives s'.archives ∧ s'.log = s.log := by
  have hput : ∀ f, (s.putFile stage name f).log = s.log := by
    intro f
    unfold Site.putFile
    split <;> rfl
  rcases h with ⟨-, rfl | ⟨f, rfl⟩⟩ | ⟨-, f, rfl, -⟩
  · exact ⟨.refl, rfl⟩
  · exact ⟨touches_putFile, hput f⟩
  · exact ⟨touches_putFile, hput f⟩

theorem Touches.privatePlace {p p' : Place Content} (ht : Touches stage p p') (h : PrivatePlace p) :
    PrivatePlace p' := by
  rcases h with h | h
  · exact .inl (ht.absent h)
  · exact .inr (ht.attributes.trans h)

theorem Clean.touches (h : Clean start s) (hhidden : Hidden stage)
    (ht : Touches stage s.archives s'.archives) : Clean start s' := by
  intro name hname
  have hne : name ≠ stage := fun heq => hname (heq ▸ hhidden)
  rw [ht.lookup name hne, h name hname]

theorem not_hidden_of_isAdmission {name : String} (h : isAdmission name = true) : ¬ Hidden name := by
  rintro ⟨rest, rfl⟩
  rw [isAdmission_hidden] at h
  cases h

theorem Inv.touches (h : Inv py start s) (hown : OwnStage start stage)
    (ht : Touches stage s.archives s'.archives) (hlog : s'.log = s.log ∨ Clean start s) :
    Inv py start s' where
  kept name e he := by
    have hne : name ≠ stage := by
      rintro rfl
      rw [hown.2] at he
      cases he
    rw [ht.lookup name hne, h.kept name e he]
  privatePlace hstart := ht.privatePlace (h.privatePlace hstart)
  added := by
    rcases hlog with hlog | hclean
    · refine h.added.imp (fun hclean => hclean.touches hown.1 ht) ?_
      rintro ⟨name, d, observed, hname, hstart, hlookup, hcompleted, hsteady, hothers⟩
      have hvisible : ∀ other, ¬ Hidden other → other ≠ stage :=
        fun other hother heq => hother (heq ▸ hown.1)
      have hnotHidden := not_hidden_of_isAdmission hname
      refine ⟨name, d, observed, hname, hstart, ?_, hcompleted, hlog ▸ hsteady, ?_⟩
      · rw [ht.lookup name (hvisible name hnotHidden), hlookup]
      · intro other hother hne
        rw [ht.lookup other (hvisible other hother), hothers other hother hne]
    · exact .inl (hclean.touches hown.1 ht)

theorem Inv.logged (h : Inv py start s) (hclean : Clean start s) {log : List Event} :
    Inv py start { s with log := log } :=
  ⟨h.kept, h.privatePlace, .inl hclean⟩

theorem Inv.publish (h : Inv py start s) (hown : OwnStage start stage) (hclean : Clean start s)
    (hready : Ready py stage published s) {e : Entry Content}
    (hstage : s.archives.lookup stage = some e) (hnone : s.archives.lookup published = none) :
    Inv py start { s with archives := (s.archives.erase stage).insert published e } := by
  obtain ⟨hname, hsteady, hentry⟩ := hready
  obtain ⟨d, observed, rfl, hcompleted⟩ := hentry e hstage
  have hvisible := not_hidden_of_isAdmission hname
  have hfresh : start.lookup published = none := by rw [← hclean published hvisible, hnone]
  have hsome : (s.archives.erase stage).attributes?.isSome := by
    rw [Place.attributes_erase]
    exact Place.attributes_of_lookup hstage
  refine ⟨?_, ?_, .inr ⟨published, d, observed, hname, hfresh, Place.lookup_insert hsome, hcompleted,
    hsteady, ?_⟩⟩
  · intro name e he
    have hnePublished : name ≠ published := by
      rintro rfl
      rw [hfresh] at he
      cases he
    have hneStage : name ≠ stage := by
      rintro rfl
      rw [hown.2] at he
      cases he
    rw [Place.lookup_insert_ne hnePublished, Place.lookup_erase_ne hneStage, h.kept name e he]
  · intro hstart
    exact touches_insert.privatePlace (touches_erase.privatePlace (h.privatePlace hstart))
  · intro other hother hne
    have hneStage : other ≠ stage := fun heq => hother (heq ▸ hown.1)
    rw [Place.lookup_insert_ne hne, Place.lookup_erase_ne hneStage, hclean other hother]

theorem inv_performs {c : Command} {x : c.Value Content} (h : Inv py start s)
    (hguard : Guard py start c s) (hperforms : Performs py s c x s') : Inv py start s' := by
  cases c with
  | query =>
    rcases hperforms with ⟨-, rfl⟩ | ⟨o, -, rfl⟩
    · exact h
    · exact h.logged hguard
  | archives => exact hperforms.1 ▸ h
  | mkdirArchives =>
    rcases hperforms with rfl | ⟨habsent, rfl⟩
    · exact h
    · have hlookup : ∀ name, (Place.directory State.newDirectory ∅).lookup name =
          s.archives.lookup name := by
        intro name
        rw [habsent]
        rfl
      refine ⟨fun name e he => ?_, fun _ => .inr rfl, ?_⟩
      · rw [hlookup, h.kept name e he]
      · refine h.added.imp (fun hclean name hname => ?_) ?_
        · rw [hlookup, hclean name hname]
        · rintro ⟨name, d, observed, -, -, hsome, -⟩
          rw [habsent] at hsome
          cases hsome
  | mktemp =>
    rcases hperforms with ⟨-, rfl⟩ | ⟨random, -, hnone, rfl, -⟩
    · exact h
    · have hhidden : Hidden (".admission." ++ random) := by
        refine ⟨"admission." ++ random, ?_⟩
        rw [← String.append_assoc]
        rfl
      have hstart : start.lookup (".admission." ++ random) = none := by
        cases hlookup : start.lookup (".admission." ++ random) with
        | none => rfl
        | some e =>
          rw [h.kept _ e hlookup] at hnone
          cases hnone
      exact h.touches ⟨hhidden, hstart⟩ touches_insert (.inl rfl)
  | pgDump stage =>
    obtain ⟨t, hwrites, rfl⟩ := hperforms
    obtain ⟨ht, -⟩ := touches_writes hwrites
    exact h.touches hguard.1 ht (.inr hguard.2)
  | entry path => exact hperforms.1 ▸ h
  | mvDump stage =>
    rcases hperforms with ⟨-, rfl⟩ | rfl
    · exact h
    · refine h.touches hguard touches_renameDump (.inl ?_)
      unfold Site.renameDump
      split <;> rfl
  | sha256sum stage =>
    obtain ⟨ht, hlog⟩ := touches_writes hperforms
    exact h.touches hguard ht (.inl hlog)
  | pgRestoreList stage =>
    obtain ⟨ht, hlog⟩ := touches_writes hperforms
    exact h.touches hguard ht (.inl hlog)
  | date => exact hperforms.1 ▸ h
  | writeAdmission stage text =>
    obtain ⟨ht, hlog⟩ := touches_writes hperforms
    exact h.touches hguard ht (.inl hlog)
  | publish stage published =>
    obtain ⟨hown, hclean, hready⟩ := hguard
    rcases hperforms with rfl | ⟨e, hstage, hnone, rfl⟩
    · exact h
    · exact h.publish hown hclean hready hstage hnone
  | removeStage stage =>
    rcases hperforms with rfl | rfl | ⟨d, d', -, rfl⟩
    · exact h
    · exact h.touches hguard touches_erase (.inl rfl)
    · exact h.touches hguard touches_insert (.inl rfl)
  | chartInfo | id | mktempPrivate | password | writePgpass | clientVersion | recovery
  | sha256sumCheck | sync | removePrivate => exact hperforms ▸ h

variable (py start)

/-- The script has the recovery directory to itself, and it may be cut anywhere. -/
def discipline : Discipline PUnit.{1} Command (Command.Value Content) (Site Content) :=
  .alone (fun c s x s' => Performs py s c x s') (Inv py start) (Guard py start)
    fun _ _ _ _ => inv_performs

end Discipline

end ClusterState.Backup.Upgrade
