import ClusterState.Backup.Exporter
import ClusterState.Data.Checks

/-! # What the calls of the exporter do

A call that fails may have had its effect, or a part of it. While nothing is
being taken out of a completed backup, all of them are recognised.
-/

namespace ClusterState.Backup

open Concurrency

variable {Content : Type}

structure State (Content : Type) where
  places : Location → Place Content
  /-- The directory from which `prune_owned` has taken a file, and which it has not
  removed since. -/
  emptying : Option (Location × String)
  /-- The exports that the current run has published. -/
  published : List String

namespace State

def entry (s : State Content) (l : Location) (name : String) : Option (Entry Content) :=
  (s.places l).lookup name

def setPlace (s : State Content) (l : Location) (p : Place Content) : State Content :=
  { s with places := Function.update s.places l p }

def put (s : State Content) (l : Location) (name : String) (e : Entry Content) : State Content :=
  s.setPlace l ((s.places l).insert name e)

def drop (s : State Content) (l : Location) (name : String) : State Content :=
  s.setPlace l ((s.places l).erase name)

def putFile (s : State Content) (l : Location) (path name : String) (f : File Content) :
    State Content :=
  match s.entry l path with
  | some (.directory d) => s.put l path (.directory { d with files := d.files.insert name (.file f) })
  | _ => s

def newDirectory : Attributes := ⟨1000, 1000, 0o700⟩

/-- The name that `mkdtemp` gives a stage. -/
def stageName (target random : String) : String := "." ++ (target ++ "." ++ random ++ ".partial")

def effect (s : State Content) : Request Content → Option (State Content)
  | .mkdirExports =>
    match s.places .exports with
    | .absent => some (s.setPlace .exports (.directory newDirectory ∅))
    | _ => none
  | .rename stage target =>
    match s.entry .exports stage, s.entry .exports target with
    | some e, none => some { (s.drop .exports stage).put .exports target e with
        published := target :: s.published }
    | _, _ => none
  | .unlink l path name =>
    match s.entry l path with
    | some (.directory d) =>
      if name ∈ d.files.keys then
        some { s.put l path (.directory { d with files := d.files.erase name }) with
          emptying := some (l, path) }
      else none
    | _ => none
  | .rmdir l path =>
    match s.entry l path with
    | some (.directory d) =>
      if d.files.keys = [] then some { s.drop l path with emptying := none } else none
    | _ => none
  | _ => some s

def Performs (s : State Content) : (r : Request Content) → r.Value → State Content → Prop
  | .look l, x, s' => s' = s ∧ ∀ p, x = some p → p = s.places l
  | .stat l path, x, s' => s' = s ∧ ∀ e, x = some e → e = s.entry l path
  | .mkdtemp target, x, s' => (s' = s ∧ x = none) ∨ ∃ random,
      s.entry .exports (stageName target random) = none ∧
      s' = s.put .exports (stageName target random) (.directory ⟨newDirectory, ∅⟩) ∧
      (x = none ∨ x = some (stageName target random))
  | .copyfile name stage, x, s' =>
      (s' = s ∧ x = none) ∨ ∃ f, s' = s.putFile .exports stage name f
  | .write stage name content, x, s' => (s' = s ∧ x = none) ∨
      ∃ f, s' = s.putFile .exports stage name f ∧ (x = some () → f.content = content)
  | .rmtree stage, x, s' => (x = none ∧ (s' = s ∨ ∃ e, s' = s.put .exports stage e)) ∨
      s' = s.drop .exports stage
  | .mkdirExports, x, s' => (s' = s ∧ x = none) ∨ s.effect .mkdirExports = some s'
  | .rename stage target, x, s' => (s' = s ∧ x = none) ∨ s.effect (.rename stage target) = some s'
  | .unlink l path name, x, s' => (s' = s ∧ x = none) ∨ s.effect (.unlink l path name) = some s'
  | .rmdir l path, x, s' => (s' = s ∧ x = none) ∨ s.effect (.rmdir l path) = some s'
  | _, _, s' => s' = s

section Lookup

variable {s : State Content} {l l' : Location} {name name' : String} {e : Entry Content}

theorem places_setPlace_ne {p : Place Content} (h : l' ≠ l) :
    (s.setPlace l p).places l' = s.places l' := Function.update_of_ne h _ _

@[simp] theorem places_setPlace {p : Place Content} : (s.setPlace l p).places l = p :=
  Function.update_self _ _ _

theorem entry_put (h : (s.places l).attributes?.isSome) : (s.put l name e).entry l name = some e := by
  rw [entry, put, places_setPlace, Place.lookup_insert h]

theorem entry_put_ne (h : (l', name') ≠ (l, name)) :
    (s.put l name e).entry l' name' = s.entry l' name' := by
  by_cases hl : l' = l
  · subst hl
    have hname : name' ≠ name := fun heq => h (by rw [heq])
    rw [entry, put, places_setPlace, Place.lookup_insert_ne hname, entry]
  · rw [entry, put, places_setPlace_ne hl, entry]

@[simp] theorem entry_drop : (s.drop l name).entry l name = none := by
  rw [entry, drop, places_setPlace, Place.lookup_erase]

theorem entry_drop_ne (h : (l', name') ≠ (l, name)) :
    (s.drop l name).entry l' name' = s.entry l' name' := by
  by_cases hl : l' = l
  · subst hl
    have hname : name' ≠ name := fun heq => h (by rw [heq])
    rw [entry, drop, places_setPlace, Place.lookup_erase_ne hname, entry]
  · rw [entry, drop, places_setPlace_ne hl, entry]

theorem attributes_put : ((s.put l name e).places l').attributes? = (s.places l').attributes? := by
  by_cases hl : l' = l
  · subst hl
    rw [put, places_setPlace, Place.attributes_insert]
  · rw [put, places_setPlace_ne hl]

theorem attributes_drop : ((s.drop l name).places l').attributes? = (s.places l').attributes? := by
  by_cases hl : l' = l
  · subst hl
    rw [drop, places_setPlace, Place.attributes_erase]
  · rw [drop, places_setPlace_ne hl]

@[simp] theorem emptying_put : (s.put l name e).emptying = s.emptying := rfl

@[simp] theorem emptying_drop : (s.drop l name).emptying = s.emptying := rfl

end Lookup

end State

/-! ## Order -/

section Order

variable (py : Python Content)

def Owned (l : Location) (name : String) : Prop :=
  match l with
  | .exports => (matchStem py name).isSome
  | .dbArchives => isAdmission name = true

def expectedFiles (l : Location) (name : String) : List String :=
  match l with
  | .exports => exportFiles name
  | .dbArchives => archiveFiles

def Passes (l : Location) (name : String) (e : Entry Content) : Prop :=
  match l with
  | .exports => ∃ found, completedExport py name e = .ok found
  | .dbArchives => ∃ found, completedArchive py name e = .ok found

def PrivatePlace (p : Place Content) : Prop :=
  p = .absent ∨ p.attributes? = some State.newDirectory

/-- All completed backups are whole, but for the one that is being removed. -/
structure Orderly (s : State Content) : Prop where
  privatePlace : ∀ l, PrivatePlace (s.places l)
  passes : ∀ l name e, s.entry l name = some e → s.emptying ≠ some (l, name) → Passes py l name e
  emptying : ∀ l name, s.emptying = some (l, name) →
    ∃ e, s.entry l name = some e ∧ ¬ Passes py l name e

variable {py} {s : State Content} {l : Location} {name : String} {e : Entry Content}

theorem of_require {ok : Prop} [Decidable ok] {reason : String} {u : Unit}
    (h : require ok reason = .ok u) : ok := by
  unfold require at h
  split at h
  · assumption
  · cases h

theorem require_of {ok : Prop} [Decidable ok] {reason : String} (h : ok) :
    require ok reason = .ok () := if_pos h

theorem names_of_exactFiles {d : Directory Content} {expected : List String} {reason : String}
    {u : Unit} (h : exactFiles d expected reason = .ok u) :
    d.files.keys ⊆ expected ∧ expected ⊆ d.files.keys := by
  obtain ⟨_, -, h⟩ := Data.bind_eq_ok.mp h
  obtain ⟨_, hnames, -⟩ := Data.bind_eq_ok.mp h
  exact of_require hnames

theorem names_of_passes {d : Directory Content} (howned : Owned py l name)
    (h : Passes py l name (.directory d)) :
    d.files.keys ⊆ expectedFiles l name ∧ expectedFiles l name ⊆ d.files.keys := by
  cases l with
  | exports =>
    obtain ⟨found, h⟩ := h
    obtain ⟨p, hp⟩ := Option.isSome_iff_exists.mp howned
    simp only [completedExport, matchName_append, hp] at h
    obtain ⟨_, hfiles, -⟩ := Data.bind_eq_ok.mp h
    exact names_of_exactFiles hfiles
  | dbArchives =>
    obtain ⟨found, h⟩ := h
    have hname : isAdmission name = true := howned
    rw [completedArchive, if_pos hname] at h
    obtain ⟨_, hfiles, -⟩ := Data.bind_eq_ok.mp h
    exact names_of_exactFiles hfiles

theorem passes_hidden (hidden : String) : Passes py .exports ("." ++ hidden) e := by
  cases e with
  | other => exact ⟨none, rfl⟩
  | directory d => exact ⟨none, by simp only [completedExport, matchName_append, matchStem_hidden]⟩

theorem PrivatePlace.put {l' : Location} (h : PrivatePlace (s.places l')) :
    PrivatePlace ((s.put l name e).places l') := by
  rcases h with habsent | hattributes
  · left
    by_cases hl : l' = l
    · subst hl
      rw [State.put, State.places_setPlace, habsent]
      rfl
    · rw [State.put, State.places_setPlace_ne hl, habsent]
  · right
    rw [State.attributes_put, hattributes]

theorem PrivatePlace.drop {l' : Location} (h : PrivatePlace (s.places l')) :
    PrivatePlace ((s.drop l name).places l') := by
  rcases h with habsent | hattributes
  · left
    by_cases hl : l' = l
    · subst hl
      rw [State.drop, State.places_setPlace, habsent]
      rfl
    · rw [State.drop, State.places_setPlace_ne hl, habsent]
  · right
    rw [State.attributes_drop, hattributes]

theorem Orderly.put (h : Orderly py s) (hpasses : Passes py l name e)
    (hemptying : s.emptying ≠ some (l, name)) : Orderly py (s.put l name e) where
  privatePlace l' := (h.privatePlace l').put
  passes l' name' e' he' hnot := by
    by_cases heq : (l', name') = (l, name)
    · cases heq
      by_cases hplace : (s.places l).attributes?.isSome
      · rw [State.entry_put hplace] at he'
        cases he'
        exact hpasses
      · have hsome := Place.attributes_of_lookup he'
        rw [State.attributes_put] at hsome
        exact absurd hsome hplace
    · rw [State.entry_put_ne heq] at he'
      exact h.passes l' name' e' he' hnot
  emptying l' name' hin := by
    have heq : (l', name') ≠ (l, name) := fun heq => hemptying (heq ▸ hin)
    rw [State.entry_put_ne heq]
    exact h.emptying l' name' hin

theorem Orderly.drop (h : Orderly py s) (hemptying : s.emptying ≠ some (l, name)) :
    Orderly py (s.drop l name) where
  privatePlace l' := (h.privatePlace l').drop
  passes l' name' e' he' hnot := by
    by_cases heq : (l', name') = (l, name)
    · cases heq
      rw [State.entry_drop] at he'
      cases he'
    · rw [State.entry_drop_ne heq] at he'
      exact h.passes l' name' e' he' hnot
  emptying l' name' hin := by
    have heq : (l', name') ≠ (l, name) := fun heq => hemptying (heq ▸ hin)
    rw [State.entry_drop_ne heq]
    exact h.emptying l' name' hin

end Order

end ClusterState.Backup
