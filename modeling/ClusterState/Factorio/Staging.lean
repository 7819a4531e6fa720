import ClusterState.Factorio.Orderly
import ClusterState.Factorio.Restarts

/-! # The backup of a run

In a run that is told the date in one second, the name of its backup is known from the
beginning. The backup is made aside, under a name that begins with a dot, and it gets
its own name when it is complete.
-/

namespace ClusterState.Factorio

open Concurrency State

/-- The date, where it is asked for, is that of one second. -/
def DatedBy (stamp : Text) : (r : Command) → r.Value → Prop
  | .date, x => x = none ∨ x = some stamp
  | _, _ => True

def systemAt (cfg : Sources) (stamp : Text) : System PUnit.{1} Command Command.Value State where
  performs _ r s x s' := performs cfg r s x s' ∧ DatedBy stamp r x
  env _ _ := False

def RunsAt (cfg : Sources) (settings : Settings) (stamp : Text) (s : State) (c : Run) : Prop :=
  (systemAt cfg stamp).Reaches ⟨fun _ => script settings, s⟩ c

namespace State

/-- The name of the backup of a run that begins in the state. -/
def backup (settings : Settings) (stamp : Text) (s : State) : Name :=
  backupName settings s.lastStarted stamp

/-- Where the backup is moved to. -/
def backupTarget (settings : Settings) (stamp : Text) (s : State) : Name :=
  if exists? (s.entry .preUpgrade (s.backup settings stamp)) then
    s.backup settings stamp ++ '-' :: settings.pid
  else s.backup settings stamp

/-- The files are a copy of every regular save, and tell what they are a copy of. -/
structure Complete (settings : Settings) (stamp : Text) (s : State) (files : Files) : Prop where
  metadata : files.lookup "backup-metadata.txt".toList =
    some (.file (backupMetadata settings s.lastStarted stamp))
  saves : ∀ save content, isSave save = true → s.entry .saves save = some (.file content) →
    files.lookup save = some (.file content)

/-- `t` has a complete backup of `s`. -/
def HasBackup (settings : Settings) (stamp : Text) (s : State) (name : Name) (t : State) : Prop :=
  ∃ files, t.entry .preUpgrade name = some (.directory files) ∧ s.Complete settings stamp files

end State

/-- What is known of the backup when a command is issued, in addition to its guard. -/
def guardAt (settings : Settings) (stamp : Text) (s₀ : State) : Command → State → Prop
  | .mkdirStaging staging, _ => visible staging = false
  | .cpSave _ staging, _ => visible staging = false
  | .writeMetadata staging _, _ => visible staging = false
  | .mvBackup staging target, s => visible staging = false ∧ target = s₀.backupTarget settings stamp ∧
      s.entry .preUpgrade target = s₀.entry .preUpgrade target ∧
      s₀.HasBackup settings stamp staging s
  | .mvVersionMarker _, s => s₀.Upgrades settings.version →
      s₀.HasBackup settings stamp (s₀.backupTarget settings stamp) s
  | _, _ => True

def disciplineAt (cfg : Sources) (settings : Settings) (stamp : Text) (s₀ : State) :
    Discipline PUnit Command Command.Value State :=
  .alone (fun r s x s' => performs cfg r s x s' ∧ DatedBy stamp r x)
    (fun s => s₀.Admissible → s.Admissible)
    (fun r s => guard settings s₀ r s ∧ guardAt settings stamp s₀ r s)
    fun _ _ _ _ hinv hguard hp h => (hinv h).performs hguard.1 hp.1

section EnsuresAt

variable (cfg : Sources) (settings : Settings) (stamp : Text) (s₀ : State) {α β : Type}

def EnsuresAt (Q : α → State → Prop) (m : Script α) (t : State) : Prop :=
  (disciplineAt cfg settings stamp s₀).Meets ⟨⟩ Q (fun _ _ => True) m t

variable {cfg settings stamp s₀} {Q : α → State → Prop} {Q' : β → State → Prop} {m : Script α}
  {f : α → Script β} {t u v : State} {allowed : Command → Prop} {P : State → Prop} {r : Command}

theorem EnsuresAt.bind (hm : EnsuresAt cfg settings stamp s₀ Q m t)
    (hf : ∀ a u, Q a u → EnsuresAt cfg settings stamp s₀ Q' (f a) u) :
    EnsuresAt cfg settings stamp s₀ Q' (m >>= f) t := Discipline.Meets.bind hm hf

theorem EnsuresAt.mono {R : α → State → Prop} (hm : EnsuresAt cfg settings stamp s₀ Q m t)
    (h : ∀ a u, Q a u → R a u) : EnsuresAt cfg settings stamp s₀ R m t :=
  Discipline.Meets.mono hm h fun _ _ h => h

theorem ensuresAt_act {Q : r.Value → State → Prop} (hguard : guard settings s₀ r t)
    (hguardAt : guardAt settings stamp s₀ r t)
    (hnext : ∀ x u, performs cfg r t x u → DatedBy stamp r x → Q x u) :
    EnsuresAt cfg settings stamp s₀ Q (act r) t :=
  Discipline.meets_ask ⟨hguard, hguardAt⟩ fun x u _ hp => hnext x u hp.1 hp.2

theorem EnsuresAt.orExit_bind {m : Script (Option α)}
    (hm : EnsuresAt cfg settings stamp s₀ (fun x u => ∀ a, x = some a → Q a u) m t)
    (hf : ∀ a u, Q a u → EnsuresAt cfg settings stamp s₀ Q' (f a) u) :
    EnsuresAt cfg settings stamp s₀ Q' (m >>= fun x => orExit x >>= f) t := by
  refine hm.bind fun x u hx => ?_
  cases x with
  | none => trivial
  | some a => exact hf a u (hx a rfl)

theorem EnsuresAt.orExit_last {m : Script (Option α)}
    (hm : EnsuresAt cfg settings stamp s₀ (fun x u => ∀ a, x = some a → Q a u) m t) :
    EnsuresAt cfg settings stamp s₀ Q (m >>= orExit) t := by
  refine hm.bind fun x u hx => ?_
  cases x with
  | none => trivial
  | some a => exact hx a rfl

theorem some_of_tried {x : Option α} (h : Tried Q x u) : ∀ a, x = some a → Q a u := by
  rintro a rfl
  exact h

/-- Both what holds without the date and what holds with it. -/
theorem EnsuresAt.and {Q' : α → State → Prop} (h' : EnsuresAt cfg settings stamp s₀ Q' m t)
    (h : Ensures cfg settings s₀ Q m t) :
    EnsuresAt cfg settings stamp s₀ (fun a u => Q a u ∧ Q' a u) m t := by
  induction m generalizing t with
  | done a => exact ⟨h, h'⟩
  | raise e => trivial
  | halt => trivial
  | ask r next ih =>
    intro u hrely hinv
    obtain rfl := Discipline.eq_of_rely hrely
    obtain ⟨hguard, hnext⟩ := h' u .refl hinv
    refine ⟨hguard, fun x v hp => ih x (hnext x v hp) ?_⟩
    exact (h u .refl hinv).2 x v hp.1

/-- A part whose commands are allowed keeps what they keep, and needs nothing else of the backup. -/
theorem Ensures.dated (h : Ensures cfg settings s₀ Q m t) (hm : m.Orderly allowed) (hP : P t)
    (hguard : ∀ r u, allowed r → P u → guardAt settings stamp s₀ r u)
    (hstep : ∀ r u x v, allowed r → guard settings s₀ r u → performs cfg r u x v → P u → P v) :
    EnsuresAt cfg settings stamp s₀ Q m t := by
  induction m generalizing t with
  | done a => exact h
  | raise e => trivial
  | halt => trivial
  | ask r next ih =>
    intro u hrely hinv
    obtain rfl := Discipline.eq_of_rely hrely
    obtain ⟨hg, hnext⟩ := h u .refl hinv
    refine ⟨⟨hg, hguard r u hm.1 hP⟩, fun x v hp => ?_⟩
    exact ih x (hnext x v hp.1) (hm.2 x) (hstep r u x v hm.1 hg hp.1 hP)

theorem Command.Early.guardAt (h : r.Early) : Factorio.guardAt settings stamp s₀ r u := by
  cases r with
  | mkdirStaging _ | cpSave _ _ | writeMetadata _ _ | mvBackup _ _ | mvVersionMarker _ => exact h.elim
  | _ => trivial

theorem Ensures.early (h : Ensures cfg settings s₀ Q m t) (hm : m.Orderly Command.Early) :
    EnsuresAt cfg settings stamp s₀ Q m t :=
  h.dated (P := fun _ => True) hm trivial (fun _ _ hr _ => hr.guardAt) fun _ _ _ _ _ _ _ _ => trivial

theorem Command.Plain.not_touches (h : r.Plain) (hguard : guard settings s₀ r u) (name : Name) :
    ¬r.Touches .preUpgrade name := by
  cases r with
  | rm p name' =>
    rintro ⟨rfl, -⟩
    exact hguard.elim
  | mkdirStaging _ | cpSave _ _ | writeMetadata _ _ | mvBackup _ _ => exact h.elim
  | _ => simp [Command.Touches]

theorem State.HasBackup.of_same {name : Name} (h : t.HasBackup settings stamp name u)
    (hsame : Same .preUpgrade name u v) : t.HasBackup settings stamp name v := by
  obtain ⟨files, hentry, hcomplete⟩ := h
  exact ⟨files, hsame.entry.trans hentry, hcomplete⟩

/-- After the backup has been made, all that is needed of it is that it is there. -/
theorem Ensures.plain (h : Ensures cfg settings s₀ Q m t) (hm : m.Orderly Command.Plain)
    (hbackup : s₀.Upgrades settings.version →
      s₀.HasBackup settings stamp (s₀.backupTarget settings stamp) t) :
    EnsuresAt cfg settings stamp s₀ Q m t := by
  refine h.dated (P := fun u => s₀.Upgrades settings.version →
    s₀.HasBackup settings stamp (s₀.backupTarget settings stamp) u) hm hbackup
    (fun r u hr hu => ?_) fun r u x v hr hguard hp hu hupgrades => ?_
  · cases r with
    | mvVersionMarker temp => exact hu
    | mkdirStaging _ | cpSave _ _ | writeMetadata _ _ | mvBackup _ _ => exact hr.elim
    | _ => trivial
  · exact (hu hupgrades).of_same (same_of_performs hp (hr.not_touches hguard _))

end EnsuresAt

end ClusterState.Factorio
