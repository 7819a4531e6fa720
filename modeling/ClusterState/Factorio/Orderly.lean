import ClusterState.Concurrency.Endings
import ClusterState.Factorio.Startup

/-! # Which part issues which commands

All but the backup leaves the backups alone, and the version marker is the last thing
to be written. Every part comes to an end.
-/

namespace ClusterState.Factorio

open Concurrency

/-- The backups are left alone. -/
def Command.Plain : Command → Prop
  | .date => False
  | .mkdirStaging _ => False
  | .cpSave _ _ => False
  | .writeMetadata _ _ => False
  | .mvBackup _ _ => False
  | _ => True

/-- The version marker is left alone, too. -/
def Command.Early : Command → Prop
  | .mvVersionMarker _ => False
  | r => r.Plain

theorem Command.Early.plain {r : Command} (h : r.Early) : r.Plain := by
  cases r <;> first | exact h | trivial

section Orderly

variable {settings : Settings} {sources : List (Text × Text)} {names : List Name} {root temp : Name}
  {m : Marker} {text lastStarted : Text} {α β : Type}

theorem orderly_act {allowed : Command → Prop} {r : Command} (h : allowed r) :
    (act r).Orderly allowed := ⟨h, fun _ => trivial⟩

theorem orderly_orExit {allowed : Command → Prop} (x : Option α) : (orExit x).Orderly allowed := by
  cases x <;> trivial

theorem orderly_orExit_bind {allowed : Command → Prop} {m : Script (Option α)} {f : α → Script β}
    (hm : m.Orderly allowed) (hf : ∀ a, (f a).Orderly allowed) :
    (m >>= fun x => orExit x >>= f).Orderly allowed :=
  hm.bind fun x => (orderly_orExit x).bind hf

theorem orderly_tried {allowed : Command → Prop} {m : Script (Option α)} (hm : m.Orderly allowed) :
    (m >>= orExit).Orderly allowed := hm.bind orderly_orExit

theorem orderly_resolveSources {directory : Text} {names : List Text} :
    (resolveSources settings directory names).Orderly Command.Early := by
  induction names with
  | nil => trivial
  | cons name rest ih =>
    refine (orderly_act trivial).bind fun x => ?_
    split
    · trivial
    · split
      · exact ih.bind fun _ => trivial
      · trivial

theorem orderly_checkSources : (checkSources settings).Orderly Command.Early := by
  refine (orderly_act trivial).bind fun x => ?_
  split
  · trivial
  · exact orderly_resolveSources

theorem orderly_copyConfigs {names : List Text} : (copyConfigs sources names).Orderly Command.Early := by
  induction names with
  | nil => trivial
  | cons name rest ih =>
    exact orderly_orExit_bind (orderly_act trivial) fun _ =>
      orderly_orExit_bind (orderly_act trivial) fun _ => ih

theorem orderly_removeTempSaves : (removeTempSaves names).Orderly Command.Early := by
  induction names with
  | nil => trivial
  | cons name rest ih =>
    refine (orderly_act trivial).bind fun x => ?_
    split
    · exact orderly_orExit_bind (orderly_act trivial) fun _ => ih
    · exact ih

theorem orderly_removeCreationRoots : (removeCreationRoots settings names).Orderly Command.Early := by
  induction names with
  | nil => trivial
  | cons name rest ih =>
    refine (orderly_act trivial).bind fun x => ?_
    split
    · exact orderly_orExit_bind (orderly_act trivial) fun _ => ih
    · trivial

theorem orderly_removeMarkerTemps : (removeMarkerTemps settings m names).Orderly Command.Early := by
  induction names with
  | nil => trivial
  | cons name rest ih =>
    refine (orderly_act trivial).bind fun x => ?_
    split
    · exact orderly_orExit_bind (orderly_act trivial) fun _ => ih
    · trivial

theorem orderly_removeStale : (removeStale settings).Orderly Command.Early := by
  refine (orderly_act trivial).bind fun tempSaves => ?_
  refine (orderly_act trivial).bind fun creationRoots => ?_
  refine (orderly_act trivial).bind fun worldTemps => ?_
  refine (orderly_act trivial).bind fun versionTemps => ?_
  refine (orderly_act trivial).bind fun old => ?_
  refine orderly_removeTempSaves.bind fun _ => ?_
  refine orderly_removeCreationRoots.bind fun _ => ?_
  exact orderly_removeMarkerTemps.bind fun _ => orderly_removeMarkerTemps

theorem orderly_regularSaves : (regularSaves names).Orderly Command.Early := by
  induction names with
  | nil => trivial
  | cons name rest ih =>
    rw [regularSaves]
    split
    · exact ih
    · refine (orderly_act trivial).bind fun x => ?_
      split
      · exact ih.bind fun _ => trivial
      · exact ih

theorem orderly_readVersionMarker : readVersionMarker.Orderly Command.Early := by
  refine (orderly_act trivial).bind fun x => ?_
  split
  · exact orderly_tried (orderly_act trivial)
  · trivial

theorem orderly_readWorldMarker : (readWorldMarker settings).Orderly Command.Early := by
  refine (orderly_act trivial).bind fun x => ?_
  split
  · trivial
  · refine (orderly_act trivial).bind fun text => ?_
    split <;> trivial
  · trivial

theorem orderly_choosePlan {marked : Bool} : (choosePlan settings marked lastStarted names).Orderly Command.Early := by
  rw [choosePlan]
  split
  · split <;> trivial
  · split
    · trivial
    · split
      · trivial
      · split
        · trivial
        · split
          · exact orderly_orExit_bind (orderly_act trivial) fun _ => trivial
          · trivial
      · trivial

theorem orderly_copySaves {staging : Name} : (copySaves staging names).Orderly fun r =>
    r.Early ∨ ∃ save, r = .cpSave save staging := by
  induction names with
  | nil => trivial
  | cons save rest ih =>
    refine (orderly_act (.inl trivial)).bind fun x => ?_
    split
    · exact orderly_orExit_bind (orderly_act (.inr ⟨save, rfl⟩)) fun _ => ih
    · exact ih

theorem orderly_exitAfterCleanup (exit : Exit) :
    (exitAfterCleanup root exit : Script α).Orderly Command.Early := ⟨trivial, fun _ => trivial⟩

theorem orderly_prepareRoot : (prepareRoot settings sources root).Orderly Command.Early := by
  refine orderly_orExit_bind (orderly_act trivial) fun _ => ?_
  refine orderly_orExit_bind (orderly_act trivial) fun _ => ?_
  refine orderly_orExit_bind (orderly_act trivial) fun _ => ?_
  refine orderly_orExit_bind (orderly_act trivial) fun _ => ?_
  exact orderly_orExit_bind (orderly_act trivial) fun _ => orderly_tried (orderly_act trivial)

theorem orderly_publishSave : (publishSave settings root).Orderly Command.Early := by
  refine (orderly_act trivial).bind fun leaf => ?_
  split
  · refine (orderly_act trivial).bind fun x => ?_
    split
    · exact orderly_exitAfterCleanup _
    · refine (orderly_act trivial).bind fun moved => ?_
      split
      · exact orderly_exitAfterCleanup _
      · refine (orderly_act trivial).bind fun left => ?_
        split
        · exact orderly_exitAfterCleanup _
        · exact (orderly_act trivial).bind fun _ => trivial
  · exact orderly_exitAfterCleanup _

theorem orderly_createIn : (createIn settings sources root).Orderly Command.Early := by
  refine orderly_prepareRoot.bind fun _ => (orderly_act trivial).bind fun result => ?_
  split
  · exact orderly_exitAfterCleanup _
  · exact orderly_publishSave
  · exact orderly_exitAfterCleanup _

theorem orderly_create : (create settings sources).Orderly Command.Early := by
  refine (orderly_act trivial).bind fun x => ?_
  split
  · trivial
  · refine orderly_orExit_bind (orderly_act trivial) fun lines => ?_
    split
    · exact orderly_orExit_bind (orderly_act trivial) fun root =>
        orderly_createIn.tryCatch orderly_exitAfterCleanup
    · trivial

theorem orderly_holdsLine {name : Name} : (holdsLine name text).Orderly Command.Early := by
  refine (orderly_act trivial).bind fun x => ?_
  split
  · refine (orderly_act trivial).bind fun x => ?_
    split
    · exact (orderly_act trivial).bind fun _ => trivial
    · trivial
  · trivial

theorem orderly_writeMarkerTemp : (writeMarkerTemp m temp text).Orderly Command.Early := by
  refine (orderly_act trivial).bind fun x => ?_
  split
  · refine (orderly_act trivial).bind fun written => ?_
    split
    · trivial
    · refine orderly_holdsLine.bind fun holds => ?_
      split <;> trivial
  · trivial

theorem orderly_moveWorldMarker : (moveMarker .world temp).Orderly Command.Early := by
  refine orderly_orExit_bind (orderly_act trivial) fun _ => (orderly_act trivial).bind fun x => ?_
  split <;> trivial

theorem orderly_publishMarker {allowed : Command → Prop} (hearly : ∀ r : Command, r.Early → allowed r)
    (hmove : ∀ temp, (moveMarker m temp).Orderly allowed) : (publishMarker m text).Orderly allowed := by
  refine orderly_orExit_bind (orderly_act (hearly (.mktemp m) trivial)) fun temp => ?_
  refine Program.Orderly.bind (Program.Orderly.tryCatch ?_ fun exit => ?_) fun _ => ?_
  · exact (orderly_writeMarkerTemp.mono hearly).bind fun _ => hmove temp
  · exact (orderly_act (hearly (.rmForced temp) trivial)).bind fun _ => trivial
  · refine (orderly_holdsLine.mono hearly).bind fun holds => ?_
    split <;> trivial

theorem orderly_serve {marked : Bool} : (serve settings marked lastStarted).Orderly Command.Plain := by
  have hearly (r : Command) : r.Early → r.Plain := Command.Early.plain
  refine (orderly_act trivial).bind fun x => ?_
  split
  · refine Program.Orderly.bind ?_ fun _ => Program.Orderly.bind ?_ fun _ =>
      orderly_tried (orderly_act trivial)
    · rw [publishWorld]
      split
      · trivial
      · exact orderly_publishMarker hearly fun _ => orderly_moveWorldMarker.mono hearly
    · rw [publishVersion]
      split
      · trivial
      · exact orderly_publishMarker hearly fun _ => orderly_tried (orderly_act trivial)
  · trivial

end Orderly


end ClusterState.Factorio
