import ClusterState.CacheRetention.Warrants

/-! # What the parts of the run ask for

Most parts of the run only look. None of these measures the file system, asks the gate, or
removes anything.
-/

namespace ClusterState.CacheRetention

open ClusterState.Data.PythonText Concurrency

def Call.Looks : Call → Prop
  | .removeTree _ _ _ => False
  | .gate => False
  | .used _ => False
  | .available _ => False
  | .uvClean => False
  | _ => True

theorem Call.Looks.unmeasuring {r : Call} (h : r.Looks) : Unmeasuring r := by
  rintro path rfl
  exact h

section Requests

variable {settings : Settings} {device : Device} {mounted busy : List Identity} {found : Found}
  {allowed : Call → Prop}

theorem only_call {r : Call} (h : allowed r) : (call r).Only allowed := by
  refine ⟨h, fun x => ?_⟩
  cases x <;> trivial

theorem only_inquire {r : Call} (h : allowed r) : (inquire r).Only allowed := ⟨h, fun _ => trivial⟩

theorem only_ofExcept {α : Type} {x : Except Failure α} : (.ofExcept x : Retain α).Only allowed := by
  cases x <;> trivial

theorem only_examine (root : Root) (target : Target) :
    (examine root device mounted busy target).Only Call.Looks := by
  rw [examine]
  refine (only_call trivial).bind fun st => ?_
  split
  case isFalse => trivial
  case isTrue =>
    split
    case isTrue => trivial
    case isFalse => exact (only_call trivial).bind fun _ => trivial

theorem only_collect (root : Root) (names : List Name) :
    (collect root device mounted busy names).Only Call.Looks := by
  induction names with
  | nil => trivial
  | cons name names ih =>
    rw [collect]
    split
    case isTrue => exact ih
    case isFalse =>
      refine (only_examine root _).attempt.bind fun result => ?_
      split
      case h_1 => exact ih.bind fun _ => trivial
      case h_2 => exact ih
      case h_3 => trivial

theorem only_collectAll (stats : List (Root × Metadata)) :
    (collectAll mounted busy stats).Only Call.Looks := by
  induction stats with
  | nil => trivial
  | cons p stats ih =>
    rw [collectAll]
    refine (only_call trivial).bind fun names => ?_
    exact (only_collect _ _).bind fun _ => ih.bind fun _ => trivial

theorem only_checkRoots (l : List Root) : (checkRoots l).Only Call.Looks := by
  induction l with
  | nil => trivial
  | cons root l ih =>
    exact (only_call trivial).bind fun _ => ih.bind fun _ => trivial

theorem only_checkKinds (stats : List (Root × Metadata)) :
    (checkKinds stats).Only Call.Looks := by
  induction stats with
  | nil => trivial
  | cons p stats ih =>
    rw [checkKinds]
    split
    case isTrue => exact ih
    case isFalse => trivial

theorem only_checkAncestors (l : List Path) : (checkAncestors l).Only Call.Looks := by
  induction l with
  | nil => trivial
  | cons path l ih =>
    rw [checkAncestors]
    refine (only_call trivial).bind fun st => ?_
    split
    case isTrue => exact ih.bind fun _ => trivial
    case isFalse => trivial

theorem only_checkUvRoot : (checkUvRoot device mounted busy).Only Call.Looks := by
  rw [checkUvRoot]
  refine (only_call trivial).bind fun parent => ?_
  split
  case isFalse => trivial
  case isTrue =>
    refine (only_call trivial).bind fun readOnly => ?_
    split
    case isTrue => trivial
    case isFalse =>
      refine (only_call trivial).bind fun st => ?_
      refine only_ofExcept.bind fun _ => ?_
      split
      case isTrue => trivial
      case isFalse => trivial

theorem only_checkUvEntries (names : List Name) : (checkUvEntries names).Only Call.Looks := by
  induction names with
  | nil => trivial
  | cons name names ih =>
    rw [checkUvEntries]
    refine (only_call trivial).bind fun st => ?_
    split
    case isTrue => exact ih
    case isFalse => trivial

theorem only_checkUvTag : checkUvTag.Only Call.Looks := by
  rw [checkUvTag]
  refine (only_call trivial).bind fun _ => ?_
  refine (only_call trivial).bind fun st => ?_
  split
  case isFalse => trivial
  case isTrue =>
    refine (only_call trivial).bind fun tag => ?_
    split
    case isTrue => trivial
    case isFalse => trivial

theorem only_uvProof : (uvProof device mounted busy).Only Call.Looks := by
  rw [uvProof]
  refine (only_checkAncestors uvAncestors).bind fun ancestors => ?_
  refine only_checkUvRoot.bind fun _ => ?_
  refine (only_call trivial).bind fun names => ?_
  refine (only_checkUvEntries names).bind fun _ => only_checkUvTag.bind fun _ => ?_
  exact (only_call trivial).bind fun _ => trivial

theorem only_qualifyUv : qualifyUv.Only Call.Looks := by
  rw [qualifyUv]
  refine (only_call trivial).bind fun digest => ?_
  split
  case isFalse => trivial
  case isTrue =>
    refine (only_call trivial).bind fun answer => ?_
    obtain ⟨status, output⟩ := answer
    dsimp only
    split
    case isTrue => trivial
    case isFalse => trivial

theorem only_checkUvParents (stats : List (Root × Metadata)) :
    (checkUvParents stats).Only Call.Looks := by
  induction stats with
  | nil => trivial
  | cons p stats ih =>
    rw [checkUvParents]
    split
    case isTrue =>
      refine (only_call trivial).bind fun st => ?_
      split
      case isTrue => exact ih
      case isFalse => trivial
    case isFalse => exact ih

end Requests

end ClusterState.CacheRetention
