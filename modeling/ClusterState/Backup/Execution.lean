import ClusterState.Backup.LaterRun

/-! # Runs of the exporter

One is cut when it has published, the other when it has begun to remove an export.
-/

namespace ClusterState.Backup

open Concurrency

namespace Sample

def dumpDigest : String := "b6ca0868bca6a2926b70aa1a71592038d9030fe26d4214edcfbd6cf41f2f4654"

theorem dumpDigest_hex : ∀ ch ∈ dumpDigest.toList, ch ∈ "0123456789abcdef".toList := by
  have hall : dumpDigest.toList.all (fun ch => "0123456789abcdef".toList.contains ch) = true := by
    decide
  exact fun ch hch => List.contains_iff_mem.mp (List.all_eq_true.mp hall ch hch)

/-- Contents are texts, and only that of `dump` is ever digested. -/
def python : Python String where
  sha256 _ := dumpDigest
  text := some
  ofText := id
  size := String.length
  decimal c := if c.isDigit then some (c.toNat - '0'.toNat) else none
  decimal_ascii := by decide
  decimal_dot := rfl
  decimal_underscore := rfl
  decimal_return := rfl
  text_ofText _ _ := rfl
  sha256_hex _ := dumpDigest_hex

def export' (stem : String) : Entry String :=
  .directory ⟨State.newDirectory, stagedFiles (stem ++ backupSuffix) (NativeBackup.newFile "dump")
    (NativeBackup.newFile "yml")
    (NativeBackup.newFile (checksumText dumpDigest (stem ++ backupSuffix)))⟩

def state (stems : List String) : State String where
  places
    | .exports => .directory State.newDirectory
        (stems.map fun stem => (⟨stem, export' stem⟩ : (_ : String) × Entry String)).toAList
    | .dbArchives => .absent
  emptying := none
  published := []

def sevenExports : State String := state [
  "1700000001_2023_11_14_19.5.0", "1700000002_2023_11_14_19.5.0", "1700000003_2023_11_14_19.5.0",
  "1700000004_2023_11_14_19.5.0", "1700000005_2023_11_14_19.5.0", "1700000006_2023_11_14_19.5.0",
  "1700000007_2023_11_14_19.5.0"]

def backup (timestamp : Nat) (stem : String) : NativeBackup String where
  version := "19.5.0"
  production := ⟨timestamp * 10 ^ 9, false, blobs.map fun name => (name, "done"),
    [stem ++ backupSuffix], timestamp * 10 ^ 9, fun _ => true⟩
  name := stem ++ backupSuffix
  empty := []
  archive := "dump"
  metadata := "yml"
  random := "k3v9q2"

def first : NativeBackup String := backup 1800000000 "1800000000_2027_01_15_19.5.0"

def second : NativeBackup String := backup 1800003600 "1800003600_2027_01_15_19.5.0"

end Sample

def responder (b : NativeBackup String) : Responder (exporter Sample.python).system Unit Empty where
  respond _ r s _ := b.respond Sample.python r s
  happen e := e.elim
  performs_of_respond := NativeBackup.performs_of_respond
  env_of_happen := fun {e} => e.elim

def accepted (s : State String) : Bool :=
  (completed Sample.python (s.places .exports)).isOk &&
    (completedDbArchives Sample.python (s.places .dbArchives)).isOk

theorem accepts_iff {s : State String} : Accepts Sample.python s ↔ accepted s = true := by
  have hok : ∀ {α : Type} {x : Except Failure α}, (∃ a, x = .ok a) ↔ x.isOk = true := by
    intro α x
    cases x with
    | ok a => exact iff_of_true ⟨a, rfl⟩ rfl
    | error e => exact iff_of_false (fun ⟨_, h⟩ => nomatch h) Bool.false_ne_true
  rw [Accepts, accepted, Bool.and_eq_true, hok, hok]

def good (b : NativeBackup String) (s : State String) : Bool :=
  isStableVersion b.version &&
    (match checkProduction Sample.python b.version b.production with
      | .ok result => decide (result = (b.name, b.empty))
      | .error _ => false) &&
    (s.entry .exports b.target).isNone &&
    (s.entry .exports (State.stageName b.target b.random)).isNone

theorem good_of {b : NativeBackup String} {s : State String} (h : good b s = true) :
    b.Good Sample.python s := by
  simp only [good, Bool.and_eq_true, Option.isNone_iff_eq_none] at h
  obtain ⟨⟨⟨hversion, hproduction⟩, htarget⟩, hstage⟩ := h
  refine ⟨hversion, ?_, htarget, hstage⟩
  split at hproduction
  · rename_i result heq
    rw [heq, of_decide_eq_true hproduction]
  · cases hproduction

theorem sample_intact {stems : List String} (h : accepted (Sample.state stems) = true) :
    Intact Sample.python (Sample.state stems) where
  privatePlace
    | .exports => .inr rfl
    | .dbArchives => .inl rfl
  accepts := accepts_iff.mpr h
  emptying := rfl

/-- A run is cut right after its export has been published. -/
theorem cut_export_retried : ∃ c, (exporter Sample.python).Reachable Sample.sevenExports c ∧
    c.shared.emptying = none ∧ c.shared.published ≠ [] ∧
    Accepts Sample.python c.shared ∧ Sample.second.Publishes Sample.python c.shared := by
  have hrun : ((exporter Sample.python).execute (responder Sample.first)
      [.call (), .act (List.replicate 26 ())] ⟨.done ⟨⟩, Sample.sevenExports⟩).any (fun c =>
        decide (c.shared.emptying = none ∧ c.shared.published ≠ []) &&
          good Sample.second c.shared) = true := by
    decide
  obtain ⟨c, hreach, hcheck⟩ := Server.exists_reachable hrun
  obtain ⟨hstate, hgood⟩ := (Bool.and_eq_true _ _).mp hcheck
  obtain ⟨hnone, hpublished⟩ := of_decide_eq_true hstate
  have hintact : Intact Sample.python Sample.sevenExports := sample_intact (by decide)
  exact ⟨c, hreach, hnone, hpublished,
    (export_can_be_retried hintact hreach (good_of hgood)).mpr hnone⟩

/-- A run is cut when it has taken one file out of the oldest of eight exports. -/
theorem cut_pruning_blocks_exports : Intact Sample.python Sample.sevenExports ∧
    ∃ c, (exporter Sample.python).Reachable Sample.sevenExports c ∧
      Sample.second.Good Sample.python c.shared ∧
      ¬ Accepts Sample.python c.shared ∧ ¬ Sample.second.Publishes Sample.python c.shared := by
  refine ⟨sample_intact (by decide), ?_⟩
  have hrun : ((exporter Sample.python).execute (responder Sample.first)
      [.call (), .act (List.replicate 30 ())] ⟨.done ⟨⟩, Sample.sevenExports⟩).any (fun c =>
        good Sample.second c.shared && !accepted c.shared &&
          !decide (Sample.second.target ∈ ((main Sample.python).eval
            (Sample.second.respond Sample.python) { c.shared with published := [] }).2.published)) =
      true := by
    decide
  obtain ⟨c, hreach, hcheck⟩ := Server.exists_reachable hrun
  simp only [Bool.and_eq_true, Bool.not_eq_true', decide_eq_false_iff_not] at hcheck
  obtain ⟨⟨hgood, haccepted⟩, hpublishes⟩ := hcheck
  refine ⟨c, hreach, good_of hgood, fun haccepts => ?_, hpublishes⟩
  rw [accepts_iff.mp haccepts] at haccepted
  cases haccepted

end ClusterState.Backup
