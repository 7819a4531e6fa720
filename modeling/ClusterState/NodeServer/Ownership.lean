import ClusterState.Data.Decimal
import ClusterState.Concurrency.Evaluation
import ClusterState.NodeServer.MountArgs

/-! # Two writers of one ownership

The filer's entry is given the numbers in the volume context with `ParseUint`, the mounted
root with `ParseInt`. The error of a number is its key; the wording of `strconv` is left out.
-/

namespace ClusterState.NodeServer

open Concurrency ClusterState.Data

/-- A number in the context; an empty one is none. -/
def ownershipNumber {α : Type} (parse : String → Option α) (key : String) (volContext : VolumeContext) :
    Except String (Option α) :=
  if volContext.get key = "" then .ok none
  else
    match parse (volContext.get key) with
    | some n => .ok (some n)
    | none => .error ("parse " ++ key)

def ownership {α : Type} (parse : String → Option α) (volContext : VolumeContext) :
    Except String (Option (Option α × Option α)) :=
  if volContext.get "mountRootUid" = "" ∧ volContext.get "mountRootGid" = "" then .ok none
  else do
    let uid ← ownershipNumber parse "mountRootUid" volContext
    let gid ← ownershipNumber parse "mountRootGid" volContext
    pure (some (uid, gid))

/-- What is written to the filer's entry, next to the mode: the numbers that are given. -/
structure EntryChange where
  uid : Option Nat
  gid : Option Nat
  deriving DecidableEq, Repr

/-- The arguments of `os.Chown`. -/
structure Chown where
  uid : Int
  gid : Int
  deriving DecidableEq, Repr

/-- `applyMountRootOwnership`, up to the change of the entry. -/
def applyMountRootOwnership (volContext : VolumeContext) : Except String (Option EntryChange) :=
  (ownership (Decimal.parseUint 32) volContext).map fun given =>
    given.map fun numbers => ⟨numbers.1, numbers.2⟩

/-- `applyMountRootOwnershipKernel`, up to the system call. -/
def applyMountRootOwnershipKernel (volContext : VolumeContext) : Except String (Option Chown) :=
  (ownership (Decimal.parseInt 32) volContext).map fun given =>
    given.map fun numbers => ⟨numbers.1.getD (-1), numbers.2.getD (-1)⟩

/-- `os.Chown` leaves an owner of -1 as it is. -/
def changed (owner : Int) : Option Int := if owner = -1 then none else some owner

/-- Both reject the numbers, or both give the same owners. -/
def WritersAgree (volContext : VolumeContext) : Prop :=
  match applyMountRootOwnership volContext, applyMountRootOwnershipKernel volContext with
  | .error _, .error _ => True
  | .ok none, .ok none => True
  | .ok (some change), .ok (some chown) =>
    changed chown.uid = change.uid.map Int.ofNat ∧ changed chown.gid = change.gid.map Int.ofNat
  | _, _ => False

/-- Digits of a number below 2^31. -/
def Plain (text : String) : Prop := ∃ n, Decimal.digits text.toList = some n ∧ n < 2 ^ 31

def ownershipKeys : List String := ["mountRootUid", "mountRootGid"]

def VolumeContext.Rejected {α : Type} (parse : String → Option α) (volContext : VolumeContext) : Prop :=
  ∃ key ∈ ownershipKeys, volContext.get key ≠ "" ∧ parse (volContext.get key) = none

def parseOwnershipAnnotation (annotations : VolumeContext) (key : String) :
    Except String (Option Int) :=
  if annotations.get key = "" then .ok none
  else
    match Decimal.parseInt 32 (annotations.get key) with
    | none => .error ("invalid annotation " ++ key)
    | some n => if n < 0 then .error ("invalid annotation " ++ key) else .ok (some n)

/-! ## One number -/

inductive Reading (text : String) : Option Nat → Option Int → Prop
  | plain (n : Nat) (h : Plain text) : Reading text (some n) (some n)
  | large (n : Nat) (h : ¬Plain text) : Reading text (some n) none
  | signed (n : Int) (h : ¬Plain text) : Reading text none (some n)
  | neither (h : ¬Plain text) : Reading text none none

section Reading

variable {text key : String} {volContext : VolumeContext}

theorem plain_iff : Plain text ↔ ∃ n, Decimal.parseUint 32 text = some n ∧ n < 2 ^ 31 := by
  refine exists_congr fun n => and_congr_left fun hlt => ?_
  rw [Decimal.parseUint, Option.filter_eq_some_iff]
  exact (and_iff_left (decide_eq_true (by omega))).symm

theorem reading (text : String) :
    Reading text (Decimal.parseUint 32 text) (Decimal.parseInt 32 text) := by
  cases hu : Decimal.parseUint 32 text with
  | some n =>
    rw [Decimal.parseInt_of_parseUint hu]
    by_cases hlt : n < 2 ^ (32 - 1)
    · rw [if_pos hlt]
      exact .plain n (plain_iff.mpr ⟨n, hu, hlt⟩)
    · rw [if_neg hlt]
      refine .large n fun h => ?_
      obtain ⟨m, hm, hlt'⟩ := plain_iff.mp h
      rw [hu] at hm
      cases hm
      exact hlt hlt'
  | none =>
    have hplain : ¬Plain text := fun h => by
      obtain ⟨m, hm, -⟩ := plain_iff.mp h
      rw [hu] at hm
      cases hm
    cases Decimal.parseInt 32 text with
    | some n => exact .signed n hplain
    | none => exact .neither hplain

theorem ownershipNumber_of_empty {α : Type} {parse : String → Option α} (h : volContext.get key = "") :
    ownershipNumber parse key volContext = .ok none := if_pos h

inductive Seen (volContext : VolumeContext) (key : String) :
    Except String (Option Nat) → Except String (Option Int) → Prop
  | absent (h : volContext.get key = "") : Seen volContext key (.ok none) (.ok none)
  | plain (n : Nat) (h : volContext.get key ≠ "") (hp : Plain (volContext.get key))
    (hr : Decimal.parseUint 32 (volContext.get key) ≠ none)
    (hr' : Decimal.parseInt 32 (volContext.get key) ≠ none) :
    Seen volContext key (.ok (some n)) (.ok (some n))
  | large (n : Nat) (err : String) (h : volContext.get key ≠ "") (hp : ¬Plain (volContext.get key))
    (hr : Decimal.parseUint 32 (volContext.get key) ≠ none)
    (hr' : Decimal.parseInt 32 (volContext.get key) = none) :
    Seen volContext key (.ok (some n)) (.error err)
  | signed (n : Int) (err : String) (h : volContext.get key ≠ "") (hp : ¬Plain (volContext.get key))
    (hr : Decimal.parseUint 32 (volContext.get key) = none)
    (hr' : Decimal.parseInt 32 (volContext.get key) ≠ none) :
    Seen volContext key (.error err) (.ok (some n))
  | neither (err : String) (h : volContext.get key ≠ "") (hp : ¬Plain (volContext.get key))
    (hr : Decimal.parseUint 32 (volContext.get key) = none)
    (hr' : Decimal.parseInt 32 (volContext.get key) = none) :
    Seen volContext key (.error err) (.error err)

theorem seen (volContext : VolumeContext) (key : String) :
    Seen volContext key (ownershipNumber (Decimal.parseUint 32) key volContext)
      (ownershipNumber (Decimal.parseInt 32) key volContext) := by
  by_cases h : volContext.get key = ""
  · rw [ownershipNumber_of_empty h, ownershipNumber_of_empty h]
    exact .absent h
  · have hreading := reading (volContext.get key)
    unfold ownershipNumber
    rw [if_neg h, if_neg h]
    generalize hu : Decimal.parseUint 32 (volContext.get key) = u at hreading ⊢
    generalize hi : Decimal.parseInt 32 (volContext.get key) = i at hreading ⊢
    cases hreading with
    | plain n hp =>
      exact .plain n h hp (by rw [hu]; exact Option.some_ne_none n) (by rw [hi]; exact Option.some_ne_none _)
    | large n hp => exact .large n _ h hp (by rw [hu]; exact Option.some_ne_none n) hi
    | signed n hp => exact .signed n _ h hp hu (by rw [hi]; exact Option.some_ne_none n)
    | neither hp => exact .neither _ h hp hu hi

end Reading

/-! ## Both numbers -/

section Agreement

variable {volContext : VolumeContext}

def VolumeContext.AllPlain (volContext : VolumeContext) : Prop :=
  ∀ key ∈ ownershipKeys, volContext.get key = "" ∨ Plain (volContext.get key)

theorem allPlain_iff : volContext.AllPlain ↔
    (volContext.get "mountRootUid" = "" ∨ Plain (volContext.get "mountRootUid")) ∧
      (volContext.get "mountRootGid" = "" ∨ Plain (volContext.get "mountRootGid")) := by
  simp only [VolumeContext.AllPlain, ownershipKeys, List.forall_mem_cons, List.not_mem_nil,
    false_imp_iff, implies_true, and_true]

theorem rejected_iff {α : Type} {parse : String → Option α} : volContext.Rejected parse ↔
    (volContext.get "mountRootUid" ≠ "" ∧ parse (volContext.get "mountRootUid") = none) ∨
      (volContext.get "mountRootGid" ≠ "" ∧ parse (volContext.get "mountRootGid") = none) := by
  simp only [VolumeContext.Rejected, ownershipKeys, List.mem_cons, List.not_mem_nil, or_false,
    exists_eq_or_imp, exists_eq_left]

theorem writersAgree_of_seen {u g : Except String (Option Nat)} {u' g' : Except String (Option Int)}
    (huid : Seen volContext "mountRootUid" u u') (hgid : Seen volContext "mountRootGid" g g') :
    (match (do pure (some (← u, ← g)) : Except String (Option (Option Nat × Option Nat))).map
        (Option.map fun numbers => EntryChange.mk numbers.1 numbers.2),
      (do pure (some (← u', ← g')) : Except String (Option (Option Int × Option Int))).map
        (Option.map fun numbers => Chown.mk (numbers.1.getD (-1)) (numbers.2.getD (-1))) with
    | .error _, .error _ => True
    | .ok none, .ok none => True
    | .ok (some change), .ok (some chown) =>
      changed chown.uid = change.uid.map Int.ofNat ∧ changed chown.gid = change.gid.map Int.ofNat
    | _, _ => False) ↔
      volContext.AllPlain ∨
        (volContext.Rejected (Decimal.parseUint 32) ∧ volContext.Rejected (Decimal.parseInt 32)) := by
  rw [allPlain_iff, rejected_iff, rejected_iff]
  cases huid <;> cases hgid <;>
    simp_all [Except.map, bind, Except.bind, pure, Except.pure, changed]

theorem writersAgree_iff : WritersAgree volContext ↔ volContext.AllPlain ∨
    (volContext.Rejected (Decimal.parseUint 32) ∧ volContext.Rejected (Decimal.parseInt 32)) := by
  by_cases hempty : volContext.get "mountRootUid" = "" ∧ volContext.get "mountRootGid" = ""
  · rw [WritersAgree, applyMountRootOwnership, applyMountRootOwnershipKernel, ownership, ownership,
      if_pos hempty, if_pos hempty, allPlain_iff]
    exact iff_of_true trivial (.inl ⟨.inl hempty.1, .inl hempty.2⟩)
  · rw [WritersAgree, applyMountRootOwnership, applyMountRootOwnershipKernel, ownership, ownership,
      if_neg hempty, if_neg hempty]
    exact writersAgree_of_seen (seen volContext "mountRootUid") (seen volContext "mountRootGid")

end Agreement

/-! ## Staging -/

structure StagingHost where
  updateEntry : Except String Unit
  chown : Except String Unit
  unstage : Except String Unit
  capacity : Except String Int
  quota : Except String Unit

/-- The end of a staging, beside the changes of the filer's entry, the last one first. -/
def StagingHost.respond (host : StagingHost) :
    (r : Request) → List EntryChange → Option (Answer r × List EntryChange)
  | .own (.applyMountRootOwnership _ volContext), changes =>
    match NodeServer.applyMountRootOwnership volContext, host.updateEntry with
    | .error err, _ => some (.error err, changes)
    | .ok none, _ => some (.ok (), changes)
    | .ok (some change), .ok () => some (.ok (), change :: changes)
    | .ok (some _), .error err => some (.error err, changes)
  | .own (.applyMountRootOwnershipKernel _ volContext), changes =>
    match NodeServer.applyMountRootOwnershipKernel volContext with
    | .error err => some (.error err, changes)
    | .ok none => some (.ok (), changes)
    | .ok (some _) => some (host.chown, changes)
  | .own (.unstage _ _), changes => some (host.unstage, changes)
  | .own (.getVolumeCapacity _), changes => some (host.capacity, changes)
  | .own (.quota _ _), changes => some (host.quota, changes)
  | _, _ => none

/-- The two writers agree, and a staging changes no entry for numbers that the kernel step
rejects. -/
structure OwnershipConsistent (volContext : VolumeContext) : Prop where
  agree : WritersAgree volContext
  spares : ∀ (host : StagingHost) (volume : Volume) (changes : List EntryChange) (err : String),
    applyMountRootOwnershipKernel volContext = .error err →
    ((finishStaging volume volContext false).eval host.respond changes).2 = changes

theorem spares_of_agree {volContext : VolumeContext} (h : WritersAgree volContext) {host : StagingHost}
    {volume : Volume} {changes : List EntryChange} {err : String}
    (herr : applyMountRootOwnershipKernel volContext = .error err) :
    ((finishStaging volume volContext false).eval host.respond changes).2 = changes := by
  unfold WritersAgree at h
  rw [herr] at h
  cases hfiler : applyMountRootOwnership volContext with
  | error err' =>
    have hrespond : host.respond (.own (.applyMountRootOwnership volume.volumeId volContext)) changes =
        some (.error err', changes) := by
      simp only [StagingHost.respond, hfiler]
    change ((Program.ask (.own (.applyMountRootOwnership volume.volumeId volContext)) _).eval
      host.respond changes).2 = changes
    rw [Program.eval_ask hrespond]
    rfl
  | ok change =>
    rw [hfiler] at h
    cases change <;> exact h.elim

theorem number_of_annotation {annotations : VolumeContext} {key : String} {n : Int}
    (h : parseOwnershipAnnotation annotations key = .ok (some n)) :
    ∃ k : Nat, n = k ∧ k < 2 ^ 31 := by
  unfold parseOwnershipAnnotation at h
  split at h
  · cases h
  · split at h
    · cases h
    · rename_i m hm
      split at h
      · cases h
      · rename_i hpos
        cases h
        have hlt := Decimal.parseInt_lt hm
        refine ⟨n.toNat, ?_, ?_⟩ <;> omega

/-- The writers agree just when both numbers are absent or plain, or both are rejected; what
`CreateVolume` writes for an annotation is read by both as the annotated number. -/
theorem ownership_writers_agree_iff (volContext : VolumeContext) :
    (OwnershipConsistent volContext ↔ volContext.AllPlain ∨
      (volContext.Rejected (Decimal.parseUint 32) ∧ volContext.Rejected (Decimal.parseInt 32))) ∧
    ∀ (annotations : VolumeContext) (key : String) (n : Int),
      parseOwnershipAnnotation annotations key = .ok (some n) →
      Decimal.parseInt 32 (Decimal.formatInt n) = some n ∧
        (Decimal.parseUint 32 (Decimal.formatInt n)).map Int.ofNat = some n := by
  constructor
  · rw [← writersAgree_iff]
    exact ⟨fun h => h.agree, fun h => ⟨h, fun _ _ _ _ => spares_of_agree h⟩⟩
  · intro annotations key n h
    obtain ⟨k, rfl, hlt⟩ := number_of_annotation h
    have hu := @Decimal.parseUint_formatInt 32 k (by omega)
    exact ⟨(Decimal.parseInt_of_parseUint hu).trans (if_pos hlt), congrArg (Option.map Int.ofNat) hu⟩

def annotated : VolumeContext := (∅ : VolumeContext).insert "mount-root-uid" "1000"

theorem annotated_ownership :
    Decimal.parseInt 32 (Decimal.formatInt 1000) = some 1000 ∧
      (Decimal.parseUint 32 (Decimal.formatInt 1000)).map Int.ofNat = some 1000 :=
  (ownership_writers_agree_iff ∅).2 annotated "mount-root-uid" 1000 (by decide)

/-- A user number that fits 32 bits but not 31. -/
theorem large_uid_disagrees : ¬∀ volContext : VolumeContext, OwnershipConsistent volContext := by
  intro h
  have hagree := (h ((∅ : VolumeContext).insert "mountRootUid" "3000000000")).agree
  have hfiler : applyMountRootOwnership ((∅ : VolumeContext).insert "mountRootUid" "3000000000") =
      .ok (some ⟨some 3000000000, none⟩) := by decide
  have hkernel : applyMountRootOwnershipKernel ((∅ : VolumeContext).insert "mountRootUid" "3000000000") =
      .error "parse mountRootUid" := by decide
  rw [WritersAgree, hfiler, hkernel] at hagree
  exact hagree

end ClusterState.NodeServer
