import ClusterState.CacheRetention.Choosing
import ClusterState.CacheRetention.Restraint

/-! # Runs under the policy

A run deletes what the policy chooses, never a root or what is retained there, and nothing
once the gate has refused.
-/

namespace ClusterState.CacheRetention

open ClusterState.Data.PythonText Concurrency

/-- What comes after the sweep. -/
def settle (settings : Settings) (roots : List Root) (swept : Swept) : Retain Unit := do
  let final ← finalUsage settings roots swept
  if settings.execute && swept.pressure then
    if 65 < final then decline "cannot reach 65% within approved idle directories; no scope widening"
    else if (← call (.available (firstPath roots))) < coldReserve then
      decline "cold reserve not reached; no scope widening"
    else pure ()
  else pure ()

theorem retain_eq (settings : Settings) (roots : List Root) :
    retain settings roots = sweep settings roots >>= settle settings roots := rfl

section Parts

variable {settings : Settings} {roots : List Root} {device : Device} {mounted busy : List Identity}
  {found : Found} {log : Log} {swept : Swept}

/-! ## After the sweep -/

theorem only_cleanUv : (cleanUv device mounted busy).Only Call.Keeps := by
  rw [cleanUv]
  refine (only_inquire (by simp [Call.Keeps])).bind fun x => ?_
  split
  case h_1 => trivial
  case h_2 => trivial
  case h_3 =>
    refine (only_uvProof.mono fun _ => Call.Looks.keeps).bind fun proof => ?_
    refine (only_qualifyUv.mono fun _ => Call.Looks.keeps).bind fun _ => ?_
    refine (only_call (by simp [Call.Keeps])).bind fun _ => ?_
    refine (only_call (by simp [Call.Keeps])).bind fun _ => ?_
    refine (only_call (by simp [Call.Keeps])).bind fun _ => ?_
    refine (only_uvProof.mono fun _ => Call.Looks.keeps).bind fun current => ?_
    split
    case isFalse => trivial
    case isTrue =>
      refine (only_call (by simp [Call.Keeps])).bind fun _ => ?_
      refine (only_call (by simp [Call.Keeps])).bind fun status => ?_
      split
      case isTrue => trivial
      case isFalse => trivial

theorem only_finalUsage : (finalUsage settings roots swept).Only Call.Keeps := by
  rw [finalUsage]
  refine (only_call (by simp [Call.Keeps])).bind fun final => ?_
  split
  case isFalse => trivial
  case isTrue =>
    refine ((only_checkUvParents _).mono fun _ => Call.Looks.keeps).bind fun _ => ?_
    exact only_cleanUv.bind fun _ => only_call (by simp [Call.Keeps])

theorem only_settle : (settle settings roots swept).Only Call.Keeps := by
  rw [settle]
  refine only_finalUsage.bind fun final => ?_
  split
  case isFalse => trivial
  case isTrue =>
    split
    case isTrue => trivial
    case isFalse =>
      refine (only_call (by simp [Call.Keeps])).bind fun available => ?_
      split
      case isTrue => trivial
      case isFalse => trivial

/-! ## The gate -/

def Unrefused (log : Log) : Prop := ∀ e, (⟨.gate, .error e⟩ : Answered) ∉ log

/-- As long as the gate has not refused, the program goes on, and makes no request after that. -/
def Obeys {α : Type} (m : Retain α) : Prop :=
  ∀ log, Unrefused log → m.Heeds (fun _ => Unrefused) (fun _ => Unrefused) log

theorem Unrefused.cons {r : Call} {x : Except Failure r.Result} (hr : r ≠ .gate) (h : Unrefused log) :
    Unrefused (log.cons ⟨r, x⟩) := by
  intro e hmem
  rcases List.mem_cons.mp hmem with heq | hmem
  · exact hr (Sigma.mk.inj heq).1.symm
  · exact h e hmem

theorem Obeys.bind {α β : Type} {m : Retain α} {f : α → Retain β} (hm : Obeys m) (hf : ∀ a, Obeys (f a)) :
    Obeys (m >>= f) := fun log h => (hm log h).bind fun a log' h' => hf a log' h'

def Call.Spares : Call → Prop
  | .removeTree _ _ _ => False
  | .uvClean => False
  | _ => True

theorem Call.Looks.spares {r : Call} (h : r.Looks) : r.Spares := by
  cases r with
  | removeTree target limits expected => exact h
  | uvClean => exact h
  | _ => trivial

theorem Call.Spares.keeps {r : Call} (h : r.Spares) : r.Keeps := by
  rintro target limits expected rfl
  exact h

section Dry

variable (hdry : settings.execute = false)
include hdry

end Dry

end Parts

/-! ## Results -/

/-- A root is not removed, nor what it is in, nor what is retained. -/
structure Spared (roots : List Root) (target : Target) : Prop where
  uv : target ≠ uvRoot
  retained : target.root = uvRoot.root → target.name ∉ retainedNames
  store : target.name ∉ storeNames
  root : ∀ root ∈ roots, target.path ≠ root.path
  above : ∀ root ∈ roots, ¬(target.path ++ [slash]) <+: root.path

section Results

variable {S : Type} {performs : (r : Call) → S → Except Failure r.Result → S → Prop} {s : S}
  {settings : Settings} {roots : List Root} {c : Going S}

theorem target_of_candidate {v : Sights} {root : Root} {name : Name} {found : Found}
    (h : v.candidate root name = some found) : found.target = ⟨root.path, name⟩ := by
  rw [Sights.candidate, Option.ite_none_left_eq_some] at h
  obtain ⟨-, h⟩ := h
  split at h
  · cases h
  · rw [Option.ite_none_right_eq_some] at h
    obtain ⟨answer, -, rfl⟩ := Option.map_eq_some_iff.mp h.2
    rfl

theorem Chosen.nodup {v : Sights} {used : List Target → ℚ} {order : List Found} {n : Nat}
    {targets : List Target} (h : Chosen settings roots v used order n targets)
    (hnodup : ((v.admitted roots).map Found.target).Nodup) : targets.Nodup := by
  have hall : (tooOld settings order ++ young settings order).Perm (order.map Found.target) := by
    rw [tooOld, young, ← List.map_append]
    exact (List.filter_append_perm _ order).map _
  have horder : (tooOld settings order ++ young settings order).Nodup :=
    hall.nodup_iff.mpr ((h.perm.map Found.target).nodup_iff.mpr hnodup)
  rw [h.targets_eq]
  exact horder.sublist ((List.take_sublist n _).append_left _)

/-- The run has come through its sweep with this log, and has got there. -/
def ComesThrough (performs : (r : Call) → S → Except Failure r.Result → S → Prop) (s : S)
    (settings : Settings) (roots : List Root) (log : Log) (c : Going S) : Prop :=
  ∃ (c₀ : Config PUnit.{1} Call (fun r => Except Failure r.Result) Failure Swept
      (Logged Call (fun r => Except Failure r.Result) S)) (swept : Swept),
    (System.alone (Logged.performs performs)).Reaches ⟨fun _ => sweep settings roots, ⟨s, []⟩⟩ c₀ ∧
      c₀.procs ⟨⟩ = .done swept ∧ c₀.shared.log = log ∧
      (System.alone (Logged.performs performs)).Reaches
        ⟨fun _ => settle settings roots swept, c₀.shared⟩ c

/-- A run is in its sweep, or has failed there, or has come through it. -/
theorem Gets.cases (hrun : Gets performs s settings roots c) :
    (∃ m : Retain Swept, c.procs ⟨⟩ = m >>= settle settings roots ∧ ∀ swept, m ≠ .done swept) ∨
      ∃ log, ComesThrough performs s settings roots log c := by
  rcases System.Reaches.bind_cases (m := sweep settings roots) (f := settle settings roots) hrun with
    ⟨c', hreach, hprocs, hshared⟩ | ⟨c', swept, hreach, hdone, hrest⟩
  · by_cases hdone : ∃ swept, c'.procs ⟨⟩ = .done swept
    · obtain ⟨swept, hdone⟩ := hdone
      refine .inr ⟨_, c', swept, hreach, hdone, rfl, ?_⟩
      rw [hdone] at hprocs
      have hc : c = ⟨fun _ => settle settings roots swept, c'.shared⟩ := by
        obtain ⟨procs, shared⟩ := c
        rw [Config.mk.injEq]
        exact ⟨funext fun _ => hprocs, hshared⟩
      rw [hc]
      exact .refl
    · exact .inl ⟨_, hprocs, fun swept h => hdone ⟨swept, h⟩⟩
  · exact .inr ⟨_, c', swept, hreach, hdone, rfl, hrest⟩

end Results

/-! ## A run -/

namespace Sample

def cacheRoot : Root := ⟨uvRoot.root, 30⟩

def sights : Sights where
  names path := if path = workspaceRoot then [codePoints "young", codePoints "old"]
    else [codePoints "uv", codePoints "tools", codePoints "archive"]
  kind _ := .ok (directory (8, 1) 3)
  look target := .ok (("proof".toList, some ((8, 1), 3)),
    if target.name = codePoints "old" then (0 : ℚ) else (10000000 : ℚ))

def fullness (gone : List Target) : ℚ := 80 - 10 * gone.length

/-- Every tree that goes makes the file system a tenth emptier. -/
def reply (gone : List Target) : (r : Call) → Except Failure r.Result
  | .lstat _ => .ok (directory (8, 1) 2)
  | .iterdir path => .ok (sights.names path)
  | .lstatChild target => sights.kind target
  | .snapshot target _ _ => sights.look target
  | .removeTree _ _ _ => .ok ()
  | .mounts => .ok []
  | .opened => .ok []
  | .gate => .ok ()
  | .used _ => .ok (fullness gone)
  | .available _ => .ok (2 * coldReserve)
  | _ => .error .gone

def shrinks (r : Call) (gone : List Target) (x : Except Failure r.Result) (gone' : List Target) : Prop :=
  x = reply gone r ∧ gone' = gone ++ (removal ⟨r, x⟩).toList

theorem log_of_shrinks {α : Type} {m : Retain α}
    {c : Config PUnit.{1} Call (fun r => Except Failure r.Result) Failure α
      (Logged Call (fun r => Except Failure r.Result) (List Target))}
    (hr : (System.alone (Logged.performs shrinks)).Reaches ⟨fun _ => m, ⟨[], []⟩⟩ c) :
    c.shared.site = removedBy c.shared.log ∧ ∀ since e earlier, c.shared.log = since ++ e :: earlier →
      e.2 = reply (removedBy earlier) e.1 := by
  induction hr with
  | refl => exact ⟨rfl, fun since e earlier h => absurd h.symm (by simp)⟩
  | @tail c c' _ hstep ih =>
    obtain ⟨hsite, hreplies⟩ := ih
    cases hstep with
    | env s' henv => exact henv.elim
    | act i r next x s' hask hperforms =>
      obtain ⟨⟨hx, hsite'⟩, hlog⟩ := hperforms
      refine ⟨?_, fun since e earlier h => ?_⟩
      · change s'.site = removedBy s'.log
        rw [hsite', hlog, removedBy_cons, hsite]
      · have h : ⟨r, x⟩ :: c.shared.log = since ++ e :: earlier := hlog.symm.trans h
        cases since with
        | nil =>
          obtain ⟨rfl, rfl⟩ := List.cons.inj h
          rw [← hsite]
          exact hx
        | cons e' since => exact hreplies since e earlier (List.cons.inj h).2

theorem seen_sights {log : Log} (h : ∀ since e earlier, log = since ++ e :: earlier →
    e.2 = reply (removedBy earlier) e.1) : Seen sights log := by
  intro e he
  have he := List.mem_reverse.mp ((List.takeWhile_prefix _).subset he)
  obtain ⟨since, earlier, hlog⟩ := List.append_of_mem he
  obtain ⟨r, x⟩ := e
  have hx : x = reply (removedBy earlier) r := h since _ earlier hlog
  cases r with
  | iterdir path =>
    obtain rfl := hx
    rfl
  | lstatChild target => exact hx
  | snapshot target limits nativeUv =>
    cases nativeUv with
    | false => exact hx
    | true => trivial
  | _ => trivial

def shrinking : Responder (System.alone (Logged.performs shrinks)) Unit Empty where
  respond _ r s _ := some (reply s.site r,
    ⟨s.site ++ (removal ⟨r, reply s.site r⟩).toList, ⟨r, reply s.site r⟩ :: s.log⟩)
  happen e := e.elim
  performs_of_respond := by
    intro _ r s _ x s' h
    cases h
    exact ⟨⟨rfl, rfl⟩, rfl⟩
  env_of_happen {e} := e.elim

def old : Target := ⟨workspaceRoot, codePoints "old"⟩

def young : Target := ⟨workspaceRoot, codePoints "young"⟩

theorem exists_emptied : ∃ c, Gets shrinks [] settings [root, cacheRoot] c ∧
    (returned (c.procs ⟨⟩) && removedBy c.shared.log = [old, young]) = true := by
  have hrun : (shrinking.execute [.act ⟨⟩ (List.replicate 31 ())]
      (⟨fun _ => retain settings [root, cacheRoot], ⟨[], []⟩⟩ : Going (List Target))).any
        (fun c => returned (c.procs ⟨⟩) && removedBy c.shared.log = [old, young]) = true := by
    decide +kernel
  exact Responder.exists_reaches hrun

end Sample

end ClusterState.CacheRetention
