import ClusterState.Concurrency.RelyGuarantee

/-! # The maintenance state of Runner2 and its validation

The document kept under `state.json` in the state ConfigMap, as
`maintenance-admission.py` reads and writes it. The type checks of the source
(`type(x) is dict`, exact key sets, `type(x) is int`) are discharged by the
types here; every other test of `validate` is written out.
-/

namespace ClusterState.Admission

/-- The exceptions of the source: `Refuse` with its reason, its subclass
`Conflict`, and everything else (transport errors, `TypeError` on a missing
operation and the like). -/
inductive Fault where
  | refuse (reason : String)
  | conflict
  | other
  deriving DecidableEq, Repr

def require (condition : Bool) (reason : String) : Except Fault Unit :=
  if condition then .ok () else .error (.refuse reason)

def text (value : String) : Bool := value != "" && value.length ≤ 256

def workerNamespace : String := "ci-maintenance-worker"

def controlNamespace : String := "ci-maintenance"

structure Identity where
  ns : String
  name : String
  uid : String
  job : String
  jobUid : String
  deriving DecidableEq, Repr

def identity (value : Identity) : Except Fault Unit := do
  require (text value.ns && text value.name && text value.uid && text value.job &&
    text value.jobUid) "invalid owner identity"
  require (value.ns == workerNamespace || value.ns == controlNamespace) "invalid owner namespace"

inductive Phase where
  | idle | pauseIntent | draining | admitted | claimed | closing | restoring | done | alert
  deriving DecidableEq, Repr

inductive Write where
  | none | pause | restore | unknown
  deriving DecidableEq, Repr

structure Operation where
  id : String
  slot : Int
  coordinator : Identity
  worker : Option Identity
  claimed : Bool
  holder : Option Identity
  baseline : Bool
  restoreRequired : Bool
  write : Write
  drainBy : Int
  cleanupBy : Int
  recoverBy : Int
  outcome : String
  restored : Bool
  deriving DecidableEq, Repr

structure GcHolder where
  identity : Identity
  claimedAt : Int
  deriving DecidableEq, Repr

structure State where
  schema : Int
  uid : String
  policy : String
  runner : Int
  heartbeat : Int
  phase : Phase
  operation : Option Operation
  gcHolder : Option GcHolder
  deriving DecidableEq, Repr

/-- The text an operation is named after. -/
def generationText (slot : Int) (uid policy : String) : String :=
  toString slot ++ ":" ++ uid ++ ":" ++ policy

section Hash

/-! `hashlib.sha256(text.encode()).hexdigest()` is a parameter. -/
variable (sha256 : String → String)

def generation (slot : Int) (uid policy : String) : String :=
  sha256 (generationText slot uid policy)

def newOperation (slot : Int) (coord : Identity) (policy : String) : Operation where
  id := generation sha256 slot coord.uid policy
  slot := slot
  coordinator := coord
  worker := none
  claimed := false
  holder := none
  baseline := false
  restoreRequired := true
  write := .pause
  drainBy := slot + 1200
  cleanupBy := slot + 1800
  recoverBy := slot + 2700
  outcome := "pause-intent"
  restored := false

def validateGc : Option GcHolder → Except Fault Unit
  | none => .ok ()
  | some gc => do
    require (0 ≤ gc.claimedAt) "invalid GC holder"
    identity gc.identity
    require (gc.identity.ns == workerNamespace) "wrong GC namespace"

def validateOperation (op : Operation) (phase : Phase) (policy : String) : Except Fault Unit := do
  identity op.coordinator
  op.worker.forM identity
  op.holder.forM identity
  require (op.coordinator.ns == controlNamespace
    && op.worker.all (fun w => w.ns == workerNamespace)
    && op.holder.all (fun h => h.ns == controlNamespace)) "wrong effect-owner namespace"
  require (op.baseline == false && op.restoreRequired == true
    && op.slot % 3600 == 47 * 60
    && op.drainBy == op.slot + 1200
    && op.cleanupBy == op.slot + 1800
    && op.recoverBy == op.slot + 2700
    && text op.outcome) "invalid operation values"
  require (op.id == generation sha256 op.slot op.coordinator.uid policy)
    "invalid operation generation"
  require (!op.claimed || op.worker.isSome) "missing claimant"
  require (!(phase == .admitted || phase == .claimed) || (op.worker.isSome && op.write == .none))
    "invalid admission"
  require (phase != .claimed || op.claimed) "missing claim latch"
  require (phase != .done || (op.restored && op.write == .none)) "invalid restoration"

def validate (state : State) (uid policy : String) : Except Fault Unit := do
  require (state.schema == 1 && state.runner == 2 && state.uid == uid && text uid
    && state.policy == policy && 0 ≤ state.heartbeat) "invalid state identity or policy"
  validateGc state.gcHolder
  match state.operation with
  | none => require (state.phase == .idle || state.phase == .alert) "missing operation"
  | some op => validateOperation sha256 op state.phase policy

end Hash

@[simp] theorem require_eq_ok {b : Bool} {reason : String} :
    require b reason = .ok () ↔ b = true := by
  cases b <;> simp [require]

/-- A pod identity the source accepts in `ns`. -/
structure Identity.Valid (i : Identity) (ns : String) : Prop where
  ok : identity i = .ok ()
  ns_eq : i.ns = ns

/-- The part of `validateOperation` that does not look at the phase. -/
structure Operation.WellFormed (sha256 : String → String) (op : Operation) (policy : String) :
    Prop where
  coordinator : op.coordinator.Valid controlNamespace
  worker : ∀ w, op.worker = some w → w.Valid workerNamespace
  holder : ∀ h, op.holder = some h → h.Valid controlNamespace
  baseline : op.baseline = false
  restoreRequired : op.restoreRequired = true
  slot : op.slot % 3600 = 47 * 60
  drainBy : op.drainBy = op.slot + 1200
  cleanupBy : op.cleanupBy = op.slot + 1800
  recoverBy : op.recoverBy = op.slot + 2700
  outcome : text op.outcome = true
  id : op.id = generation sha256 op.slot op.coordinator.uid policy
  claimant : op.claimed = true → op.worker.isSome = true

/-- The part of `validateOperation` that does. -/
structure Operation.Fits (op : Operation) (phase : Phase) : Prop where
  admission : phase = .admitted ∨ phase = .claimed → op.worker.isSome = true ∧ op.write = .none
  latch : phase = .claimed → op.claimed = true
  restoration : phase = .done → op.restored = true ∧ op.write = .none

section Validity

variable {sha256 : String → String}

private theorem seq_ok {m : Except Fault Unit} {n : Except Fault Unit} :
    (m >>= fun _ => n) = .ok () ↔ m = .ok () ∧ n = .ok () := by
  cases m <;> simp [bind, Except.bind]

private theorem forM_ok {α : Type} {o : Option α} {f : α → Except Fault Unit} :
    o.forM f = .ok () ↔ ∀ a, o = some a → f a = .ok () := by
  cases o <;> simp [Option.forM, pure, Except.pure]

theorem validateOperation_eq_ok {op : Operation} {phase : Phase} {policy : String} :
    validateOperation sha256 op phase policy = .ok () ↔
      op.WellFormed sha256 policy ∧ op.Fits phase := by
  simp only [validateOperation, seq_ok, forM_ok, require_eq_ok]
  constructor
  · rintro ⟨hc, hw, hh, hns, hval, hid, hclaim, hadm, hlatch, hdone⟩
    simp only [Bool.and_eq_true, beq_iff_eq, Option.all_eq_true] at hns hval
    obtain ⟨⟨hcns, hwns⟩, hhns⟩ := hns
    obtain ⟨⟨⟨⟨⟨⟨hb, hr⟩, hslot⟩, hd⟩, hcl⟩, hrec⟩, hout⟩ := hval
    refine ⟨⟨⟨hc, hcns⟩, fun w h => ⟨hw w h, hwns w (by simp [h])⟩,
      fun h hh' => ⟨hh h hh', hhns h (by simp [hh'])⟩, hb, hr, hslot, hd, hcl, hrec, hout,
      by simpa using hid, fun hcl => by simpa [hcl] using hclaim⟩, ⟨?_, ?_, ?_⟩⟩
    · rintro (rfl | rfl) <;> simpa using hadm
    · rintro rfl
      simpa using hlatch
    · rintro rfl
      simpa using hdone
  · rintro ⟨h, hf⟩
    refine ⟨h.coordinator.ok, fun w hw => (h.worker w hw).ok, fun k hk => (h.holder k hk).ok,
      ?_, ?_, by simpa using h.id, ?_, ?_, ?_, ?_⟩
    · simp only [Bool.and_eq_true, beq_iff_eq, Option.all_eq_true]
      exact ⟨⟨h.coordinator.ns_eq, fun w hw => (h.worker w (by simpa using hw)).ns_eq⟩,
        fun k hk => (h.holder k (by simpa using hk)).ns_eq⟩
    · simp [h.baseline, h.restoreRequired, h.slot, h.drainBy, h.cleanupBy, h.recoverBy, h.outcome]
    · have := h.claimant
      cases hcl : op.claimed <;> simp_all
    · have := hf.admission
      cases phase <;> simp_all
    · have := hf.latch
      cases phase <;> simp_all
    · have := hf.restoration
      cases phase <;> simp_all

theorem validateGc_eq_ok {gc : Option GcHolder} :
    validateGc gc = .ok () ↔
      ∀ g, gc = some g → 0 ≤ g.claimedAt ∧ g.identity.Valid workerNamespace := by
  cases gc with
  | none => simp [validateGc]
  | some g =>
    simp only [validateGc, seq_ok, require_eq_ok, decide_eq_true_eq, beq_iff_eq, Option.some.injEq,
      forall_eq']
    exact ⟨fun ⟨h, hi, hn⟩ => ⟨h, hi, hn⟩, fun ⟨h, hv⟩ => ⟨h, hv.ok, hv.ns_eq⟩⟩

/-- `validate` accepts exactly the documents with these fields. -/
structure State.Valid (sha256 : String → String) (state : State) (uid policy : String) : Prop where
  schema : state.schema = 1
  runner : state.runner = 2
  uid_eq : state.uid = uid
  uid_text : text uid = true
  policy_eq : state.policy = policy
  heartbeat : 0 ≤ state.heartbeat
  gc : ∀ g, state.gcHolder = some g → 0 ≤ g.claimedAt ∧ g.identity.Valid workerNamespace
  missing : state.operation = none → state.phase = .idle ∨ state.phase = .alert
  operation : ∀ op, state.operation = some op → op.WellFormed sha256 policy ∧ op.Fits state.phase

theorem validate_eq_ok {state : State} {uid policy : String} :
    validate sha256 state uid policy = .ok () ↔ state.Valid sha256 uid policy := by
  simp only [validate, seq_ok, require_eq_ok, validateGc_eq_ok]
  constructor
  · rintro ⟨hfields, hgc, hop⟩
    simp only [Bool.and_eq_true, beq_iff_eq, decide_eq_true_eq] at hfields
    obtain ⟨⟨⟨⟨⟨hs, hr⟩, hu⟩, ht⟩, hp⟩, hh⟩ := hfields
    refine ⟨hs, hr, hu, ht, hp, hh, hgc, fun hnone => ?_, fun op hsome => ?_⟩
    · simpa [hnone] using hop
    · rw [hsome] at hop
      exact validateOperation_eq_ok.mp hop
  · intro h
    refine ⟨?_, h.gc, ?_⟩
    · simp [h.schema, h.runner, h.uid_eq, h.uid_text, h.policy_eq, h.heartbeat]
    · cases hop : state.operation with
      | none => simpa using h.missing hop
      | some op => exact validateOperation_eq_ok.mpr (h.operation op hop)

end Validity

/-! ## The text names its slot -/

private theorem cut_at_colon {l₁ l₂ r₁ r₂ : List Char} (h₁ : ':' ∉ l₁) (h₂ : ':' ∉ l₂)
    (h : l₁ ++ ':' :: r₁ = l₂ ++ ':' :: r₂) : l₁ = l₂ := by
  induction l₁ generalizing l₂ with
  | nil =>
    cases l₂ with
    | nil => rfl
    | cons b l₂ =>
      simp only [List.nil_append, List.cons_append, List.cons.injEq] at h
      exact absurd (h.1 ▸ List.mem_cons_self) h₂
  | cons a l₁ ih =>
    cases l₂ with
    | nil =>
      simp only [List.nil_append, List.cons_append, List.cons.injEq] at h
      exact absurd (h.1 ▸ List.mem_cons_self) h₁
    | cons b l₂ =>
      simp only [List.cons_append, List.cons.injEq] at h
      have h₁' : ':' ∉ l₁ := fun hm => h₁ (List.mem_cons_of_mem _ hm)
      have h₂' : ':' ∉ l₂ := fun hm => h₂ (List.mem_cons_of_mem _ hm)
      rw [h.1, ih h₁' h₂' h.2]

private theorem colon_notMem_repr (n : Nat) : ':' ∉ (Nat.repr n).toList := by
  intro h
  have hmem : ':' ∈ Nat.toDigits 10 n := by simpa [Nat.repr] using h
  have hdigit := Nat.isDigit_of_mem_toDigits (by decide) (by decide) hmem
  revert hdigit
  decide

private theorem colon_notMem_toString (a : Int) : ':' ∉ (toString a).toList := by
  cases a with
  | ofNat n => exact colon_notMem_repr n
  | negSucc n =>
    intro h
    have hneg : toString (Int.negSucc n) = "-" ++ Nat.repr (n + 1) := rfl
    rw [hneg, String.toList_append] at h
    rcases List.mem_append.mp h with h | h
    · revert h
      decide
    · exact colon_notMem_repr _ h

theorem slot_of_generationText {slot slot' : Int} {uid uid' policy policy' : String}
    (h : generationText slot uid policy = generationText slot' uid' policy') : slot = slot' := by
  have hlist := congrArg String.toList h
  simp only [generationText, String.toList_append, List.append_assoc] at hlist
  have hcut := cut_at_colon (colon_notMem_toString slot) (colon_notMem_toString slot') hlist
  exact Int.repr_injective (String.toList_inj.mp hcut)

end ClusterState.Admission
