import ClusterState.Concurrency.RelyGuarantee

/-! # A lock per key

A table of mutexes, one for each key, created when a key is first asked for. A
caller looks the mutex up, locks it, does its work and unlocks it; a key can be
deleted from the table at any time, and the mutex then lives on with those who
looked it up before. Two callers of one key exclude each other as long as no
mutex is created while the key still has callers.
-/

namespace ClusterState.Concurrency

/-- A thread that has looked up the mutex of a key and not unlocked it yet. -/
structure LockUse (Key Tid : Type) where
  thread : Tid
  key : Key
  mutex : Nat
  deriving DecidableEq, Repr

structure KeyedLock (Key Tid : Type) where
  table : Key → Option Nat
  /-- The first mutex not created yet. -/
  next : Nat
  locked : Nat → Bool
  waiting : List (LockUse Key Tid)
  holding : List (LockUse Key Tid)

namespace KeyedLock

variable {Key Tid : Type}

def empty : KeyedLock Key Tid := ⟨fun _ => none, 0, fun _ => false, [], []⟩

def mutexOf (l : KeyedLock Key Tid) (k : Key) : Nat := (l.table k).getD l.next

/-- The uses that are still open: looked up, locked or not, and not unlocked. -/
def uses (l : KeyedLock Key Tid) : List (LockUse Key Tid) := l.waiting ++ l.holding

/-- At most one thread is between its lock and its unlock of a key. -/
def Exclusive (l : KeyedLock Key Tid) : Prop :=
  ∀ u ∈ l.holding, ∀ u' ∈ l.holding, u.key = u'.key → u.thread = u'.thread

structure Tidy (l : KeyedLock Key Tid) : Prop where
  locked : ∀ u ∈ l.holding, l.locked u.mutex = true
  once : (l.holding.map LockUse.mutex).Nodup

/-- All open uses of a key are of one mutex, the one in the table if there is one. -/
structure Coherent (l : KeyedLock Key Tid) : Prop where
  same : ∀ u ∈ l.uses, ∀ u' ∈ l.uses, u.key = u'.key → u.mutex = u'.mutex
  current : ∀ u ∈ l.uses, ∀ m, l.table u.key = some m → u.mutex = m

structure Numbered (l : KeyedLock Key Tid) : Prop where
  table : ∀ k m, l.table k = some m → m < l.next
  waiting : ∀ u ∈ l.waiting, u.mutex < l.next
  locked : ∀ m, l.locked m = true → m < l.next

theorem numbered_empty : (empty : KeyedLock Key Tid).Numbered := by
  constructor <;> simp [empty]

theorem tidy_empty : (empty : KeyedLock Key Tid).Tidy := by
  constructor <;> simp [empty]

theorem coherent_empty : (empty : KeyedLock Key Tid).Coherent := by
  constructor <;> simp [empty, uses]

theorem exclusive_of_coherent {l : KeyedLock Key Tid} (htidy : l.Tidy) (hcoherent : l.Coherent) :
    l.Exclusive := by
  intro u hu u' hu' hkey
  have hmutex : u.mutex = u'.mutex :=
    hcoherent.same u (List.mem_append_right _ hu) u' (List.mem_append_right _ hu') hkey
  rw [List.inj_on_of_nodup_map htidy.once hu hu' hmutex]

section Operations

variable [DecidableEq Key] [DecidableEq Tid]

def get (l : KeyedLock Key Tid) (i : Tid) (k : Key) : KeyedLock Key Tid where
  table := Function.update l.table k (some (l.mutexOf k))
  next := if l.table k = none then l.next + 1 else l.next
  locked := l.locked
  waiting := ⟨i, k, l.mutexOf k⟩ :: l.waiting
  holding := l.holding

def lock (l : KeyedLock Key Tid) (i : Tid) (k : Key) (m : Nat) : KeyedLock Key Tid :=
  { l with
    locked := Function.update l.locked m true
    waiting := l.waiting.erase ⟨i, k, m⟩
    holding := ⟨i, k, m⟩ :: l.holding }

def unlock (l : KeyedLock Key Tid) (i : Tid) (k : Key) (m : Nat) : KeyedLock Key Tid :=
  { l with
    locked := Function.update l.locked m false
    holding := l.holding.erase ⟨i, k, m⟩ }

def delete (l : KeyedLock Key Tid) (k : Key) : KeyedLock Key Tid :=
  { l with table := Function.update l.table k none }

def FreshGet (l : KeyedLock Key Tid) (k : Key) : Prop :=
  l.table k = none → ∀ u ∈ l.uses, u.key ≠ k

instance (l : KeyedLock Key Tid) (k : Key) : Decidable (l.FreshGet k) :=
  inferInstanceAs (Decidable (_ → _))

variable {l : KeyedLock Key Tid} {i : Tid} {k : Key} {m : Nat}

theorem mem_uses_lock {u : LockUse Key Tid} (hwaiting : ⟨i, k, m⟩ ∈ l.waiting)
    (hu : u ∈ (l.lock i k m).uses) : u ∈ l.uses := by
  rcases List.mem_append.mp hu with hu | hu
  · exact List.mem_append_left _ (List.mem_of_mem_erase hu)
  · rcases List.mem_cons.mp hu with rfl | hu
    · exact List.mem_append_left _ hwaiting
    · exact List.mem_append_right _ hu

theorem mem_uses_unlock {u : LockUse Key Tid} (hu : u ∈ (l.unlock i k m).uses) : u ∈ l.uses := by
  rcases List.mem_append.mp hu with hu | hu
  · exact List.mem_append_left _ hu
  · exact List.mem_append_right _ (List.mem_of_mem_erase hu)

omit [DecidableEq Key] [DecidableEq Tid] in
theorem Coherent.mutexOf_eq (h : l.Coherent) (hfresh : l.FreshGet k) {u : LockUse Key Tid}
    (hu : u ∈ l.uses) (hkey : u.key = k) : u.mutex = l.mutexOf k := by
  cases htable : l.table k with
  | none => exact absurd hkey (hfresh htable u hu)
  | some m =>
    subst hkey
    rw [h.current u hu m htable, mutexOf, htable, Option.getD_some]

omit [DecidableEq Tid] in
theorem Coherent.get (h : l.Coherent) (hfresh : l.FreshGet k) : (l.get i k).Coherent := by
  have hmem : ∀ u ∈ (l.get i k).uses, u = ⟨i, k, l.mutexOf k⟩ ∨ u ∈ l.uses := fun u hu =>
    List.mem_cons.mp hu
  constructor
  · intro u hu u' hu' hkey
    rcases hmem u hu with rfl | hu <;> rcases hmem u' hu' with rfl | hu'
    · rfl
    · exact (h.mutexOf_eq hfresh hu' hkey.symm).symm
    · exact h.mutexOf_eq hfresh hu hkey
    · exact h.same u hu u' hu' hkey
  · intro u hu m hm
    by_cases hkey : u.key = k
    · have hmutex : u.mutex = l.mutexOf k := by
        rcases hmem u hu with rfl | hu
        · rfl
        · exact h.mutexOf_eq hfresh hu hkey
      rw [hkey] at hm
      simpa [KeyedLock.get, hmutex] using hm
    · have hold : u ∈ l.uses := by
        rcases hmem u hu with rfl | hu
        · exact absurd rfl hkey
        · exact hu
      apply h.current u hold m
      simpa [KeyedLock.get, hkey] using hm

theorem Coherent.lock (h : l.Coherent) (hwaiting : ⟨i, k, m⟩ ∈ l.waiting) :
    (l.lock i k m).Coherent := by
  constructor
  · intro u hu u' hu'
    exact h.same u (mem_uses_lock hwaiting hu) u' (mem_uses_lock hwaiting hu')
  · intro u hu
    exact h.current u (mem_uses_lock hwaiting hu)

theorem Coherent.unlock (h : l.Coherent) : (l.unlock i k m).Coherent := by
  constructor
  · intro u hu u' hu'
    exact h.same u (mem_uses_unlock hu) u' (mem_uses_unlock hu')
  · intro u hu
    exact h.current u (mem_uses_unlock hu)

omit [DecidableEq Tid] in
theorem Coherent.delete (h : l.Coherent) : (l.delete k).Coherent := by
  constructor
  · exact h.same
  · intro u hu m hm
    apply h.current u hu m
    by_cases hkey : u.key = k
    · rw [hkey] at hm
      simp [KeyedLock.delete] at hm
    · simpa [KeyedLock.delete, hkey] using hm

theorem Tidy.lock (h : l.Tidy) (hfree : l.locked m = false) : (l.lock i k m).Tidy := by
  have hnew : ∀ u ∈ l.holding, u.mutex ≠ m := by
    intro u hu heq
    have hlocked := h.locked u hu
    rw [heq, hfree] at hlocked
    cases hlocked
  constructor
  · intro u hu
    rcases List.mem_cons.mp hu with rfl | hu
    · simp [KeyedLock.lock]
    · simpa [KeyedLock.lock, hnew u hu] using h.locked u hu
  · refine List.nodup_cons.mpr ⟨?_, h.once⟩
    intro hmem
    obtain ⟨u, hu, hmutex⟩ := List.mem_map.mp hmem
    exact hnew u hu hmutex

theorem Tidy.unlock (h : l.Tidy) (hholding : ⟨i, k, m⟩ ∈ l.holding) : (l.unlock i k m).Tidy := by
  have hnodup : l.holding.Nodup := List.Nodup.of_map _ h.once
  constructor
  · intro u hu
    obtain ⟨hne, hu⟩ := (List.Nodup.mem_erase_iff hnodup).mp hu
    have hmutex : u.mutex ≠ m := fun heq =>
      hne (List.inj_on_of_nodup_map h.once hu hholding heq)
    simpa [KeyedLock.unlock, hmutex] using h.locked u hu
  · exact h.once.sublist ((List.erase_sublist).map _)

omit [DecidableEq Tid] in
theorem Numbered.get (h : l.Numbered) : (l.get i k).Numbered := by
  have hmutex : l.mutexOf k < (l.get i k).next := by
    cases htable : l.table k with
    | none => simp [KeyedLock.get, mutexOf, htable]
    | some m => simpa [KeyedLock.get, mutexOf, htable] using h.table k m htable
  have hnext : l.next ≤ (l.get i k).next := by
    rw [KeyedLock.get]
    dsimp only
    split <;> omega
  constructor
  · intro k' m hm
    by_cases hk : k' = k
    · subst hk
      obtain rfl : l.mutexOf k' = m := by simpa [KeyedLock.get] using hm
      exact hmutex
    · exact (h.table k' m (by simpa [KeyedLock.get, hk] using hm)).trans_le hnext
  · intro u hu
    rcases List.mem_cons.mp hu with rfl | hu
    · exact hmutex
    · exact (h.waiting u hu).trans_le hnext
  · exact fun m hm => (h.locked m hm).trans_le hnext

theorem Numbered.lock (h : l.Numbered) (hwaiting : ⟨i, k, m⟩ ∈ l.waiting) :
    (l.lock i k m).Numbered := by
  refine ⟨h.table, fun u hu => h.waiting u (List.mem_of_mem_erase hu), fun m' hm' => ?_⟩
  by_cases hm : m' = m
  · subst hm
    exact h.waiting _ hwaiting
  · exact h.locked m' (by simpa [KeyedLock.lock, hm] using hm')

theorem Numbered.unlock (h : l.Numbered) : (l.unlock i k m).Numbered := by
  refine ⟨h.table, h.waiting, fun m' hm' => ?_⟩
  by_cases hm : m' = m
  · simp [KeyedLock.unlock, hm] at hm'
  · exact h.locked m' (by simpa [KeyedLock.unlock, hm] using hm')

omit [DecidableEq Tid] in
theorem Numbered.delete (h : l.Numbered) : (l.delete k).Numbered := by
  refine ⟨fun k' m' hm' => ?_, h.waiting, h.locked⟩
  by_cases hk : k' = k
  · simp [KeyedLock.delete, hk] at hm'
  · exact h.table k' m' (by simpa [KeyedLock.delete, hk] using hm')

end Operations

end KeyedLock

/-! ## Programs that lock

Requests are those to the table and the program's own. -/

inductive LockRequest (Key Own : Type) where
  | get (k : Key)
  | lock (k : Key) (m : Nat)
  | unlock (k : Key) (m : Nat)
  | own (o : Own)

def LockRequest.Answer {Key Own : Type} (Value : Own → Type) : LockRequest Key Own → Type
  | .get _ => Nat
  | .lock _ _ => Unit
  | .unlock _ _ => Unit
  | .own o => Value o

section WithLock

variable {Key Own Tid S ε α : Type} {Value : Own → Type}

/-- The body runs under the lock of its key, which is released however it ends. -/
def withLock (k : Key) (body : Program (LockRequest Key Own) (LockRequest.Answer Value) ε α) :
    Program (LockRequest Key Own) (LockRequest.Answer Value) ε α :=
  .ask (.get k) fun m =>
  .ask (.lock k m) fun _ =>
  body.attempt >>= fun r =>
  .ask (.unlock k m) fun _ =>
  .ofExcept r

def KeyedLock.Held (l : KeyedLock Key Tid) (F : List (LockUse Key Tid)) : Prop :=
  ∀ u ∈ F, u ∈ l.holding

variable [DecidableEq Key] [DecidableEq Tid]

/-- The lock requests act on the table `locks` of the shared state, and nothing
else touches its uses. -/
structure Discipline.Locking
    (D : Discipline Tid (LockRequest Key Own) (LockRequest.Answer Value) S)
    (locks : S → KeyedLock Key Tid) (set : S → KeyedLock Key Tid → S) : Prop where
  locks_set : ∀ s l, locks (set s l) = l
  tidy : ∀ s, D.inv s → (locks s).Tidy
  guard_get : ∀ i k s, D.guard i (.get k) s
  guard_lock : ∀ i k m s, D.guard i (.lock k m) s ↔ ⟨i, k, m⟩ ∈ (locks s).waiting
  guard_unlock : ∀ i k m s, D.guard i (.unlock k m) s ↔ ⟨i, k, m⟩ ∈ (locks s).holding
  performs_get : ∀ i k s (m : Nat) s', D.performs i (.get k) s m s' →
    m = (locks s).mutexOf k ∧ s' = set s ((locks s).get i k)
  performs_lock : ∀ i k m s x s', D.performs i (.lock k m) s x s' →
    (locks s).locked m = false ∧ s' = set s ((locks s).lock i k m)
  performs_unlock : ∀ i k m s x s', D.performs i (.unlock k m) s x s' →
    s' = set s ((locks s).unlock i k m)
  performs_own : ∀ i o s x s', D.performs i (.own o) s x s' →
    (locks s').waiting = (locks s).waiting ∧ (locks s').holding = (locks s).holding
  env : ∀ s s', D.env s s' → locks s' = locks s
  quiet_own : ∀ i r, D.quiet i r → ∃ o, r = .own o

namespace Discipline.Locking

variable {D : Discipline Tid (LockRequest Key Own) (LockRequest.Answer Value) S}
  {locks : S → KeyedLock Key Tid} {set : S → KeyedLock Key Tid → S} {i : Tid}

theorem stable_use (L : D.Locking locks set) {u : LockUse Key Tid} (hu : u.thread = i) :
    D.Stable i (fun s => u ∈ (locks s).waiting) ∧ D.Stable i (fun s => u ∈ (locks s).holding) := by
  have hne : ∀ {j : Tid} {k : Key} {m : Nat}, j ≠ i → u ≠ ⟨j, k, m⟩ := by
    rintro j k m hj rfl
    exact hj hu
  have hstep : ∀ s s', D.Interferes i s s' →
      (u ∈ (locks s).waiting → u ∈ (locks s').waiting) ∧
        (u ∈ (locks s).holding → u ∈ (locks s').holding) := by
    rintro s s' ⟨_, henv | ⟨j, r, x, hj, _, hp⟩⟩
    · rw [L.env s s' henv]
      exact ⟨id, id⟩
    · cases r with
      | own o =>
        obtain ⟨hwaiting, hholding⟩ := L.performs_own j o s x s' hp
        rw [hwaiting, hholding]
        exact ⟨id, id⟩
      | get k =>
        obtain ⟨-, rfl⟩ := L.performs_get j k s x s' hp
        rw [L.locks_set]
        exact ⟨List.mem_cons_of_mem _, id⟩
      | lock k m =>
        have hji : j ≠ i := hj.resolve_right fun hquiet => by
          obtain ⟨o, ho⟩ := L.quiet_own j _ hquiet
          cases ho
        obtain ⟨-, rfl⟩ := L.performs_lock j k m s x s' hp
        rw [L.locks_set]
        exact ⟨(List.mem_erase_of_ne (hne hji)).mpr, List.mem_cons_of_mem _⟩
      | unlock k m =>
        have hji : j ≠ i := hj.resolve_right fun hquiet => by
          obtain ⟨o, ho⟩ := L.quiet_own j _ hquiet
          cases ho
        obtain rfl := L.performs_unlock j k m s x s' hp
        rw [L.locks_set]
        exact ⟨id, (List.mem_erase_of_ne (hne hji)).mpr⟩
  exact ⟨fun s s' h => (hstep s s' h).1, fun s s' h => (hstep s s' h).2⟩

theorem stable_held (L : D.Locking locks set) {F : List (LockUse Key Tid)}
    (hF : ∀ u ∈ F, u.thread = i) : D.Stable i (fun s => (locks s).Held F) :=
  fun s s' h hs u hu => (L.stable_use (hF u hu)).2 s s' h (hs u hu)

/-- The body of a locked section may count on its own lock next to those `F`
the thread already holds, and must not lose any of them. -/
theorem meets_withLock (L : D.Locking locks set) {k : Key} {F : List (LockUse Key Tid)}
    (hF : ∀ u ∈ F, u.thread = i) {P : S → Prop} {Q : α → S → Prop}
    {body : Program (LockRequest Key Own) (LockRequest.Answer Value) ε α}
    (hP : D.Stable i P) (hPset : ∀ s l, P s → P (set s l))
    (hQ : ∀ a, D.Stable i (Q a)) (hQset : ∀ a s l, Q a s → Q a (set s l))
    (hbody : ∀ m s, (locks s).Held (⟨i, k, m⟩ :: F) → P s →
      D.Meets i (fun a s => (locks s).Held (⟨i, k, m⟩ :: F) ∧ Q a s)
        (fun _ s => (locks s).Held (⟨i, k, m⟩ :: F)) body s)
    {s : S} (hheld : (locks s).Held F) (hs : P s) :
    D.Meets i (fun a s => (locks s).Held F ∧ Q a s) (fun _ s => (locks s).Held F)
      (withLock k body) s := by
  have hstable := (L.stable_held hF).and hP
  intro s₁ hrely₁ hinv₁
  refine ⟨L.guard_get i k s₁, fun m s₂ hget => ?_⟩
  obtain ⟨hheld₁, hs₁⟩ := hstable.rely hrely₁ ⟨hheld, hs⟩
  obtain ⟨hm, rfl⟩ := L.performs_get i k s₁ m s₂ hget
  have hwaiting : (⟨i, k, m⟩ : LockUse Key Tid) ∈ (locks (set s₁ ((locks s₁).get i k))).waiting := by
    rw [L.locks_set, hm]
    exact List.mem_cons_self
  have hheld₂ : (locks (set s₁ ((locks s₁).get i k))).Held F := by
    rw [L.locks_set]
    exact hheld₁
  intro s₃ hrely₃ hinv₃
  have hwaiting₃ := (L.stable_use rfl).1.rely hrely₃ hwaiting
  obtain ⟨hheld₃, hs₃⟩ := hstable.rely hrely₃ ⟨hheld₂, hPset _ _ hs₁⟩
  refine ⟨(L.guard_lock i k m s₃).mpr hwaiting₃, fun x s₄ hlock => ?_⟩
  obtain ⟨hfree, rfl⟩ := L.performs_lock i k m s₃ x s₄ hlock
  -- the mutex is free, so it is none of those the thread already holds
  have hnew : ∀ u ∈ F, u ≠ ⟨i, k, m⟩ := by
    rintro u hu rfl
    have hlocked := (L.tidy s₃ hinv₃).locked _ (hheld₃ _ hu)
    rw [hfree] at hlocked
    cases hlocked
  have hheld₄ : (locks (set s₃ ((locks s₃).lock i k m))).Held (⟨i, k, m⟩ :: F) := by
    rw [L.locks_set]
    intro u hu
    rcases List.mem_cons.mp hu with rfl | hu
    · exact List.mem_cons_self
    · exact List.mem_cons_of_mem _ (hheld₃ u hu)
  have hF' : ∀ u ∈ (⟨i, k, m⟩ :: F : List (LockUse Key Tid)), u.thread = i := by
    intro u hu
    rcases List.mem_cons.mp hu with rfl | hu
    · rfl
    · exact hF u hu
  refine .bind (.attempt (hbody m _ hheld₄ (hPset _ _ hs₃))) ?_
  intro r s₅ hr s₆ hrely₆ _
  have hheld₅ : (locks s₅).Held (⟨i, k, m⟩ :: F) := by
    rcases hr with ⟨a, -, hheld₅, -⟩ | ⟨e, -, hheld₅⟩ <;> exact hheld₅
  have hheld₆ := (L.stable_held hF').rely hrely₆ hheld₅
  refine ⟨(L.guard_unlock i k m s₆).mpr (hheld₆ _ List.mem_cons_self), fun y s₇ hunlock => ?_⟩
  obtain rfl := L.performs_unlock i k m s₆ y s₇ hunlock
  have hheld₇ : (locks (set s₆ ((locks s₆).unlock i k m))).Held F := by
    rw [L.locks_set]
    intro u hu
    exact (List.mem_erase_of_ne (hnew u hu)).mpr (hheld₆ u (List.mem_cons_of_mem _ hu))
  rcases hr with ⟨a, rfl, -, hQa⟩ | ⟨e, rfl, -⟩
  · exact ⟨hheld₇, hQset a _ _ ((hQ a).rely hrely₆ hQa)⟩
  · exact hheld₇

end Discipline.Locking

end WithLock

end ClusterState.Concurrency
