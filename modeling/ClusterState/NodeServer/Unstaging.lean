import ClusterState.NodeServer.Handling

/-! # What an unstage leaves at the mount service

An unmount that `csi-node` has seen succeed leaves no entry, unless a mount of the
volume that `csi-node` has given up on is still under way. The other ways to an
unstaged volume leave what the mount service has.
-/

namespace ClusterState.NodeServer.Daemons

open Concurrency

open MountManager (Deployment NoPut vacating Vacates)

/-! ## Under the lock -/

section Handlers

variable {driver : Driver} {d : Deployment} {A : Steps} {v : String} {s : Daemons}

theorem interp_withLock {body : Api Unit} :
    (withLock v body).interp (carryOut driver) = body.interp (carryOut driver) := by
  have hlocked : (withLock v body).interp (carryOut driver) =
      (body.attempt >>= fun result =>
        .ask (.unlock v 0) fun _ => Program.ofExcept result).interp (carryOut driver) := rfl
  have hresult : ∀ result : Except Status Unit,
      (.ask (.unlock v 0) fun _ => Program.ofExcept result : Api Unit).interp (carryOut driver) =
        Program.ofExcept result := by
    intro result
    cases result <;> rfl
  rw [hlocked, Program.interp_bind, Program.interp_attempt returns_carryOut, funext hresult,
    Program.attempt_bind_ofExcept]

theorem serves_require_bind {α : Type} {K : α → Prop} {ok : Prop} [Decidable ok] {code : Code}
    {message : String} {p : Api α} (hp : Serves driver d A K p) :
    Serves driver d A K (require ok code message >>= fun _ => p) := by
  unfold require
  split
  · exact hp
  · exact serves_throw

theorem serves_withLock {body : Api Unit} (hbody : Serves driver d A (fun _ => True) body) :
    Serves driver d A (fun _ => True) (withLock v body) := by
  unfold Serves
  rw [interp_withLock]
  exact hbody

/-- An unstage that goes through leaves the volume vacant. -/
theorem meets_unstageLocked (req : NodeUnstageVolumeRequest) (s : Daemons) :
    (discipline driver d A).Meets ⟨⟩
      (fun _ t => A.Meet (ThoroughUnmounts d) → t.Vacant d req.volumeId) (fun _ _ => True)
      ((unstageLocked req).interp (carryOut driver)) s := by
  have hend : ∀ (a : Action) (t : Daemons), (∀ t, Permitted d A a t) →
      (∀ x, after a x = id ∨ ∃ v, a = .node (.delete v)) →
      (A.Meet (ThoroughUnmounts d) → t.Vacant d req.volumeId) →
      (discipline driver d A).Meets ⟨⟩
        (fun _ t => A.Meet (ThoroughUnmounts d) → t.Vacant d req.volumeId) (fun _ _ => True)
        (act a) t := by
    intro a t ha hafter ht t₁ hrely _
    refine ⟨ha t₁, fun x t₂ hperforms hthorough => ?_⟩
    obtain ⟨-, -, rfl⟩ := hperforms
    have ht₁ := rely_vacant hrely (ht hthorough)
    rcases hafter x with hid | ⟨v, rfl⟩
    · rw [hid]
      exact ht₁
    · exact ht₁
  intro t hrely hinv
  refine ⟨trivial, fun volume t₁ hperforms => ?_⟩
  obtain ⟨-, hvolume, rfl⟩ := hperforms
  cases volume with
  | none =>
    intro t₂ _ _
    refine ⟨trivial, fun _ t₃ _ => ?_⟩
    exact (meets_delegateUnmount t₃).bind fun _ t₄ ht₄ =>
      hend (.node (.removeVolumeMutex req.volumeId)) t₄ (fun _ => trivial) (fun _ => .inl rfl) ht₄
  | some volume =>
    refine (meets_volumeUnstage volume req.stagingTargetPath _).bind fun result t₂ ht₂ => ?_
    cases result with
    | error err => trivial
    | ok _ =>
      have hname : volume.volumeId = req.volumeId := hinv.named _ _ hvolume.symm
      rw [hname] at ht₂
      have hvacant := fun hthorough => ht₂ rfl (ThoroughUnmounts.careful hthorough)
      refine (hend (.node (.delete req.volumeId)) t₂ (fun _ => trivial) (fun _ => .inr ⟨_, rfl⟩)
        hvacant).bind fun _ t₃ ht₃ => ?_
      exact hend (.node (.removeVolumeMutex req.volumeId)) t₃ (fun _ => trivial)
        (fun _ => .inl rfl) ht₃

theorem meets_nodeUnstageVolume (req : NodeUnstageVolumeRequest) (s : Daemons) :
    (discipline driver d A).Meets ⟨⟩
      (fun _ t => A.Meet (ThoroughUnmounts d) → t.Vacant d req.volumeId) (fun _ _ => True)
      ((nodeUnstageVolume req).interp (carryOut driver)) s := by
  unfold nodeUnstageVolume require
  split
  · split
    · change (discipline driver d A).Meets _ _ _ ((withLock _ _).interp (carryOut driver)) s
      rw [interp_withLock]
      exact meets_unstageLocked req s
    · trivial
  · trivial

theorem meets_serveCall (call : Call) (s : Daemons) : (discipline driver d A).Meets ⟨⟩
    (fun _ _ => True) (fun _ _ => True) (serveCall driver call) s := by
  have hreply : ∀ {call : Call} (result : Except Status Unit) (t : Daemons),
      (∀ t', (discipline driver d A).Rely ⟨⟩ t t' → Permitted d A (.reply call result) t') →
      (discipline driver d A).Meets ⟨⟩ (fun _ _ => True) (fun _ _ => True)
        (act (.reply call result)) t :=
    fun _ _ h t' hrely _ => ⟨h t' hrely, fun _ _ _ => trivial⟩
  have hother : ∀ {call : Call}, (∀ req, call ≠ .nodeUnstageVolume req) →
      Serves driver d A (fun _ => True) (serve call) →
      (discipline driver d A).Meets ⟨⟩ (fun _ _ => True) (fun _ _ => True)
        (serveCall driver call) s := by
    intro call hcall hserves
    refine (hserves s).attempt.bind fun result t _ => hreply result t fun t' _ => ?_
    cases call with
    | nodeUnstageVolume req => exact absurd rfl (hcall req)
    | _ => trivial
  cases call with
  | nodeStageVolume req =>
    exact hother nofun (serves_require_bind (serves_require_bind (serves_require_bind
      (serves_withLock (serves_stageLocked req)))))
  | nodePublishVolume req =>
    exact hother nofun (serves_require_bind (serves_require_bind (serves_require_bind
      (serves_require_bind (serves_withLock (serves_publishLocked req))))))
  | nodeUnpublishVolume req =>
    exact hother nofun (serves_require_bind (serves_require_bind
      (serves_withLock (serves_unpublishLocked req))))
  | nodeExpandVolume req =>
    exact hother nofun (serves_require_bind (serves_require_bind
      (serves_withLock (serves_expandLocked req))))
  | nodeUnstageVolume req =>
    refine (meets_nodeUnstageVolume req s).attempt.bind fun result t hresult => ?_
    refine hreply result t fun t' hrely => ?_
    rcases hresult with ⟨_, rfl, hvacant⟩ | ⟨err, rfl, -⟩
    · exact fun hthorough => rely_vacant hrely (hvacant hthorough)
    · trivial

end Handlers

/-! ## Sessions of `csi-node` -/

def Reachable (driver : Driver) (d : Deployment) (A : Steps) (c : Csi.Session) : Prop :=
  ((node driver d).under A).Reachable (start d) c

section Sessions

variable {driver : Driver} {d : Deployment} {A : Steps} {c : Csi.Session}

theorem inv_start : Inv d (start d) where
  unsent _ _ := rfl
  spares := by
    intro v i hlive _
    cases i with
    | request n => cases hlive
    | waiter p => exact MountManager.noPut_wait
  answered := nofun
  named := by
    intro v volume h
    rw [start, AList.lookup_empty] at h
    cases h

theorem follows : ((node driver d).under A).Follows (discipline driver d A) where
  system_eq := rfl
  serves call s _ := meets_serveCall call s
  restarts _ h := by
    refine ⟨h.unsent, h.spares, h.answered, fun v volume hlookup => ?_⟩
    change (∅ : AList (fun _ : String => Volume)).lookup v = some volume at hlookup
    rw [AList.lookup_empty] at hlookup
    cases hlookup

theorem Reachable.sound (h : Reachable driver d A c) : Server.Sound (discipline driver d A) c :=
  follows.reachable inv_start h

theorem Reachable.permitted (h : Reachable driver d A c) {a : Action} {next : a.Value → Csi Unit}
    (hask : c.current = .ask a next) : Permitted d A a c.shared :=
  h.sound.guard hask

theorem sent_eq {s s' : Daemons} (h : Relation.ReflTransGen (Proceeds d) s s') :
    s'.sent = s.sent := by
  induction h with
  | refl => rfl
  | tail _ hstep ih =>
    cases hstep with
    | works run hstep => exact ih
    | replies n result next hsent hask => exact ih

theorem after_sent {a : Action} {x : a.Value} {s : Daemons} (hx : s.Answers d a x) :
    (after a x s).service = s.service ∧ s.sent ⊆ (after a x s).sent := by
  unfold after
  split
  case h_3 call n => exact ⟨rfl, List.subset_cons_self n s.sent⟩
  all_goals exact ⟨rfl, List.Subset.refl _⟩

/-- A vacant volume stays so until another Mount of it is sent. -/
theorem Vacant.steps {v : String} {c' : Csi.Session} (h : c.shared.Vacant d v)
    (hsound : Server.Sound (discipline driver d A) c)
    (hsteps : Relation.ReflTransGen ((node driver d).under A).Step c c')
    (hsent : ∀ n ∈ c'.shared.sent, Mounts d v n → n ∈ c.shared.sent) :
    c'.shared.Vacant d v ∧ c.shared.sent ⊆ c'.shared.sent := by
  induction hsteps with
  | refl => exact ⟨h, List.Subset.refl _⟩
  | @tail c₁ c₂ hsteps hstep ih =>
    have hinv : Inv d c₁.shared := (follows.steps hsound hsteps).1
    cases hstep with
    | call k hidle => exact ih hsent
    | restart => exact ih hsent
    | env s henv =>
      have hsame : s.sent = c₁.shared.sent := sent_eq henv
      change ∀ n ∈ s.sent, Mounts d v n → n ∈ c.shared.sent at hsent
      rw [hsame] at hsent
      obtain ⟨hvacant, hsub⟩ := ih hsent
      refine ⟨?_, hsame ▸ hsub⟩
      exact (keeps_of_proceeds (fun _ _ hinv hstep h => h.proceeds hinv hstep) hinv hvacant henv).2
    | act a next x s hask hperforms =>
      obtain ⟨-, hx, rfl⟩ := hperforms
      obtain ⟨hservice, hgrows⟩ := after_sent hx
      obtain ⟨hvacant, hsub⟩ := ih fun n hn => hsent n (hgrows hn)
      refine ⟨⟨?_, fun n hn hmounts => ?_⟩, fun n hn => hgrows (hsub hn)⟩
      · rw [mountOf, hservice]
        exact hvacant.1
      · rw [hservice]
        exact hvacant.2 n (hsub (hsent n hn hmounts)) hmounts

end Sessions

end ClusterState.NodeServer.Daemons
