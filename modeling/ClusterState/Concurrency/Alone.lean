import ClusterState.Concurrency.Evaluation
import ClusterState.Concurrency.Sessions

/-! # A program without company

Nothing happens between the requests of a program that has its state to itself.
What is true before a request is then all that matters for its answer.
-/

namespace ClusterState.Concurrency

universe u v w

variable {Req : Type u} {Resp : Req → Type v} {ε α S : Type w}

/-- A program is followed by another one, however it ends. -/
def Program.finallyDo (m : Program Req Resp ε α) (last : Program Req Resp ε PUnit) :
    Program Req Resp ε α := do
  let result ← m.attempt
  last
  Program.ofExcept result

theorem Program.eval_finallyDo {respond : (r : Req) → S → Option (Resp r × S)} {R : S → Prop}
    (hR : ∀ r y s s', respond r s = some (y, s') → R s → R s') {m : Program Req Resp ε α}
    {last : Program Req Resp ε PUnit} {s : S} (hm : R (m.eval respond s).2) :
    R ((m.finallyDo last).eval respond s).2 := by
  rw [Program.finallyDo, eval_bind, eval_attempt]
  cases (m.eval respond s).1 with
  | none => exact hm
  | some result => exact eval_preserves hR _ hm

theorem Program.only_true (m : Program Req Resp ε α) : m.Only fun _ => True := by
  induction m with
  | ask r next ih => exact ⟨trivial, ih⟩
  | _ => trivial

namespace Discipline

section One

variable {D : Discipline PUnit.{u + 1} Req Resp S} {Q : α → S → Prop} {E : ε → S → Prop}

theorem Meets.rely_of_stable (hQ : ∀ a, D.Stable ⟨⟩ (Q a)) (hE : ∀ e, D.Stable ⟨⟩ (E e))
    {m : Program Req Resp ε α} {s s' : S} (hm : D.Meets ⟨⟩ Q E m s) (hr : D.Rely ⟨⟩ s s') :
    D.Meets ⟨⟩ Q E m s' := by
  cases m with
  | done a => exact (hQ a).rely hr hm
  | raise e => exact (hE e).rely hr hm
  | halt => trivial
  | ask r next => exact fun t ht hinv => hm t (hr.trans ht) hinv

/-- A single program is correct throughout its run, and ends as it is meant to. -/
theorem Meets.reaches (hQ : ∀ a, D.Stable ⟨⟩ (Q a)) (hE : ∀ e, D.Stable ⟨⟩ (E e))
    {m : Program Req Resp ε α} {s : S} (hinv : D.inv s) (hm : D.Meets ⟨⟩ Q E m s)
    {c : Config PUnit.{u + 1} Req Resp ε α S} (hr : D.toSystem.Reaches ⟨fun _ => m, s⟩ c) :
    D.inv c.shared ∧ D.Meets ⟨⟩ Q E (c.procs ⟨⟩) c.shared := by
  induction hr with
  | refl => exact ⟨hinv, hm⟩
  | @tail c c' _ hstep ih =>
    obtain ⟨hinv, hm⟩ := ih
    cases hstep with
    | act i r next x s' hask hperforms =>
      rw [hask] at hm
      obtain ⟨hguard, hnext⟩ := hm c.shared .refl hinv
      refine ⟨D.inv_performs i r _ x s' hinv hguard hperforms, ?_⟩
      simpa [Config.resume] using hnext x s' hperforms
    | env s' henv =>
      exact ⟨D.inv_env _ s' hinv henv, hm.rely_of_stable hQ hE (.single ⟨hinv, .inl henv⟩)⟩

end One

def alone (performs : (r : Req) → S → Resp r → S → Prop) (inv : S → Prop) (guard : Req → S → Prop)
    (hinv : ∀ r s x s', inv s → guard r s → performs r s x s' → inv s') :
    Discipline PUnit.{u + 1} Req Resp S where
  performs _ := performs
  env _ _ := False
  inv := inv
  guard _ := guard
  quiet _ _ := False
  guard_of_quiet _ _ _ h := h.elim
  inv_performs _ := hinv
  inv_env _ _ _ h := h.elim

section Alone

variable {performs : (r : Req) → S → Resp r → S → Prop} {inv : S → Prop} {guard : Req → S → Prop}
  {hinv : ∀ r s x s', inv s → guard r s → performs r s x s' → inv s'}
  {Q : α → S → Prop} {E : ε → S → Prop} {s s' : S}

theorem eq_of_rely (h : (alone performs inv guard hinv).Rely ⟨⟩ s s') : s' = s := by
  induction h with
  | refl => rfl
  | tail _ hstep ih =>
    obtain ⟨-, hfalse | ⟨j, r, x, hne | hfalse, -⟩⟩ := hstep
    · exact hfalse.elim
    · exact (hne rfl).elim
    · exact hfalse.elim

theorem stable_alone {P : S → Prop} : (alone performs inv guard hinv).Stable ⟨⟩ P := by
  intro s s' h hs
  rwa [eq_of_rely (.single h)]

theorem meets_ask {r : Req} {next : Resp r → Program Req Resp ε α} (hguard : guard r s)
    (hnext : ∀ x t, inv s → performs r s x t →
      (alone performs inv guard hinv).Meets ⟨⟩ Q E (next x) t) :
    (alone performs inv guard hinv).Meets ⟨⟩ Q E (.ask r next) s := by
  intro t hrely hs
  obtain rfl := eq_of_rely hrely
  exact ⟨hguard, fun x t' hperforms => hnext x t' hs hperforms⟩

theorem meets_only {P : S → Prop} {allowed : Req → Prop}
    (hguard : ∀ r s, allowed r → inv s → P s → guard r s)
    (hP : ∀ r s x s', allowed r → performs r s x s' → P s → P s') {m : Program Req Resp ε α}
    (hm : m.Only allowed) (hs : P s) :
    (alone performs inv guard hinv).Meets ⟨⟩ (fun _ => P) (fun _ => P) m s := by
  induction m generalizing s with
  | done a => exact hs
  | raise e => exact hs
  | halt => trivial
  | ask r next ih =>
    intro t hrely ht
    obtain rfl := eq_of_rely hrely
    exact ⟨hguard r t hm.1 ht hs, fun x t' hperforms => ih x (hm.2 x) (hP r t x t' hm.1 hperforms hs)⟩

theorem Meets.finallyDo {Q' : α → S → Prop} {E' : ε → S → Prop} {m : Program Req Resp ε α}
    {last : Program Req Resp ε PUnit} {D : Discipline PUnit.{u + 1} Req Resp S}
    (hm : D.Meets ⟨⟩ Q' E' m s)
    (hok : ∀ a t, Q' a t → D.Meets ⟨⟩ (fun _ => Q a) E last t)
    (herror : ∀ e t, E' e t → D.Meets ⟨⟩ (fun _ => E e) E last t) :
    D.Meets ⟨⟩ Q E (m.finallyDo last) s := by
  refine hm.attempt.bind fun result t hresult => ?_
  rcases hresult with ⟨a, rfl, ha⟩ | ⟨e, rfl, he⟩
  · exact (hok a t ha).bind fun _ _ h => h
  · exact (herror e t he).bind fun _ _ h => h

end Alone

end Discipline

end ClusterState.Concurrency
