import Mathlib.Logic.Relation

/-!
This module contains transition systems that are driven by events.
-/

namespace TransitionSystem

variable {σ ε : Type*} (step : σ → ε → Option σ)

def Reaches : σ → σ → Prop :=
  Relation.ReflTransGen fun s s' => ∃ e, step s e = some s'

variable {step}

theorem Reaches.of_foldlM (es : List ε) {s s' : σ} (h : es.foldlM step s = some s')
    : Reaches step s s' := by
  induction es generalizing s with
  | nil =>
    rw [Option.some.inj h]
    exact Relation.ReflTransGen.refl
  | cons e es ih =>
    rw [List.foldlM_cons, Option.bind_eq_bind, Option.bind_eq_some_iff] at h
    rcases h with ⟨mid, he, hrest⟩
    apply Relation.ReflTransGen.head ⟨e, he⟩ (ih hrest)

theorem invariant_of_foldlM {es : List ε} {s s' : σ} (h : es.foldlM step s = some s') (I : σ → Prop)
    (hstep : ∀ s e s', e ∈ es → I s → step s e = some s' → I s') (hs : I s)
    : I s' := by
  induction es generalizing s with
  | nil =>
    rw [← Option.some.inj h]
    exact hs
  | cons e es ih =>
    rw [List.foldlM_cons, Option.bind_eq_bind, Option.bind_eq_some_iff] at h
    rcases h with ⟨mid, he, hrest⟩
    apply ih hrest
    . intro s e' s' hmem
      apply hstep s e' s' (List.mem_cons_of_mem _ hmem)
    . apply hstep s e mid List.mem_cons_self hs he

theorem Reaches.invariant {s s' : σ} (h : Reaches step s s') (I : σ → Prop)
    (hstep : ∀ s e s', I s → step s e = some s' → I s') (hs : I s)
    : I s' := by
  induction h with
  | refl => exact hs
  | tail _ hlast ih =>
    rcases hlast with ⟨e, he⟩
    exact hstep _ e _ ih he

end TransitionSystem
