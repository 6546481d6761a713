import Mathlib.Logic.Basic

/-!
This module contains runs of a step function that is defined on every event.
-/

section

variable {σ ε α : Type*}

def Throughout (step : σ → ε → σ) (P : σ → ε → Prop) : σ → List ε → Prop
  | _, [] => True
  | s, e :: es => P s e ∧ Throughout step P (step s e) es

instance Throughout.decidable (step : σ → ε → σ) (P : σ → ε → Prop) [∀ s e, Decidable (P s e)]
    : (s : σ) → (es : List ε) → Decidable (Throughout step P s es)
  | _, [] => inferInstanceAs (Decidable True)
  | s, e :: es =>
    have := Throughout.decidable step P (step s e) es
    inferInstanceAs (Decidable (_ ∧ _))

variable {step : σ → ε → σ}

theorem throughout_map {P : σ → ε → Prop} (f : α → ε) (s : σ) (l : List α)
    : Throughout step P s (l.map f)
        ↔
      Throughout (fun s a => step s (f a)) (fun s a => P s (f a)) s l := by
  induction l generalizing s with
  | nil => rfl
  | cons a l ih =>
    rw [List.map_cons]
    unfold Throughout
    rw [ih]

theorem throughout_iff {step : σ → ε → σ} {inv good : σ → Prop} {fits : σ → ε → Prop}
    (hstep : ∀ s e, inv s → (good (step s e) ↔ fits s e) ∧ (fits s e → inv (step s e)))
    (es : List ε) {s : σ} (hs : inv s)
    : Throughout step (fun s e => good (step s e)) s es ↔ Throughout step fits s es := by
  induction es generalizing s with
  | nil => rfl
  | cons e es ih =>
    unfold Throughout
    rcases hstep s e hs with ⟨hgood, hinv⟩
    rw [hgood]
    apply and_congr_right
    intro hfits
    exact ih (hinv hfits)

theorem foldl_iff_throughout {good : σ → Prop} {fits : σ → ε → Prop}
    (hstep : ∀ s e, good (step s e) ↔ good s ∧ fits s e) (es : List ε) (s : σ)
    : good (es.foldl step s) ↔ good s ∧ Throughout step fits s es := by
  induction es generalizing s with
  | nil => exact (and_iff_left trivial).symm
  | cons e es ih =>
    rw [List.foldl_cons, ih, hstep, and_assoc]
    rfl

theorem throughout_congr (inv : σ → Prop) {P Q : σ → ε → Prop}
    (keep : ∀ s e, inv s → inv (step s e)) (h : ∀ s e, inv s → (P s e ↔ Q s e)) (es : List ε)
    {s : σ} (hs : inv s)
    : Throughout step P s es ↔ Throughout step Q s es := by
  induction es generalizing s with
  | nil => rfl
  | cons e es ih =>
    unfold Throughout
    rw [h s e hs, ih (keep s e hs)]

theorem throughout_iff_prefixes {step : σ → ε → σ} {R : σ → σ → Prop} (hrefl : ∀ s, R s s)
    (htrans : ∀ a b c, R a b → R b c → R a c) (es : List ε) {s : σ}
    : Throughout step (fun s e => R s (step s e)) s es
        ↔
      ∀ before later, before ++ later <+: es → R (before.foldl step s) ((before ++ later).foldl step s) := by
  induction es generalizing s with
  | nil =>
    refine ⟨fun _ before later h => ?_, fun _ => trivial⟩
    rw [List.prefix_nil, List.append_eq_nil_iff] at h
    rw [h.1, h.2]
    exact hrefl s
  | cons e es ih =>
    unfold Throughout
    rw [ih]
    constructor
    . rintro ⟨hstep, hrest⟩ before later h
      cases before with
      | nil =>
        rcases List.prefix_cons_iff.mp h with hnil | ⟨later, rfl, hlater⟩
        . rw [List.nil_append] at hnil
          rw [hnil]
          exact hrefl s
        . exact htrans _ _ _ hstep (hrest [] later hlater)
      | cons e' before =>
        rw [List.cons_append, List.cons_prefix_cons] at h
        rw [h.1]
        exact hrest before later h.2
    . intro h
      refine ⟨h [] [e] (List.cons_prefix_cons.mpr ⟨rfl, List.nil_prefix⟩), ?_⟩
      intro before later hprefix
      exact h (e :: before) later (List.cons_prefix_cons.mpr ⟨rfl, hprefix⟩)

theorem foldl_agree_iff {step step' : σ → ε → σ} {F F' ok : σ → ε → Prop} {R E : σ → σ → Prop}
    (hstep : ∀ s s' e, R s s' → F s e → F' s' e →
      R (step s e) (step' s' e) ∧ (E (step s e) (step' s' e) ↔ E s s' ∧ ok s e))
    (es : List ε) {s s' : σ} (hR : R s s') (hF : Throughout step F s es)
    (hF' : Throughout step' F' s' es)
    : R (es.foldl step s) (es.foldl step' s') ∧
      (E (es.foldl step s) (es.foldl step' s') ↔ E s s' ∧ Throughout step ok s es) := by
  induction es generalizing s s' with
  | nil => simp [Throughout, hR]
  | cons e es ih =>
    rcases hstep s s' e hR hF.1 hF'.1 with ⟨hR', hE⟩
    rcases ih hR' hF.2 hF'.2 with ⟨hlast, hiff⟩
    refine ⟨hlast, ?_⟩
    rw [List.foldl_cons, List.foldl_cons, hiff, hE, and_assoc]
    rfl

end
