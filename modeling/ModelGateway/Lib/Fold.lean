import Mathlib.Data.List.AList
import Mathlib.Data.List.Forall2

/-!
This module contains the induction rules for a loop that may stop with an error.
-/

namespace Except

variable {ε α β : Type}

theorem bind_eq_ok_iff (x : Except ε α) (f : α → Except ε β) (b : β)
    : (x >>= f) = .ok b ↔ ∃ a, x = .ok a ∧ f a = .ok b := by
  cases x with
  | error e => simp [bind, Except.bind]
  | ok a => simp [bind, Except.bind]

theorem map_eq_ok_iff {x : Except ε α} {f : α → β} {b : β}
    : x.map f = .ok b ↔ ∃ a, x = .ok a ∧ f a = b := by
  cases x with
  | error e => simp [Except.map]
  | ok a => simp [Except.map]

@[simp]
theorem ite_error_eq_ok_iff {c : Prop} [Decidable c] {e : ε} {x : Except ε α} {a : α}
    : (if c then .error e else x) = .ok a ↔ ¬ c ∧ x = .ok a := by
  split
  . next h => simp [h]
  . next h => simp [h]

end Except

namespace List

open Except

variable {ε α σ : Type}

variable (f : σ → α → Except ε σ)

theorem foldlM_ok_induction (motive : List α → σ → Prop)
    (l : List α) (s s' : σ) (h : l.foldlM f s = .ok s') (init : motive [] s)
    (step : ∀ done a s s', a ∈ l → motive done s → f s a = .ok s' → motive (done ++ [a]) s')
    : motive l s' := by
  suffices ∀ done todo s, done ++ todo = l → todo.foldlM f s = .ok s' → motive done s →
      motive l s' from this [] l s (by simp) h init
  intro done todo
  induction todo generalizing done with
  | nil =>
    intro s hl h hdone
    simp only [foldlM_nil, pure, Except.pure, ok.injEq] at h
    rw [append_nil] at hl
    rwa [← hl, ← h]
  | cons a todo ih =>
    intro s hl h hdone
    rw [foldlM_cons, bind_eq_ok_iff] at h
    rcases h with ⟨s₁, hstep, hrest⟩
    refine ih (done ++ [a]) s₁ (by simp [hl]) hrest ?_
    apply step done a s s₁
    . simp [← hl]
    . exact hdone
    . exact hstep

theorem foldlM_ok_invariant (inv : σ → Prop)
    (l : List α) (s s' : σ) (h : l.foldlM f s = .ok s') (init : inv s)
    (step : ∀ a s s', inv s → f s a = .ok s' → inv s')
    : inv s' := by
  apply foldlM_ok_induction f (fun _ => inv) l s s' h init
  intro _ a s s' _
  exact step a s s'

theorem foldlM_throughout_iff (inv : σ → Prop) (fits : σ → α → Prop)
    (l : List α) (s s' : σ) (h : l.foldlM f s = .ok s')
    (step : ∀ a ∈ l, ∀ s s', inv s → f s a = .ok s' → (inv s' ↔ fits s a))
    : (∀ before t, before <+: l → before.foldlM f s = .ok t → inv t)
        ↔
      inv s ∧ ∀ before a t, before ++ [a] <+: l → before.foldlM f s = .ok t → fits t a := by
  induction l generalizing s with
  | nil =>
    constructor
    . intro hall
      exact ⟨hall [] s nil_prefix rfl, by simp⟩
    . rintro ⟨hs, -⟩ before t hpre ht
      rw [prefix_nil.mp hpre] at ht
      rw [← ok.inj ht]
      exact hs
  | cons a l ih =>
    rw [foldlM_cons, bind_eq_ok_iff] at h
    rcases h with ⟨s₁, hs₁, hrest⟩
    have ih := ih s₁ hrest fun b hb => step b (mem_cons_of_mem a hb)
    have hfold : ∀ before t, (a :: before).foldlM f s = .ok t ↔ before.foldlM f s₁ = .ok t := by
      intro before t
      rw [foldlM_cons, hs₁]
      rfl
    constructor
    . intro hall
      have hs : inv s := hall [] s nil_prefix rfl
      have hall₁ := ih.mp fun before t hpre ht =>
        hall (a :: before) t (cons_prefix_cons.mpr ⟨rfl, hpre⟩) ((hfold before t).mpr ht)
      refine ⟨hs, ?_⟩
      intro before b t hpre ht
      cases before with
      | nil =>
        rw [nil_append, cons_prefix_cons] at hpre
        rw [hpre.1, ← ok.inj ht]
        exact (step a mem_cons_self s s₁ hs hs₁).mp hall₁.1
      | cons c before =>
        rw [cons_append, cons_prefix_cons] at hpre
        rw [hpre.1, hfold] at ht
        exact hall₁.2 before b t hpre.2 ht
    . rintro ⟨hs, hfits⟩
      have hs₁' := (step a mem_cons_self s s₁ hs hs₁).mpr
        (hfits [] a s (cons_prefix_cons.mpr ⟨rfl, nil_prefix⟩) rfl)
      have hall₁ := ih.mpr ⟨hs₁', fun before b t hpre ht =>
        hfits (a :: before) b t (cons_prefix_cons.mpr ⟨rfl, hpre⟩) ((hfold before t).mpr ht)⟩
      intro before t hpre ht
      cases before with
      | nil =>
        rw [← ok.inj ht]
        exact hs
      | cons c before =>
        rw [cons_prefix_cons] at hpre
        rw [hpre.1, hfold] at ht
        exact hall₁ before t hpre.2 ht

theorem foldlM_isOk_iff (inv : σ → Prop) (accepts : α → Prop)
    (step : ∀ a s, inv s → ((∃ s', f s a = .ok s') ↔ accepts a))
    (keep : ∀ a s s', inv s → f s a = .ok s' → inv s') (l : List α) (s : σ) (hs : inv s)
    : (∃ s', l.foldlM f s = .ok s') ↔ ∀ a ∈ l, accepts a := by
  induction l generalizing s with
  | nil => simp [pure, Except.pure]
  | cons a l ih =>
    simp only [foldlM_cons, bind_eq_ok_iff, forall_mem_cons]
    rw [← step a s hs]
    constructor
    . rintro ⟨s', s₁, hstep, hrest⟩
      exact ⟨⟨s₁, hstep⟩, (ih s₁ (keep a s s₁ hs hstep)).mp ⟨s', hrest⟩⟩
    . rintro ⟨⟨s₁, hstep⟩, hrest⟩
      rcases (ih s₁ (keep a s s₁ hs hstep)).mpr hrest with ⟨s', hs'⟩
      exact ⟨s', s₁, hstep, hs'⟩

theorem foldlM_eq_ok_foldl {γ : Type} (mk : γ → σ) {f : σ → α → Except ε σ} {g : γ → α → γ}
    (result : ∀ c a s', f (mk c) a = .ok s' → s' = mk (g c a)) (l : List α) {c : γ} {s' : σ}
    (h : l.foldlM f (mk c) = .ok s')
    : s' = mk (l.foldl g c) := by
  induction l generalizing c with
  | nil => exact (ok.inj h).symm
  | cons a l ih =>
    rw [foldlM_cons, bind_eq_ok_iff] at h
    rcases h with ⟨s₁, hs₁, hrest⟩
    rw [result c a s₁ hs₁] at hrest
    exact ih hrest

theorem foldlM_isOk_iff_foldl {f : σ → α → Except ε σ} {g : σ → α → σ} (inv bound : σ → Prop)
    (accepts : α → Prop) (result : ∀ s a s', f s a = .ok s' → s' = g s a)
    (keep : ∀ s a, inv s → inv (g s a)) (back : ∀ s a, inv s → bound (g s a) → bound s)
    (step : ∀ s a, inv s → bound s → ((∃ s', f s a = .ok s') ↔ accepts a ∧ bound (g s a)))
    (l : List α) {s : σ} (hinv : inv s) (hs : bound s)
    : (∃ s', l.foldlM f s = .ok s') ↔ (∀ a ∈ l, accepts a) ∧ bound (l.foldl g s) := by
  have first : ∀ (l : List α) (s : σ), inv s → bound (l.foldl g s) → bound s := by
    intro l
    induction l with
    | nil => exact fun _ _ h => h
    | cons a l ih => exact fun s hinv h => back s a hinv (ih (g s a) (keep s a hinv) h)
  induction l generalizing s with
  | nil => simp [pure, Except.pure, hs]
  | cons a l ih =>
    simp only [foldlM_cons, bind_eq_ok_iff, forall_mem_cons, foldl_cons]
    constructor
    . rintro ⟨s', s₁, hstep, hrest⟩
      rcases (step s a hinv hs).mp ⟨s₁, hstep⟩ with ⟨haccepts, hbound⟩
      rw [result s a s₁ hstep] at hrest
      rcases (ih (keep s a hinv) hbound).mp ⟨s', hrest⟩ with ⟨hall, hlast⟩
      exact ⟨⟨haccepts, hall⟩, hlast⟩
    . rintro ⟨⟨haccepts, hall⟩, hlast⟩
      have hbound := first l (g s a) (keep s a hinv) hlast
      rcases (step s a hinv hs).mpr ⟨haccepts, hbound⟩ with ⟨s₁, hstep⟩
      rcases (ih (keep s a hinv) hbound).mpr ⟨hall, hlast⟩ with ⟨s', hrest⟩
      rw [← result s a s₁ hstep] at hrest
      exact ⟨s', s₁, hstep, hrest⟩

theorem foldlM_index_isOk_iff {κ : Type} (f : σ → α → Except ε σ) (key : α → κ)
    (indexed : σ → κ → Prop) (accepts : α → Prop)
    (step : ∀ a s, (∃ s', f s a = .ok s') ↔ accepts a ∧ ¬ indexed s (key a))
    (keep : ∀ a s s', f s a = .ok s' → ∀ k, indexed s' k ↔ k = key a ∨ indexed s k) (l : List α)
    (s : σ)
    : (∃ s', l.foldlM f s = .ok s')
        ↔
      (∀ a ∈ l, accepts a) ∧ (l.map key).Nodup ∧ ∀ a ∈ l, ¬ indexed s (key a) := by
  induction l generalizing s with
  | nil => simp [pure, Except.pure]
  | cons a l ih =>
    simp only [foldlM_cons, bind_eq_ok_iff, forall_mem_cons, map_cons, nodup_cons, mem_map,
      not_exists, not_and]
    constructor
    . rintro ⟨s', s₁, hstep, hrest⟩
      rcases (step a s).mp ⟨s₁, hstep⟩ with ⟨haccepts, hindexed⟩
      rcases (ih s₁).mp ⟨s', hrest⟩ with ⟨hall, hnodup, hfresh⟩
      simp only [keep a s s₁ hstep, not_or] at hfresh
      exact ⟨⟨haccepts, hall⟩, ⟨fun b hb => (hfresh b hb).1, hnodup⟩, hindexed,
        fun b hb => (hfresh b hb).2⟩
    . rintro ⟨⟨haccepts, hall⟩, ⟨hne, hnodup⟩, hindexed, hfresh⟩
      rcases (step a s).mpr ⟨haccepts, hindexed⟩ with ⟨s₁, hstep⟩
      have hrest := (ih s₁).mpr ⟨hall, hnodup, ?_⟩
      . rcases hrest with ⟨s', hs'⟩
        exact ⟨s', s₁, hstep, hs'⟩
      . intro b hb
        rw [keep a s s₁ hstep, not_or]
        exact ⟨hne b hb, hfresh b hb⟩

variable {l : List α}

theorem foldlM_ok_indexed {κ : Type} (f : σ → α → Except ε σ) (key : α → κ) (indexed : σ → κ → Prop)
    (keep : ∀ a s s', f s a = .ok s' → ∀ k, indexed s' k ↔ k = key a ∨ indexed s k)
    {s s' : σ} (h : l.foldlM f s = .ok s') (k : κ)
    : indexed s' k ↔ (∃ a ∈ l, key a = k) ∨ indexed s k := by
  refine foldlM_ok_induction f
    (fun done s₁ => indexed s₁ k ↔ (∃ a ∈ done, key a = k) ∨ indexed s k) l s s' h ?_ ?_
  . simp
  . intro done a s₁ s₂ _ hdone hstep
    rw [keep a s₁ s₂ hstep, hdone]
    simp only [mem_append, mem_singleton, or_and_right, exists_or, exists_eq_left]
    rw [← or_assoc, @eq_comm _ k, or_comm (a := key a = k)]

theorem forM_eq_ok_iff (f : α → Except ε Unit) (l : List α)
    : l.forM f = .ok () ↔ ∀ a ∈ l, f a = .ok () := by
  induction l with
  | nil => simp [List.forM, pure, Except.pure]
  | cons a l ih =>
    have hcons : (a :: l).forM f = (f a >>= fun _ => l.forM f) := rfl
    rw [hcons, bind_eq_ok_iff, ih, forall_mem_cons]
    constructor
    . rintro ⟨_, ha, hl⟩
      exact ⟨ha, hl⟩
    . rintro ⟨ha, hl⟩
      exact ⟨_, ha, hl⟩

variable {β : Type}

variable {bs : List β}

theorem mapM_eq_some_iff_forall₂ {f : α → Option β}
    : l.mapM f = some bs ↔ Forall₂ (fun a b => f a = some b) l bs := by
  induction l generalizing bs with
  | nil => simp [eq_comm]
  | cons a l ih =>
    rw [mapM_cons, forall₂_cons_left_iff]
    simp only [bind, Option.bind_eq_some_iff, ih, pure, Option.some.injEq]
    constructor
    . rintro ⟨b, hb, bs', hbs', rfl⟩
      exact ⟨b, bs', hb, hbs', rfl⟩
    . rintro ⟨b, bs', hb, hbs', rfl⟩
      exact ⟨b, hb, bs', hbs', rfl⟩

variable {f : α → Except ε β}

theorem mapM_eq_ok_iff_forall₂ : l.mapM f = .ok bs ↔ Forall₂ (fun a b => f a = .ok b) l bs := by
  induction l generalizing bs with
  | nil => simp [pure, Except.pure, eq_comm]
  | cons a l ih =>
    rw [mapM_cons, forall₂_cons_left_iff]
    simp only [bind_eq_ok_iff, ih, pure, Except.pure, ok.injEq]
    constructor
    . rintro ⟨b, hb, bs', hbs', rfl⟩
      exact ⟨b, bs', hb, hbs', rfl⟩
    . rintro ⟨b, bs', hb, hbs', rfl⟩
      exact ⟨b, hb, bs', hbs', rfl⟩

theorem mapM_isOk_iff (f : α → Except ε β) (l : List α)
    : (∃ bs, l.mapM f = .ok bs) ↔ ∀ a ∈ l, ∃ b, f a = .ok b := by
  induction l with
  | nil => simp [pure, Except.pure]
  | cons a l ih =>
    rw [forall_mem_cons, ← ih]
    simp only [mapM_eq_ok_iff_forall₂, forall₂_cons_left_iff]
    constructor
    . rintro ⟨_, b, bs, hb, hbs, rfl⟩
      exact ⟨⟨b, hb⟩, bs, hbs⟩
    . rintro ⟨⟨b, hb⟩, bs, hbs⟩
      exact ⟨_, b, bs, hb, hbs, rfl⟩

theorem mapM_eq_ok_iff_map {accepts : α → Prop} {g : α → β} (h : ∀ a ∈ l, ∀ b, f a = .ok b ↔ accepts a ∧ g a = b)
    : l.mapM f = .ok bs ↔ (∀ a ∈ l, accepts a) ∧ l.map g = bs := by
  induction l generalizing bs with
  | nil => simp [pure, Except.pure]
  | cons a l ih =>
    rw [forall_mem_cons] at h
    rw [mapM_cons, bind_eq_ok_iff, forall_mem_cons, map_cons]
    simp only [bind_eq_ok_iff, h.1, ih h.2, pure, Except.pure, ok.injEq]
    constructor
    . rintro ⟨_, ⟨ha, rfl⟩, _, ⟨hl, rfl⟩, rfl⟩
      exact ⟨⟨ha, hl⟩, rfl⟩
    . rintro ⟨⟨ha, hl⟩, rfl⟩
      exact ⟨_, ⟨ha, rfl⟩, _, ⟨hl, rfl⟩, rfl⟩

variable {l' : List β}

theorem Forall₂.exists_of_mem_left {R : α → β → Prop} (h : Forall₂ R l l') {a : α} (ha : a ∈ l)
    : ∃ b ∈ l', R a b := by
  induction h with
  | nil => simp at ha
  | @cons c d _ _ hcd _ ih =>
    rw [mem_cons] at ha
    cases ha with
    | inl heq =>
      rw [heq]
      exact ⟨d, mem_cons_self, hcd⟩
    | inr hmem =>
      rcases ih hmem with ⟨b, hb, hab⟩
      exact ⟨b, mem_cons_of_mem d hb, hab⟩

theorem Forall₂.exists_of_mem_right {R : α → β → Prop} (h : Forall₂ R l l') {b : β} (hb : b ∈ l')
    : ∃ a ∈ l, R a b :=
  Forall₂.exists_of_mem_left h.flip hb

theorem mapM_congr_left {f g : α → Except ε β} (h : ∀ a ∈ l, f a = g a) : l.mapM f = l.mapM g := by
  induction l with
  | nil => rfl
  | cons a l ih =>
    rw [forall_mem_cons] at h
    rw [mapM_cons, mapM_cons, h.1, ih h.2]

theorem mem_of_mapM_ok (f : α → Except ε β) (h : l.mapM f = .ok bs) {b : β} (hb : b ∈ bs)
    : ∃ a ∈ l, f a = .ok b :=
  (mapM_eq_ok_iff_forall₂.mp h).exists_of_mem_right hb

theorem exists_mem_of_mapM_ok (f : α → Except ε β) (h : l.mapM f = .ok bs) {a : α} (ha : a ∈ l)
    : ∃ b ∈ bs, f a = .ok b :=
  (mapM_eq_ok_iff_forall₂.mp h).exists_of_mem_left ha

theorem Forall₂.map_eq_map {γ : Type} {f : α → γ} {g : β → γ}
    (h : Forall₂ (fun a b => f a = g b) l l')
    : l.map f = l'.map g := by
  rw [← forall₂_eq_eq_eq, forall₂_map_left_iff, forall₂_map_right_iff]
  exact h

theorem Forall₂.forall_mem_iff {p : α → Prop} {q : β → Prop}
    (h : Forall₂ (fun a b => p a ↔ q b) l l')
    : (∀ a ∈ l, p a) ↔ ∀ b ∈ l', q b := by
  induction h with
  | nil => simp
  | cons hab _ ih => rw [forall_mem_cons, forall_mem_cons, hab, ih]

theorem Forall₂.find?_map {γ : Type} {p : α → Bool} {q : β → Bool} {f : α → γ} {g : β → γ}
    (h : Forall₂ (fun a b => p a = q b ∧ f a = g b) l l')
    : (l.find? p).map f = (l'.find? q).map g := by
  induction h with
  | nil => rfl
  | @cons a b _ _ hab _ ih =>
    rw [find?_cons, find?_cons, hab.1]
    cases q b with
    | true => exact congrArg some hab.2
    | false => exact ih

end List
