import ModelGateway.Lib.RegexLemmas

/-!
This module contains texts in which some words are replaced by others.
-/

structure Scanner (α : Type) where
  token : List α → Option (List α)
  starts {text w : List α} (h : token text = some w) : w <+: text
  ne_nil {text w : List α} (h : token text = some w) : w ≠ []
  append {text w : List α} (h : token text = some w) (u : List α) : token (w ++ u) = some w
  apart {text w : List α} (h : token text = some w) {k : Nat} (hpos : 0 < k) (hlt : k < w.length)
    (u : List α) : token (w.drop k ++ u) = none

namespace Scanner

open List
open Option (filter_eq_some_iff map_none map_some some)

variable {α : Type} (s : Scanner α)

variable {text w : List α}

theorem length_pos (h : s.token text = some w) : 0 < w.length :=
  length_pos_of_ne_nil (s.ne_nil h)

theorem length_le (h : s.token text = some w) : w.length ≤ text.length :=
  (s.starts h).length_le

def replace (f : List α → List α) (text : List α) : List α :=
  match text with
  | [] => []
  | x :: rest =>
    match _ : s.token (x :: rest) with
    | some w => f w ++ replace f ((x :: rest).drop w.length)
    | none => x :: replace f rest
termination_by text.length
decreasing_by
  . have := s.length_pos ‹_›
    simp only [length_drop, length_cons]
    omega
  . simp

@[elab_as_elim]
theorem scan_induction {motive : List α → Prop} (nil : motive [])
    (copy : ∀ x rest, s.token (x :: rest) = none → motive rest → motive (x :: rest))
    (token : ∀ text w, s.token text = some w → motive (text.drop w.length) → motive text)
    (text : List α)
    : motive text := by
  fun_induction replace s id text with
  | case1 => exact nil
  | case2 x rest w hw ih => exact token _ w hw ih
  | case3 x rest hw ih => exact copy x rest hw ih

variable {s} {f : List α → List α}

@[simp]
theorem replace_nil : s.replace f [] = [] := by
  rw [replace]

theorem replace_cons {x : α} {rest : List α} (h : s.token (x :: rest) = none)
    : s.replace f (x :: rest) = x :: s.replace f rest := by
  rw [replace]
  split
  . next h' => simp [h] at h'
  . rfl

theorem replace_token (h : s.token text = some w)
    : s.replace f text = f w ++ s.replace f (text.drop w.length) := by
  cases text with
  | nil =>
    have := s.length_pos h
    have := s.length_le h
    rw [length_nil] at this
    omega
  | cons x rest =>
    rw [replace]
    split
    . next w' h' =>
      rw [h] at h'
      cases h'
      rfl
    . next h' => simp [h] at h'

theorem replace_token_append (h : s.token text = some w) (u : List α)
    : s.replace f (w ++ u) = f w ++ s.replace f u := by
  rw [replace_token (s.append h u), drop_left]

theorem replace_append_of_none {a u : List α} (h : ∀ k < a.length, s.token (a.drop k ++ u) = none)
    : s.replace f (a ++ u) = a ++ s.replace f u := by
  induction a with
  | nil => rfl
  | cons x a ih =>
    rw [cons_append, replace_cons, ih, cons_append]
    . intro k hk
      apply h (k + 1)
      simpa using hk
    . apply h 0
      simp

theorem replace_tail (h : s.token text = some w) {k : Nat} (hk : 0 < k) (u : List α)
    : s.replace f (w.drop k ++ u) = w.drop k ++ s.replace f u := by
  apply replace_append_of_none
  intro j hj
  rw [length_drop] at hj
  rw [drop_drop]
  apply s.apart h <;> omega

theorem replace_of_proper {text w a : List α} (h : s.token text = some w) (ha : a <+: w)
    (hlt : a.length < w.length)
    : s.replace f a = a := by
  rcases ha with ⟨b, rfl⟩
  have hnone : ∀ k < a.length, s.token (a.drop k ++ []) = none := by
    intro k hk
    rw [append_nil]
    cases hv : s.token (a.drop k) with
    | none => rfl
    | some v =>
      rcases s.starts hv with ⟨r, hr⟩
      have hdrop : (a ++ b).drop k = v ++ (r ++ b) := by
        rw [drop_append_of_le_length (by omega), ← hr, append_assoc]
      cases k with
      | zero =>
        -- The word itself would start with two tokens.
        have hself := s.append h []
        rw [append_nil] at hself
        rw [drop_zero] at hdrop hr
        rw [hdrop, s.append hv] at hself
        have hlength := congrArg List.length (some.inj hself)
        simp only [length_append] at *
        omega
      | succ k =>
        have := s.apart h (k := k + 1) (by omega) (by omega) []
        rw [hdrop, append_assoc, s.append hv] at this
        simp at this
  have := replace_append_of_none (f := f) hnone
  simpa using this

theorem replace_append {a b : List α}
    (h : ∀ k < a.length, ∀ w, s.token (a.drop k ++ b) = some w → a.length < k + w.length → f w = w)
    : s.replace f (a ++ b) = s.replace f a ++ s.replace f b := by
  induction hn : a.length using Nat.strongRecOn generalizing a with
  | ind n ih =>
    cases a with
    | nil => simp
    | cons x a =>
      have hdrop : ∀ {m : Nat}, 0 < m → m ≤ (x :: a).length →
          s.replace f ((x :: a).drop m ++ b) = s.replace f ((x :: a).drop m) ++ s.replace f b := by
        intro m hpos hm
        apply ih ((x :: a).drop m).length _ _ rfl
        . rw [length_drop]
          omega
        . intro k hk w hw hlt
          rw [length_drop] at hk hlt
          rw [drop_drop] at hw
          apply h (m + k) (by omega) w hw
          omega
      cases hw : s.token (x :: a ++ b) with
      | none =>
        have hnone : s.token (x :: a) = none := by
          cases hv : s.token (x :: a) with
          | none => rfl
          | some v =>
            rcases s.starts hv with ⟨r, hr⟩
            rw [← hr, append_assoc, s.append hv] at hw
            simp at hw
        have hrest := hdrop (m := 1) (by omega) (by simp)
        rw [drop_one, tail_cons] at hrest
        rw [cons_append] at hw ⊢
        rw [replace_cons hw, replace_cons hnone, hrest, cons_append]
      | some w =>
        by_cases hle : w.length ≤ (x :: a).length
        . have htake : x :: a = w ++ (x :: a).drop w.length := by
            have := prefix_of_prefix_length_le (s.starts hw) (prefix_append _ b) hle
            exact (prefix_iff_eq_append.mp this).symm
          rw [replace_token hw, drop_append_of_le_length hle, hdrop (s.length_pos hw) hle,
            ← append_assoc]
          congr 1
          nth_rewrite 2 [htake]
          rw [replace_token_append hw]
        . have hproper : x :: a <+: w := by
            apply prefix_of_prefix_length_le (prefix_append _ b) (s.starts hw)
            omega
          have hfw : f w = w := by
            apply h 0 (by simp) w hw
            omega
          rcases s.starts hw with ⟨u, hu⟩
          have hb : b = w.drop (x :: a).length ++ u := by
            have := congrArg (List.drop (x :: a).length) hu
            rw [drop_left, drop_append_of_le_length (by omega)] at this
            exact this.symm
          rw [← hu, replace_token_append hw, hfw, replace_of_proper hw hproper (by omega), hb,
            replace_tail hw (by simp), ← append_assoc]
          congr 1
          exact (prefix_iff_eq_append.mp hproper).symm

theorem replace_append_token {p : List α} (h : s.token p = some p) (a u : List α)
    : s.replace f (a ++ (p ++ u)) = s.replace f a ++ (f p ++ s.replace f u) := by
  rw [← replace_token_append h, ← replace_append]
  intro k hk w hw hacross
  rcases s.starts hw with ⟨v, hv⟩
  have hdrop : w.drop (a.length - k) ++ v = p ++ u := by
    have hnil : a.drop (k + (a.length - k)) = [] := drop_eq_nil_of_le (by omega)
    have hrest := congrArg (List.drop (a.length - k)) hv
    rw [drop_append_of_le_length (by omega),
      drop_append_of_le_length (by simp), drop_drop, hnil] at hrest
    exact hrest
  have hnone := s.apart hw (k := a.length - k) (by omega) (by omega) v
  rw [hdrop, s.append h] at hnone
  simp at hnone

theorem replace_eq_self {text : List α} (h : ∀ k w, s.token (text.drop k) = some w → f w = w)
    : s.replace f text = text := by
  induction text using s.scan_induction with
  | nil => simp
  | copy x rest hw ih => rw [replace_cons hw, ih fun k w => h (k + 1) w]
  | token text w hw ih =>
    rw [replace_token hw, h 0 w hw, ih]
    . exact prefix_iff_eq_append.mp (s.starts hw)
    . intro k v hv
      rw [drop_drop] at hv
      exact h _ v hv

theorem replace_congr {t : Scanner α} (h : ∀ text, s.token text = t.token text) (text : List α)
    : s.replace f text = t.replace f text := by
  induction text using s.scan_induction with
  | nil => simp
  | copy x rest hw ih => rw [replace_cons hw, replace_cons ((h _).symm.trans hw), ih]
  | token text w hw ih => rw [replace_token hw, replace_token ((h _).symm.trans hw), ih]

theorem mem_replace {text : List α} {x : α} (h : x ∈ s.replace f text)
    : x ∈ text ∨ ∃ k w, s.token (text.drop k) = some w ∧ x ∈ f w := by
  induction text using s.scan_induction with
  | nil => simp at h
  | copy y rest hw ih =>
    rw [replace_cons hw, mem_cons] at h
    rcases h with rfl | h
    . exact .inl (by simp)
    . rcases ih h with h | ⟨k, w, hw, h⟩
      . exact .inl (mem_cons_of_mem y h)
      . exact .inr ⟨k + 1, w, hw, h⟩
  | token text w hw ih =>
    rw [replace_token hw, mem_append] at h
    rcases h with h | h
    . exact .inr ⟨0, w, hw, h⟩
    . rcases ih h with h | ⟨k, v, hv, h⟩
      . exact .inl (mem_of_mem_drop h)
      . rw [drop_drop] at hv
        exact .inr ⟨_, v, hv, h⟩

section

variable (s) (p : List α → Bool)

def restrict : Scanner α where
  token text := (s.token text).filter p
  starts h := s.starts (filter_eq_some_iff.mp h).1
  ne_nil h := s.ne_nil (filter_eq_some_iff.mp h).1
  append h u := by
    rw [filter_eq_some_iff] at h ⊢
    exact ⟨s.append h.1 u, h.2⟩
  apart := by
    intro text w h k hpos hlt u
    rw [s.apart (filter_eq_some_iff.mp h).1 hpos hlt u]
    rfl

variable {s p}

theorem replace_restrict
    (h : ∀ {text w : List α}, s.token text = some w → p w = false → f w = w) (text : List α)
    : (s.restrict p).replace f text = s.replace f text := by
  induction text using s.scan_induction with
  | nil => simp
  | copy x rest hw ih =>
    have hw' : (s.restrict p).token (x :: rest) = none := by simp [restrict, hw]
    rw [replace_cons hw, replace_cons hw', ih]
  | token text w hw ih =>
    rw [replace_token hw, ← ih]
    cases hp : p w with
    | true =>
      have hw' : (s.restrict p).token text = some w := by simp [restrict, hw, hp]
      rw [replace_token hw']
    | false =>
      have hsplit := prefix_iff_eq_append.mp (s.starts hw)
      rw [h hw hp]
      nth_rewrite 1 [← hsplit]
      apply replace_append_of_none
      intro k hk
      cases k with
      | zero =>
        rw [drop_zero, hsplit]
        simp [restrict, hw, hp]
      | succ k =>
        have hnone := s.apart hw (k := k + 1) (by omega) hk (text.drop w.length)
        simp [restrict, hnone]

end

section

variable {β : Type} {t : Scanner β} {f' : List β → List β} {h : α → List β}

theorem replace_flatMap {xs : List α}
    (htoken : ∀ ys, ys <:+ xs → t.token (ys.flatMap h) = (s.token ys).map (·.flatMap h))
    (hinside : ∀ x ys, x :: ys <:+ xs → s.token (x :: ys) = none →
      ∀ k, 0 < k → k < (h x).length → t.token ((h x).drop k ++ ys.flatMap h) = none)
    (hf : ∀ ys w, ys <:+ xs → s.token ys = some w → f' (w.flatMap h) = (f w).flatMap h)
    : t.replace f' (xs.flatMap h) = (s.replace f xs).flatMap h := by
  induction xs using s.scan_induction with
  | nil => simp
  | copy x rest hw ih =>
    have hnone := htoken _ (suffix_refl _)
    have hsuffix := suffix_cons x rest
    rw [hw, map_none] at hnone
    rw [replace_cons hw, flatMap_cons, flatMap_cons, replace_append_of_none, ih]
    . exact fun ys hys => htoken ys (hys.trans hsuffix)
    . exact fun y ys hys => hinside y ys (hys.trans hsuffix)
    . exact fun ys w hys => hf ys w (hys.trans hsuffix)
    . intro k hk
      cases k with
      | zero => simpa using hnone
      | succ k => exact hinside x rest (suffix_refl _) hw (k + 1) (by omega) hk
  | token xs w hw ih =>
    have hsome := htoken _ (suffix_refl _)
    have hsuffix := drop_suffix w.length xs
    rw [hw, map_some] at hsome
    have hsplit := prefix_iff_eq_append.mp (s.starts hw)
    rw [replace_token hw, flatMap_append, ← hf _ w (suffix_refl _) hw, ← ih]
    . nth_rewrite 1 [← hsplit]
      rw [flatMap_append, replace_token_append hsome]
    . exact fun ys hys => htoken ys (hys.trans hsuffix)
    . exact fun y ys hys => hinside y ys (hys.trans hsuffix)
    . exact fun ys w hys => hf ys w (hys.trans hsuffix)

end

end Scanner

namespace Regex

open List Option

variable {s : Scanner UInt8} {r : Regex}

variable (hr : ∀ c, r.matchAt c = (s.token c.rest).map (c.pos + ·.length))

include hr

theorem replaceAllFunc_go_eq
    (text : List UInt8) (f : List UInt8 → List UInt8) {fuel : Nat} {c : Cursor} {until_ last : Nat}
    (hrest : c.rest = text.drop c.pos) (hfuel : text.length ≤ c.pos + fuel)
    (huntil : until_ ≤ text.length) (hpos : c.pos ≤ text.length) (hlast : last ≤ max c.pos until_)
    : replaceAllFunc.go text f (findAllIndex.go r fuel c until_) last
        =
      (text.take (max c.pos until_)).drop last ++ s.replace f (text.drop (max c.pos until_))
      := by
  induction fuel generalizing c until_ last with
  | zero =>
    have hmax : max c.pos until_ = text.length := by omega
    rw [hmax]
    simp [findAllIndex.go, replaceAllFunc.go]
  | succ fuel ih =>
    unfold findAllIndex.go
    rcases c with ⟨prev, rest, pos⟩
    dsimp only at *
    cases rest with
    | nil =>
      have hlength := congrArg List.length hrest
      rw [length_drop, length_nil] at hlength
      have hmax : max pos until_ = text.length := by omega
      rw [hmax]
      simp [Cursor.next, replaceAllFunc.go]
    | cons b rest =>
      have hlt : pos < text.length := by
        apply Nat.lt_of_not_le
        intro hle
        rw [drop_eq_nil_of_le hle] at hrest
        simp at hrest
      have hrest' : rest = text.drop (pos + 1) := by
        rw [← drop_drop, ← hrest, drop_one, tail_cons]
      dsimp only [Cursor.next]
      split
      . next hskip =>
        have hmax : max (pos + 1) until_ = max pos until_ := by omega
        rw [ih hrest' (by dsimp only; omega) huntil (by dsimp only; omega) (by dsimp only; omega)]
        rw [hmax]
      . next hscan =>
        have hmax : max pos until_ = pos := by omega
        have hmax' : max (pos + 1) until_ = pos + 1 := by omega
        rw [hr]
        rw [hmax] at hlast ⊢
        cases hw : s.token (b :: rest) with
        | none =>
          dsimp only [map_none]
          rw [ih hrest' (by dsimp only; omega) huntil (by dsimp only; omega) (by dsimp only; omega)]
          rw [hmax', ← hrest, ← hrest', Scanner.replace_cons hw, take_add_one,
            drop_append_of_le_length (by rw [length_take]; omega), append_assoc]
          have hget : text[pos]? = some b := by
            rw [← head?_drop, ← hrest, head?_cons]
          rw [hget]
          rfl
        | some w =>
          have hwpos := s.length_pos hw
          have hwle := s.length_le hw
          rw [hrest, length_drop] at hwle
          have hmaxw : max (pos + 1) (pos + w.length) = pos + w.length := by omega
          dsimp only [map_some]
          rw [if_pos (by omega), replaceAllFunc.go,
            ih hrest' (by dsimp only; omega) (by omega) (by dsimp only; omega)
              (by dsimp only; omega)]
          rw [hmaxw, ← hrest, Scanner.replace_token hw, hrest, drop_drop, append_assoc]
          have htake : (text.take (pos + w.length)).drop pos = w := by
            rw [drop_take, Nat.add_sub_cancel_left, ← hrest]
            exact (prefix_iff_eq_take.mp (s.starts hw)).symm
          have hnil : (text.take (pos + w.length)).drop (pos + w.length) = [] := by
            apply drop_eq_nil_of_le
            rw [length_take]
            omega
          rw [htake, hnil, nil_append]

theorem replaceAllFunc_eq (text : List UInt8) (f : List UInt8 → List UInt8)
    : r.replaceAllFunc text f = s.replace f text := by
  unfold replaceAllFunc findAllIndex
  rw [replaceAllFunc_go_eq hr text f rfl (by simp [Cursor.start]) (by omega) (by simp [Cursor.start])
    (by omega)]
  simp [Cursor.start]

end Regex
