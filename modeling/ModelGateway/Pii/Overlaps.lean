import ModelGateway.Pii.Pieces

namespace ModelGateway.Pii

open List

structure RawMatch where
  kind : Str
  start : Int
  finish : Int
  value : Str
  deriving DecidableEq

namespace RawMatch

def sink (m : RawMatch) : List RawMatch → List RawMatch
  | [] => [m]
  | x :: before => if m.start < x.start then x :: sink m before else m :: x :: before

def sortByStart (ms : List RawMatch) : List RawMatch :=
  (ms.foldl (fun before m => sink m before) []).reverse

def withoutOverlaps (ms : List RawMatch) : List RawMatch :=
  if ms.length < 2 then ms else keep (sortByStart ms) (-1)
where
  keep : List RawMatch → Int → List RawMatch
    | [], _ => []
    | m :: ms, last => if m.start < last then keep ms last else m :: keep ms m.finish

def Apart (a b : RawMatch) : Prop :=
  a.finish ≤ b.start ∨ b.finish ≤ a.start

variable {ms : List RawMatch}

theorem sink_eq (m : RawMatch) (ms : List RawMatch)
    : sink m ms = ms.orderedInsert (fun a b => ¬ a.start < b.start) m := by
  induction ms with
  | nil => rfl
  | cons x xs ih =>
    unfold sink
    rw [orderedInsert_cons, ih, ite_not]

theorem sortByStart_spec (ms : List RawMatch)
    : (sortByStart ms).Perm ms ∧ (sortByStart ms).Pairwise (fun a b => a.start ≤ b.start) ∧
      ∀ s, (sortByStart ms).filter (·.start = s) = ms.filter (·.start = s) := by
  unfold sortByStart
  simp only [sink_eq]
  refine ⟨(reverse_perm _).trans Insertion.perm_foldl, ?_, ?_⟩
  . rw [pairwise_reverse]
    apply Insertion.pairwise_foldl
    . intro a b
      exact Int.not_lt.mp
    . intro a b c
      omega
    . apply pairwise_of_forall
      intro a b
      omega
  . intro s
    rw [filter_reverse, Insertion.filter_foldl, reverse_reverse]
    intro x y hx hy
    simp only [decide_eq_true_eq] at hx hy
    omega

theorem keep_eq_select (ms : List RawMatch) (last : Int)
    : withoutOverlaps.keep ms last = Intervals.select start finish ms (some last) := by
  induction ms generalizing last with
  | nil => rfl
  | cons m ms ih =>
    unfold withoutOverlaps.keep Intervals.select
    rw [ih, ih]
    simp

theorem withoutOverlaps_eq_select (ms : List RawMatch)
    : ∃ last, withoutOverlaps ms = Intervals.select start finish (sortByStart ms) last ∧
        ∀ l ∈ last, l = -1 := by
  unfold withoutOverlaps
  split
  . next hlength =>
    refine ⟨none, ?_, nofun⟩
    rcases ms with _ | ⟨m, _ | ⟨m', ms⟩⟩
    . rfl
    . rfl
    . simp at hlength
  . exact ⟨some (-1), keep_eq_select _ _, fun l hl => (Option.some.inj hl).symm⟩

theorem withoutOverlaps_spec (h : ∀ m ∈ ms, m.start < m.finish)
    : ((sortByStart ms).Perm ms ∧ (sortByStart ms).Pairwise (fun a b => a.start ≤ b.start) ∧
        ∀ s, (sortByStart ms).filter (·.start = s) = ms.filter (·.start = s)) ∧
      (withoutOverlaps ms).Sublist (sortByStart ms) ∧ (withoutOverlaps ms).Pairwise Apart ∧
      ((∀ m ∈ ms, -1 ≤ m.start) → ∀ m ∈ ms,
        (∃ k ∈ withoutOverlaps ms, k.start ≤ m.start ∧ m.start < k.finish) ∧
          ¬ (m :: withoutOverlaps ms).Pairwise Apart) := by
  rcases sortByStart_spec ms with ⟨hperm, hsorted, hstable⟩
  rcases withoutOverlaps_eq_select ms with ⟨last, hselect, hlast⟩
  rw [hselect]
  refine ⟨⟨hperm, hsorted, hstable⟩, Intervals.select_sublist, ?_, ?_⟩
  . apply (Intervals.select_disjoint _).imp Or.inl
    intro m hm
    exact (h m (hperm.mem_iff.mp hm)).le
  . intro hstart m hm
    have hkept : ∃ k ∈ Intervals.select start finish (sortByStart ms) last,
        k.start ≤ m.start ∧ m.start < k.finish := by
      rcases Intervals.select_skips start finish last hsorted (hperm.mem_iff.mpr hm) with hkept | hk | ⟨l, hl, hlt⟩
      . exact ⟨m, hkept, le_refl _, h m hm⟩
      . exact hk
      . have := hstart m hm
        have := hlast l hl
        omega
    refine ⟨hkept, fun hapart => ?_⟩
    rcases hkept with ⟨k, hk, hle, hlt⟩
    have := (pairwise_cons.mp hapart).1 k hk
    have := h m hm
    unfold Apart at *
    omega

theorem withoutOverlaps_spec_two : (withoutOverlaps [⟨[], 1, 3, []⟩, ⟨[], 0, 2, []⟩]).Pairwise Apart :=
  (withoutOverlaps_spec (by decide)).2.2.1

theorem negative_start_dropped
    : withoutOverlaps [⟨[], -5, -3, []⟩, ⟨[], 0, 1, []⟩] = [⟨[], 0, 1, []⟩] ∧
        Apart ⟨[], -5, -3, []⟩ ⟨[], 0, 1, []⟩ :=
  ⟨by decide, .inl (by decide)⟩

theorem sink_append {m y : RawMatch} (hy : ¬ m.start < y.start) (xs : List RawMatch)
    : sink m (xs ++ [y]) = sink m xs ++ [y] := by
  induction xs with
  | nil => exact if_neg hy
  | cons x xs ih =>
    rw [cons_append]
    unfold sink
    split
    . rw [ih, cons_append]
    . rfl

theorem sink_of_lt {m : RawMatch} {xs : List RawMatch} (h : ∀ x ∈ xs, m.start < x.start)
    : sink m xs = xs ++ [m] := by
  induction xs with
  | nil => rfl
  | cons x xs ih =>
    rw [forall_mem_cons] at h
    unfold sink
    rw [if_pos h.1, ih h.2, cons_append]

end RawMatch

def Match.raw (m : Match) : RawMatch :=
  ⟨m.kind, m.start, m.finish, m.value⟩

theorem reverse_sink_raw {ms : List Match} (h : ms.Pairwise (fun a b => a.start ≤ b.start)) (m : Match)
    : (RawMatch.sink m.raw (ms.map Match.raw).reverse).reverse = (insertByStart m ms).map Match.raw := by
  induction ms with
  | nil => rfl
  | cons x xs ih =>
    rw [pairwise_cons] at h
    unfold insertByStart
    split
    . next hlt =>
      rw [RawMatch.sink_of_lt]
      . simp
      . rw [← map_reverse, forall_mem_map]
        intro y hy
        have hxy : x.start ≤ y.start := by
          rcases mem_cons.mp (mem_reverse.mp hy) with rfl | hy
          . exact le_refl _
          . exact h.1 y hy
        exact Int.ofNat_lt.mpr (hlt.trans_le hxy)
    . next hge =>
      rw [map_cons, reverse_cons, RawMatch.sink_append, reverse_append, ih h.2]
      . rfl
      . exact fun hlt => hge (Int.ofNat_lt.mp hlt)

theorem sortByStart_raw (ms : List Match)
    : RawMatch.sortByStart (ms.map Match.raw) = (sortByStart ms).map Match.raw := by
  unfold RawMatch.sortByStart
  induction ms using reverseRecOn with
  | nil => rfl
  | append_singleton ms m ih =>
    have hsorted := @pairwise_sortByStart (fun _ _ => True) ms (pairwise_of_forall fun _ _ _ => trivial)
    have hinsert : sortByStart (ms ++ [m]) = insertByStart m (sortByStart ms) := foldl_concat ..
    rw [hinsert, ← reverse_sink_raw (hsorted.imp (by omega)), ← ih, reverse_reverse, map_append, foldl_append]
    rfl

theorem select_raw {last : Option Nat} {last' : Option Int}
    (hlast : ∀ n : Nat, last'.any ((n : Int) < ·) = last.any (n < ·)) (ms : List Match)
    : Intervals.select RawMatch.start RawMatch.finish (ms.map Match.raw) last'
        =
      (Intervals.select Match.start Match.finish ms last).map Match.raw := by
  induction ms generalizing last last' with
  | nil => rfl
  | cons m ms ih =>
    rw [map_cons]
    unfold Intervals.select
    have hstart : last'.any (m.raw.start < ·) = last.any (m.start < ·) := hlast m.start
    have hnext := @ih (some m.finish) (some m.raw.finish) (by simp [Match.raw])
    rw [hstart, ih hlast, hnext]
    split <;> rfl

theorem withoutOverlaps_raw (ms : List Match)
    : RawMatch.withoutOverlaps (ms.map Match.raw) = (withoutOverlaps ms).map Match.raw := by
  rcases RawMatch.withoutOverlaps_eq_select (ms.map Match.raw) with ⟨last, hselect, hlast⟩
  rw [hselect, sortByStart_raw, withoutOverlaps_eq_select, select_raw]
  intro n
  cases last with
  | none => rfl
  | some l =>
    have := hlast l rfl
    simp
    omega

end ModelGateway.Pii
