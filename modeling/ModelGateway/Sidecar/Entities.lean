import ModelGateway.Lib.Insertion
import ModelGateway.Sidecar.Recognizers

namespace ModelGateway.Sidecar

open List

open Pii (DetectedEntity)

theorem Span.entity_bounds (text : List Char) (s : Span)
    (h : (s.entity text).start < (s.entity text).finish)
    : ∃ i j, i ≤ j ∧ j ≤ text.length ∧ (s.entity text).start = (Rune.encode (text.take i)).length ∧
        (s.entity text).finish = (Rune.encode (text.take j)).length ∧
        Rune.encode (text.take j) = Rune.encode (text.take i) ++ (s.entity text).value := by
  have hvalue : (text.take s.last).drop s.first ≠ [] := by
    intro hnil
    dsimp only [Span.entity] at h
    rw [hnil] at h
    simp [Rune.encode] at h
  have hlt : s.first < (text.take s.last).length := by
    by_contra hge
    exact hvalue (drop_eq_nil_of_le (by omega))
  have hlast : text.take s.last = text.take (min s.last text.length) := by
    rw [take_eq_take_iff]
    omega
  rw [length_take] at hlt
  have hsplit : Rune.encode (text.take (min s.last text.length))
      = Rune.encode (text.take s.first) ++ (s.entity text).value := by
    have htake := take_append_drop s.first (text.take (min s.last text.length))
    rw [take_take, Nat.min_eq_left (by omega)] at htake
    nth_rewrite 1 [← htake]
    dsimp only [Span.entity]
    rw [hlast]
    exact flatMap_append
  refine ⟨s.first, min s.last text.length, by omega, by omega, rfl, ?_, hsplit⟩
  rw [hsplit, length_append]
  rfl

theorem Span.entity_slice (text : List Char) (s : Span)
    : 0 ≤ (s.entity text).start ∧ (s.entity text).start ≤ (s.entity text).finish ∧
      ((Rune.encode text).take (s.entity text).finish.toNat).drop (s.entity text).start.toNat
        = (s.entity text).value := by
  have hstart : 0 ≤ (s.entity text).start := Int.natCast_nonneg _
  have hfinish : (s.entity text).finish = (s.entity text).start + (s.entity text).value.length := rfl
  refine ⟨hstart, by omega, ?_⟩
  by_cases hne : (s.entity text).start < (s.entity text).finish
  . rcases s.entity_bounds text hne with ⟨i, j, _, _, hi, hj, hsplit⟩
    have htext : Rune.encode text = Rune.encode (text.take j) ++ Rune.encode (text.drop j) := by
      nth_rewrite 1 [← take_append_drop j text]
      exact flatMap_append
    rw [hi, hj, Int.toNat_natCast, Int.toNat_natCast, htext, take_left, hsplit, drop_left]
  . have hnil : (s.entity text).value = [] := eq_nil_of_length_eq_zero (by omega)
    rw [hnil]
    apply drop_eq_nil_of_le
    rw [length_take]
    omega

namespace Registry

def Before (a b : DetectedEntity) : Prop :=
  a.start < b.start ∨ a.start = b.start ∧ b.finish - b.start < a.finish - a.start

instance : DecidableRel Before :=
  fun _ _ => inferInstanceAs (Decidable (_ ∨ _))

theorem ordered_eq (es : List DetectedEntity)
    : ordered es = es.foldl (fun sorted e => sorted.orderedInsert Before e) [] := by
  have hinsert : ∀ e es, insertOrdered e es = es.orderedInsert Before e := by
    intro e es
    induction es with
    | nil => rfl
    | cons x xs ih =>
      unfold insertOrdered
      rw [orderedInsert_cons, ih]
      rfl
  unfold ordered
  simp only [hinsert]

theorem mem_ordered {es : List DetectedEntity} {x : DetectedEntity} : x ∈ ordered es ↔ x ∈ es := by
  rw [ordered_eq]
  exact Insertion.perm_foldl.mem_iff

theorem pairwise_ordered (es : List DetectedEntity) : (ordered es).Pairwise (fun a b => ¬ Before b a) := by
  rw [ordered_eq]
  unfold Before
  apply Insertion.pairwise_foldl
  . intro a b
    omega
  . intro a b c
    omega
  . exact pairwise_of_forall fun _ _ => id

theorem exists_span_of_mem_flatMap {recognizers : List Recognizer} {text : List Char} {e : DetectedEntity}
    (he : e ∈ recognizers.flatMap (·.recognize text))
    : ∃ s : Span, e = s.entity text := by
  rcases mem_flatMap.mp he with ⟨r, _, hmem⟩
  rcases mem_map.mp hmem with ⟨s, _, rfl⟩
  exact ⟨s, rfl⟩

theorem deduplicate_pairwise {es : List DetectedEntity} (h : ∀ e ∈ es, e.start ≤ e.finish)
    : (deduplicate es).Pairwise (fun a b => ¬ Before b a ∧ a.finish.toNat ≤ b.start.toNat) := by
  apply ((pairwise_ordered es).sublist Intervals.select_sublist).and
  apply Intervals.select_disjoint
  intro e he
  exact Int.toNat_le_toNat (h e (mem_ordered.mp he))

variable {registry : Registry} {text : List Char} {language : Option Str} {found : List DetectedEntity}
  (h : registry.recognize text language = some found)

include h

theorem exists_span_of_mem {e : DetectedEntity} (he : e ∈ found) : ∃ s : Span, e = s.entity text := by
  rcases Option.map_eq_some_iff.mp h with ⟨_, _, rfl⟩
  exact exists_span_of_mem_flatMap (mem_ordered.mp (Intervals.select_sublist.subset he))

theorem found_pairwise : found.Pairwise (fun a b => ¬ Before b a ∧ a.finish.toNat ≤ b.start.toNat) := by
  rcases Option.map_eq_some_iff.mp h with ⟨_, _, rfl⟩
  apply deduplicate_pairwise
  intro e he
  rcases exists_span_of_mem_flatMap he with ⟨s, rfl⟩
  exact (s.entity_slice text).2.1

theorem recognize_spec
    : found.Pairwise (fun a b => a.start ≤ b.start ∧ a.finish ≤ b.start) ∧
      (∀ e ∈ found, ((Rune.encode text).take e.finish.toNat).drop e.start.toNat = e.value) ∧
      ∀ recognizers, registry.recognizers language = some recognizers →
        ∀ r ∈ recognizers, ∀ e ∈ r.recognize text,
          (e ∈ found ∨ ∃ a ∈ found, a.start ≤ e.start ∧ e.start < a.finish) ∧
          ∀ a ∈ found, a.start = e.start → e.finish ≤ a.finish := by
  have hpair := found_pairwise h
  have hslice : ∀ e ∈ found, 0 ≤ e.start ∧ e.start ≤ e.finish ∧
      ((Rune.encode text).take e.finish.toNat).drop e.start.toNat = e.value := by
    intro e he
    rcases exists_span_of_mem h he with ⟨s, rfl⟩
    exact s.entity_slice text
  refine ⟨?_, fun e he => (hslice e he).2.2, ?_⟩
  . apply hpair.imp_of_mem
    intro a b ha hb hab
    have := hslice a ha
    have := hslice b hb
    unfold Before at hab
    omega
  . intro recognizers hrecognizers r hr e he
    have hmem : e ∈ recognizers.flatMap (·.recognize text) := mem_flatMap.mpr ⟨r, hr, he⟩
    rcases exists_span_of_mem_flatMap hmem with ⟨s, hs⟩
    have hsound := s.entity_slice text
    rw [← hs] at hsound
    unfold recognize at h
    rw [hrecognizers] at h
    have hskips : e ∈ found ∨ ∃ k ∈ found, ¬ Before e k ∧ e.start.toNat < k.finish.toNat := by
      rw [← Option.some.inj h]
      exact Intervals.select_none_skips _ _ (pairwise_ordered _) (mem_ordered.mpr hmem)
    constructor
    . rcases hskips with hkept | ⟨k, hk, hke, hlt⟩
      . exact .inl hkept
      . unfold Before at hke
        exact .inr ⟨k, hk, by omega, by omega⟩
    . intro a ha hstart
      have hbounds := hslice a ha
      -- whether `e` is returned or not, something that is returned holds its first byte
      have hnear : e.finish ≤ e.start ∨ ∃ k ∈ found, ¬ Before e k ∧ e.start.toNat < k.finish.toNat := by
        rcases hskips with hkept | hk
        . by_cases hempty : e.finish ≤ e.start
          . exact .inl hempty
          . exact .inr ⟨e, hkept, by unfold Before; omega, by omega⟩
        . exact .inr hk
      unfold Before at hnear hpair
      rcases hnear with hempty | ⟨k, hk, hke, hlt⟩
      . omega
      . rcases Intervals.eq_or_related hpair ha hk with rfl | hak | hka
        . omega
        . omega
        . omega

end Registry

namespace Sample

def registry : Registry := .new (fun _ => false) (str "en")

def letter : List Char := "Dr. Smith and Dr. Jones".toList

def doctors : List DetectedEntity := [⟨str "PERSON", 4, 9, str "Smith"⟩, ⟨str "PERSON", 18, 23, str "Jones"⟩]

end Sample

open Sample in
theorem recognize_spec_doctors
    : registry.recognize letter none = some doctors ∧
      doctors.Pairwise (fun a b => a.start ≤ b.start ∧ a.finish ≤ b.start) ∧
      (∀ e ∈ doctors, ((Rune.encode letter).take e.finish.toNat).drop e.start.toNat = e.value) ∧
      ∀ recognizers, registry.recognizers none = some recognizers →
        ∀ r ∈ recognizers, ∀ e ∈ r.recognize letter,
          (e ∈ doctors ∨ ∃ a ∈ doctors, a.start ≤ e.start ∧ e.start < a.finish) ∧
          ∀ a ∈ doctors, a.start = e.start → e.finish ≤ a.finish := by
  have hfound : registry.recognize letter none = some doctors := by
    decide +kernel
  exact ⟨hfound, Registry.recognize_spec hfound⟩

end ModelGateway.Sidecar
