import ModelGateway.Pii.Findings

namespace ModelGateway.Pii

open List

section

variable {hmac : Str → Str → Str} {pepper payload : Str} {strategy : Strategy} {ms : List Match}

theorem Ordered.le_start {last : Nat} (h : Ordered payload last ms) {m : Match} (hm : m ∈ ms)
    : last ≤ m.start := by
  induction ms generalizing last with
  | nil => simp at hm
  | cons m' ms ih =>
    rcases h with ⟨hlast, hlocates, h⟩
    rcases mem_cons.mp hm with rfl | hm
    . exact hlast
    . have := ih h hm
      have := hlocates.ordered
      omega

variable {counters : GoMap Str Nat}

theorem le_of_copied_mem {last : Nat} (h : Ordered payload last ms) {start finish : Nat}
    (hcopied : .copied start finish ∈ piecesFrom hmac pepper payload strategy counters last ms)
    : last ≤ start := by
  induction ms generalizing counters last with
  | nil =>
    simp only [piecesFrom, mem_singleton, Piece.copied.injEq] at hcopied
    omega
  | cons m ms ih =>
    rcases h with ⟨hlast, hlocates, h⟩
    rw [piecesFrom_cons] at hcopied
    simp only [mem_cons, Piece.copied.injEq, reduceCtorEq, false_or] at hcopied
    rcases hcopied with hcopied | hcopied
    . omega
    . have := ih h hcopied
      have := hlocates.ordered
      omega

theorem copied_iff {last : Nat} (h : Ordered payload last ms) {i : Nat} (hlast : last ≤ i)
    (hi : i < payload.length)
    : (∃ start finish,
        .copied start finish ∈ piecesFrom hmac pepper payload strategy counters last ms ∧
        start ≤ i ∧ i < finish) ↔ ¬ Intervals.Covers Match.start Match.finish ms i := by
  induction ms generalizing counters last with
  | nil =>
    simp only [piecesFrom, mem_singleton, Piece.copied.injEq]
    constructor
    . rintro _ ⟨m, hm, _⟩
      simp at hm
    . intro _
      exact ⟨last, payload.length, ⟨rfl, rfl⟩, hlast, hi⟩
  | cons m ms ih =>
    rcases h with ⟨hstart, hlocates, h⟩
    have hordered := hlocates.ordered
    rw [piecesFrom_cons]
    simp only [mem_cons, Piece.copied.injEq, reduceCtorEq, false_or]
    by_cases hafter : m.finish ≤ i
    . have htail := @ih (standIn hmac pepper strategy counters m).2 m.finish h hafter
      constructor
      . rintro ⟨start, finish, hcopied | hcopied, hle, hlt⟩ ⟨m', hm', hcovers⟩
        . omega
        . rcases mem_cons.mp hm' with rfl | hm'
          . omega
          . exact htail.mp ⟨start, finish, hcopied, hle, hlt⟩ ⟨m', hm', hcovers⟩
      . intro hnot
        have hrest : ¬ Intervals.Covers Match.start Match.finish ms i := by
          rintro ⟨m', hm', hcovers⟩
          exact hnot ⟨m', by simp [hm'], hcovers⟩
        rcases htail.mpr hrest with ⟨start, finish, hcopied, hlt⟩
        exact ⟨start, finish, .inr hcopied, hlt⟩
    . constructor
      . rintro ⟨start, finish, hcopied | hcopied, hle, hlt⟩ ⟨m', hm', hcovers⟩
        . rcases mem_cons.mp hm' with rfl | hm'
          . omega
          . have := h.le_start hm'
            omega
        . have := le_of_copied_mem h hcopied
          omega
      . intro hnot
        refine ⟨last, m.start, .inl ⟨rfl, rfl⟩, hlast, ?_⟩
        by_contra hge
        exact hnot ⟨m, by simp, by omega, by omega⟩

end

section

def rank (kind : Str) : Nat :=
  (detectors.map (·.kind)).idxOf kind

def Match.Before (a b : Match) : Prop :=
  a.start < b.start ∨ a.start = b.start ∧ rank a.kind < rank b.kind

theorem Match.Before.trans {a b c : Match} (h : a.Before b) (h' : b.Before c) : a.Before c := by
  unfold Match.Before at *
  omega

theorem Match.Before.start_le {a b : Match} (h : a.Before b) : a.start ≤ b.start := by
  unfold Match.Before at h
  omega

theorem Match.Before.wellFounded : WellFounded Match.Before := by
  have hlex : WellFounded (Prod.Lex (· < · : Nat → Nat → Prop) (· < · : Nat → Nat → Prop)) :=
    WellFounded.prod_lex Nat.lt_wfRel.wf Nat.lt_wfRel.wf
  apply Subrelation.wf _ (InvImage.wf (fun m : Match => (m.start, rank m.kind)) hlex)
  intro a b h
  exact Prod.lex_def.mpr h

variable {payload : Str}

theorem pairwise_found
    : (found payload).Pairwise (fun a b => a.start = b.start → rank a.kind < rank b.kind) := by
  unfold found
  rw [pairwise_flatMap]
  constructor
  . intro d _
    unfold Detector.findings
    rw [pairwise_filterMap]
    apply Regex.pairwise_findAllIndex.imp_of_mem
    intro span span' hspan _ hle m hm m' hm' hstart
    have hlt := (Regex.mem_findAllIndex hspan).1
    dsimp only at hm hm'
    split at hm <;> split at hm' <;> simp at hm hm'
    subst hm hm'
    dsimp only at hstart
    omega
  . have hkinds : detectors.Pairwise (fun a b => rank a.kind < rank b.kind) := by decide
    apply hkinds.imp
    intro a b hab x hx y hy _
    rw [(mem_findings.mp hx).2.1, (mem_findings.mp hy).2.1]
    exact hab

theorem before_or_before {a b : Match} (ha : a ∈ found payload) (hb : b ∈ found payload)
    : a = b ∨ a.Before b ∨ b.Before a := by
  have hsorted : (sortByStart (found payload)).Pairwise Match.Before := pairwise_sortByStart pairwise_found
  exact Intervals.eq_or_related hsorted (mem_sortByStart.mpr ha) (mem_sortByStart.mpr hb)

end

section

variable (hmac : Str → Str → Str) (pepper payload : Str) (strategy : Strategy)

def Masked : Prop :=
  (transformMatches hmac pepper payload (detect payload) strategy).payload
    =
  (pieces hmac pepper payload strategy (detect payload)).flatMap (·.text payload) ∧
  ∀ d ∈ detectors, ∀ m ∈ d.findings payload, ∀ i, m.start ≤ i → i < m.finish →
    ∀ start finish, .copied start finish ∈ pieces hmac pepper payload strategy (detect payload) →
      ¬ (start ≤ i ∧ i < finish)

variable {hmac pepper payload strategy}

theorem found_locates {m : Match} (h : m ∈ found payload) : m.Locates payload := by
  rcases mem_found.mp h with ⟨d, _, hm⟩
  exact findings_locates hm

theorem masked_iff_covers (hstrategy : strategy ≠ .none)
    : Masked hmac pepper payload strategy ↔ ∀ m ∈ found payload, ∀ i, m.start ≤ i → i < m.finish →
        Intervals.Covers Match.start Match.finish (detect payload) i := by
  have hordered : Ordered payload 0 (detect payload) :=
    withoutOverlaps_ordered (fun m hm => found_locates hm)
  constructor
  . rintro ⟨_, h⟩ m hm i hi hi'
    rcases mem_found.mp hm with ⟨d, hd, hm'⟩
    have hlt := Nat.lt_of_lt_of_le hi' (found_locates hm).within
    by_contra hnot
    rcases (copied_iff hordered (Nat.zero_le i) hlt).mpr hnot with ⟨start, finish, hcopied, hcovers⟩
    exact h d hd m hm' i hi hi' start finish hcopied hcovers
  . intro h
    refine ⟨transformMatches_payload hstrategy _, ?_⟩
    intro d hd m hm i hi hi' start finish hcopied hcovers
    have hmem := mem_found.mpr ⟨d, hd, hm⟩
    have hlt := Nat.lt_of_lt_of_le hi' (found_locates hmem).within
    exact (copied_iff hordered (Nat.zero_le i) hlt).mp ⟨start, finish, hcopied, hcovers⟩
      (h m hmem i hi hi')

theorem exists_uncovered {a b : Match} (ha : a ∈ detect payload) (hb : b ∈ found payload)
    (hab : a.Before b) (hstart : b.start < a.finish) (hfinish : a.finish < b.finish)
    : ∃ m ∈ found payload, ∃ i, m.start ≤ i ∧ i < m.finish ∧
        ¬ Intervals.Covers Match.start Match.finish (detect payload) i := by
  have hsorted : (sortByStart (found payload)).Pairwise Match.Before := pairwise_sortByStart pairwise_found
  have hkept : ∀ m ∈ detect payload, m ∈ found payload := by
    intro m hm
    rw [detect_eq, withoutOverlaps_eq_select] at hm
    exact mem_sortByStart.mp (Intervals.select_sublist.subset hm)
  have hapart : ∀ x ∈ detect payload, ∀ y ∈ detect payload, x.Before y → x.finish ≤ y.start := by
    intro x hx y hy hxy
    rw [detect_eq, withoutOverlaps_eq_select] at hx hy
    apply Intervals.finish_le_start hsorted Match.Before.wellFounded _ hx hy hxy
    intro m hm
    exact (found_locates (mem_sortByStart.mp hm)).ordered
  have hbkept : b ∉ detect payload := by
    intro hmem
    have := hapart a ha b hmem hab
    omega
  by_cases hcovered : Intervals.Covers Match.start Match.finish (detect payload) a.finish
  . rcases hcovered with ⟨c, hc, hcstart, hcfinish⟩
    rcases mem_found.mp (hkept a ha) with ⟨da, hda, hafound⟩
    rcases mem_found.mp hb with ⟨db, hdb, hbfound⟩
    rcases mem_found.mp (hkept c hc) with ⟨dc, hdc, hcfound⟩
    have hend := findings_end hda hafound
    have halt := (findings_accepts hafound).1
    -- What covers the byte after a kept match starts there.
    have hstartc : c.start = a.finish := by
      rcases before_or_before (hkept a ha) (hkept c hc) with heq | hac | hca
      . rw [heq] at hcfinish
        omega
      . have := hapart a ha c hc hac
        omega
      . have := hapart c hc a ha hca
        omega
    rcases findings_start hdc hcfound (by rw [hstartc]; exact hend.2) with hemail | hplus
    . rcases email_follows (mem_email_findings hdc hcfound hemail) (by rw [hstartc]; exact hend.2)
        with ⟨e, he, hefinish⟩
      have hae := eq_of_covers_email_end he hda hafound (by omega) (by omega)
      have hbe := eq_of_covers_email_end he hdb hbfound (by omega) (by omega)
      rw [hae, hbe] at hfinish
      omega
    . rw [hstartc] at hplus
      have hemail := mem_email_findings hdb hbfound
        (findings_inside hdb hbfound hstart hfinish hplus)
      refine ⟨b, hb, b.finish - 1, by omega, by omega, ?_⟩
      rintro ⟨m, hm, hmstart, hmfinish⟩
      rcases mem_found.mp (hkept m hm) with ⟨dm, hdm, hmfound⟩
      have heq := eq_of_covers_email_end hemail hdm hmfound (by omega) (by omega)
      rw [heq] at hm
      exact hbkept hm
  . exact ⟨b, hb, a.finish, by omega, hfinish, hcovered⟩

theorem masked_iff (hstrategy : strategy ≠ .none)
    : Masked hmac pepper payload strategy
        ↔
      Intervals.Nested Match.start Match.finish Match.Before (found payload) := by
  have hsorted : (sortByStart (found payload)).Pairwise Match.Before := pairwise_sortByStart pairwise_found
  have hnested : Intervals.Nested Match.start Match.finish Match.Before (found payload)
        ↔
      Intervals.Nested Match.start Match.finish Match.Before (sortByStart (found payload)) := by
    simp only [Intervals.Nested, mem_sortByStart]
  rw [masked_iff_covers hstrategy, hnested]
  constructor
  . intro h
    apply Intervals.nested_of_covered hsorted Match.Before.trans
    . intro a ha b hb hab hstart hfinish
      rw [← withoutOverlaps_eq_select, ← detect_eq] at ha ⊢
      rcases exists_uncovered ha (mem_sortByStart.mp hb) hab hstart hfinish with ⟨m, hm, hi⟩
      exact ⟨m, mem_sortByStart.mpr hm, hi⟩
    . intro m hm
      rw [← withoutOverlaps_eq_select]
      exact h m (mem_sortByStart.mp hm)
  . intro h m hm i hi hi'
    rcases Intervals.exists_kept_of_nested hsorted Match.Before.wellFounded Match.Before.trans
      Match.Before.start_le h (mem_sortByStart.mpr hm) with ⟨k, hk, hstart, hfinish⟩
    rw [← withoutOverlaps_eq_select] at hk
    exact ⟨k, hk, by omega, by omega⟩

end

namespace Sample

def hidden (_ _ : Str) : Str := str "0123456789abcdef"

def nested : Str := str "a+15551234567@x.co or +15557654321"

def mixed : Str := str "+15551234567@x.co"

end Sample

open Sample

theorem nested_masked : Masked Sample.hidden [] nested .redact := by
  apply (masked_iff (by simp)).mpr
  have hinside : (found nested).map (·.kind) = [str "EMAIL", str "PHONE", str "PHONE"] ∧
      ∀ a ∈ found nested, ∀ b ∈ found nested, a.start ≤ b.start → b.start < a.finish → b.finish ≤ a.finish := by
    decide +kernel
  intro a ha b hb hab hstart hfinish
  have := hinside.2 a ha b hb hab.start_le hstart
  omega

theorem mixed_not_masked : ¬ Masked Sample.hidden [] mixed .tokenize := by
  rintro ⟨_, h⟩
  have hdetect : detect mixed = [⟨str "PHONE", 0, 12, str "+15551234567"⟩] := by
    decide +kernel
  have hemail : (⟨str "EMAIL", 1, 17, str "15551234567@x.co"⟩ : Match)
      ∈ emailDetector.findings mixed := by
    decide +kernel
  apply h emailDetector (by simp [detectors, emailDetector]) _ hemail 12 (by decide) (by decide) 12 17
  . rw [hdetect]
    have hlength : mixed.length = 17 := rfl
    simp [pieces, piecesFrom, hlength]
  . decide

end ModelGateway.Pii
