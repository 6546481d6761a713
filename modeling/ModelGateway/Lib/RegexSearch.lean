import Mathlib.Data.List.Induction
import ModelGateway.Lib.RegexLemmas

namespace Regex

open List

section

def Cursor.into (text : List UInt8) (i : Nat) : Cursor :=
  ⟨if i = 0 then none else text[i - 1]?, text.drop i, i⟩

variable {r : Regex} {text : List UInt8}

variable {i : Nat}

theorem Cursor.next_into (hi : i < text.length)
    : (into text i).next = some (text[i], into text (i + 1)) := by
  unfold next into
  rw [drop_eq_getElem_cons hi]
  simp [hi]

theorem Cursor.next_into_of_le (hi : text.length ≤ i) : (into text i).next = none := by
  unfold next into
  rw [drop_eq_nil_of_le hi]

theorem Cursor.Reads.into_eq {w : List UInt8} {c : Cursor} (h : (into text i).Reads w c)
    : c = into text (i + w.length) := by
  rcases c with ⟨prev, rest, pos⟩
  have hrest := h.rest
  have hpos := h.pos
  have hprev := h.prev
  unfold into at *
  dsimp only at *
  have hdrop : rest = text.drop (i + w.length) := by
    rw [← drop_drop, hrest, drop_left]
  rw [hprev, hdrop]
  congr 1
  cases w using reverseRecOn with
  | nil => simp
  | append_singleton w b _ =>
    have hget : text[i + w.length]? = some b := by
      rw [← getElem?_drop, hrest]
      simp
    simp [hget, ← Nat.add_assoc]

theorem Cursor.Reads.getElem? {i j : Nat} {w : List UInt8} {c : Cursor} (h : (into text i).Reads w c)
    (hj : j < w.length)
    : text[i + j]? = w[j]? := by
  have hrest : text.drop i = w ++ c.rest := h.rest
  rw [← getElem?_drop, hrest, getElem?_append_left hj]

theorem Cursor.reads_into {i j : Nat} (hij : i ≤ j) (hj : j ≤ text.length)
    : (into text i).Reads ((text.take j).drop i) (into text j) := by
  have hlength : ((text.take j).drop i).length = j - i := by
    rw [length_drop, length_take]
    omega
  have hrest : text.drop i = (text.take j).drop i ++ text.drop j := by
    rw [← drop_append_of_le_length (by rw [length_take]; omega), take_append_drop]
  have hreads : (into text i).Reads ((text.take j).drop i)
      ⟨((text.take j).drop i).getLast?.or (into text i).prev, text.drop j, i + (j - i)⟩ :=
    ⟨hrest, by rw [hlength]; rfl, rfl⟩
  have hinto := hreads.into_eq
  rw [hlength, Nat.add_sub_cancel' hij] at hinto
  rw [Nat.add_sub_cancel' hij, hinto] at hreads
  exact hreads

def wordAt (text : List UInt8) (i : Nat) : Bool :=
  text[i]?.any isWordByte

theorem Cursor.atWordBoundary_into
    : (into text i).atWordBoundary = ((i != 0 && wordAt text (i - 1)) != wordAt text i) := by
  unfold atWordBoundary into wordAt
  rw [head?_drop]
  by_cases hi : i = 0
  . simp [hi]
  . simp [hi]

theorem exists_word_start (h : wordAt text i = true)
    : ∃ j ≤ i, (∀ k, j ≤ k → k ≤ i → wordAt text k = true) ∧
        (Cursor.into text j).atWordBoundary = true := by
  induction i with
  | zero =>
    refine ⟨0, Nat.le_refl _, ?_, ?_⟩
    . intro k _ hk
      rw [Nat.le_zero.mp hk]
      exact h
    . rw [Cursor.atWordBoundary_into]
      simp [h]
  | succ i ih =>
    cases hprev : wordAt text i with
    | true =>
      rcases ih hprev with ⟨j, hj, hword, hboundary⟩
      refine ⟨j, by omega, ?_, hboundary⟩
      intro k hjk hk
      by_cases hlast : k = i + 1
      . rw [hlast]
        exact h
      . exact hword k hjk (by omega)
    | false =>
      refine ⟨i + 1, Nat.le_refl _, ?_, ?_⟩
      . intro k hik hk
        rw [show k = i + 1 by omega]
        exact h
      . rw [Cursor.atWordBoundary_into]
        simp [h, hprev]

variable {fuel until_ : Nat}

theorem mem_findAllIndex_go {span : Nat × Nat}
    (h : span ∈ findAllIndex.go r fuel (.into text i) until_)
    : i ≤ span.1 ∧ until_ ≤ span.1 ∧ span.1 < span.2 ∧ r.matchAt (.into text span.1) = some span.2
      := by
  induction fuel generalizing i until_ with
  | zero => simp [findAllIndex.go] at h
  | succ fuel ih =>
    unfold findAllIndex.go at h
    by_cases hi : i < text.length
    . rw [Cursor.next_into hi] at h
      dsimp only at h
      split at h
      . have := ih h
        exact ⟨by omega, this.2⟩
      . next huntil =>
        split at h
        . next finish hfinish =>
          split at h
          . next hlt =>
            rcases mem_cons.mp h with rfl | h
            . exact ⟨Nat.le_refl _, Nat.le_of_not_lt huntil, hlt, hfinish⟩
            . rcases ih h with ⟨hle, hfrom, hspan⟩
              exact ⟨by omega, by omega, hspan⟩
          . have := ih h
            exact ⟨by omega, this.2⟩
        . have := ih h
          exact ⟨by omega, this.2⟩
    . rw [Cursor.next_into_of_le (by omega)] at h
      simp at h

theorem pairwise_findAllIndex_go
    : (findAllIndex.go r fuel (.into text i) until_).Pairwise (fun a b => a.2 ≤ b.1) := by
  induction fuel generalizing i until_ with
  | zero => exact List.Pairwise.nil
  | succ fuel ih =>
    unfold findAllIndex.go
    by_cases hi : i < text.length
    . rw [Cursor.next_into hi]
      dsimp only
      split
      . exact ih
      . split
        . split
          . apply List.Pairwise.cons _ ih
            intro span hspan
            exact (mem_findAllIndex_go hspan).2.1
          . exact ih
        . exact ih
    . rw [Cursor.next_into_of_le (by omega)]
      exact List.Pairwise.nil

theorem findAllIndex_go_covers (hfuel : text.length ≤ i + fuel) {start finish : Nat}
    (hle : i ≤ start) (hlt : start < text.length) (huntil : until_ ≤ start)
    (hmatch : r.matchAt (.into text start) = some finish) (hfinish : start < finish)
    : ∃ span ∈ findAllIndex.go r fuel (.into text i) until_, span.1 ≤ start ∧ start < span.2 := by
  induction fuel generalizing i until_ with
  | zero => omega
  | succ fuel ih =>
    unfold findAllIndex.go
    rw [Cursor.next_into (by omega)]
    change ∃ span ∈ if i < until_ then _ else _, _
    split
    . apply ih (by omega) (by omega) huntil
    . split
      . next finish' hmatch' =>
        change ∃ span ∈ if i < finish' then (i, finish') :: _ else _, _
        split
        . next hlt' =>
          -- Either this match lies over the place, or the search goes on from its end.
          by_cases hover : start < finish'
          . exact ⟨(i, finish'), by simp, hle, hover⟩
          . rcases @ih (i + 1) finish' (by omega) (by omega) (by omega) with ⟨span, hspan, hcovers⟩
            exact ⟨span, by simp [hspan], hcovers⟩
        . next hempty =>
          have hne : i ≠ start := by
            rintro rfl
            rw [hmatch] at hmatch'
            cases hmatch'
            omega
          apply ih (by omega) (by omega) huntil
      . next hnone =>
        have hne : i ≠ start := by
          rintro rfl
          rw [hmatch] at hnone
          simp at hnone
        apply ih (by omega) (by omega) huntil

theorem mem_findAllIndex {span : Nat × Nat} (h : span ∈ r.findAllIndex text)
    : span.1 < span.2 ∧ r.Accepts (.into text span.1) (.into text span.2) := by
  rcases @mem_findAllIndex_go r text 0 text.length 0 span h with ⟨_, _, hlt, hmatch⟩
  rcases matchAt_sound hmatch with ⟨c', haccepts, hpos⟩
  rcases haccepts.reads with ⟨w, hreads, _⟩
  have hfinish : span.2 = span.1 + w.length := by
    rw [← hpos, hreads.pos]
    rfl
  have hc' : c' = .into text span.2 := by
    rw [hreads.into_eq, hfinish]
  subst hc'
  exact ⟨hlt, haccepts⟩

theorem pairwise_findAllIndex : (r.findAllIndex text).Pairwise (fun a b => a.2 ≤ b.1) :=
  @pairwise_findAllIndex_go r text 0 text.length 0

theorem findAllIndex_covers (hr : r.productive = true) (hconsumes : r.consumes = true) {start : Nat}
    {c : Cursor} (h : r.Accepts (.into text start) c)
    : ∃ span ∈ r.findAllIndex text, span.1 ≤ start ∧ start < span.2 := by
  rcases Option.isSome_iff_exists.mp (matchAt_complete hr h) with ⟨finish, hmatch⟩
  rcases matchAt_sound hmatch with ⟨c', haccepts, hpos⟩
  rcases haccepts.reads with ⟨w, hreads, hne⟩
  have hwpos := length_pos_of_ne_nil (hne hconsumes)
  have hlength := hreads.length_le
  have hfinish : finish = start + w.length := by
    rw [← hpos, hreads.pos]
    rfl
  change _ = (text.drop start).length at hlength
  rw [length_drop] at hlength
  apply @findAllIndex_go_covers r text 0 text.length 0 (by simp) _ _ (Nat.zero_le _) (by omega)
    (Nat.zero_le _) hmatch
  omega

end

section

variable {p : UInt8 → Bool} {r : Regex} {c c' : Cursor}

def forallByte (p : UInt8 → Bool) : Bool :=
  (List.range 256).all fun n => p (UInt8.ofNat n)

theorem forallByte_imp {q : UInt8 → Bool} (h : forallByte (fun b => !q b || p b) = true) {b : UInt8}
    (hb : q b = true)
    : p b = true := by
  unfold forallByte at h
  rw [all_eq_true] at h
  have := h b.toNat (mem_range.mpr b.toNat_lt)
  simpa [hb] using this

def isWordBoundary : Regex → Bool
  | .wordBoundary => true
  | .byte _ | .seq _ _ | .rep _ _ _ => false

def within (p : UInt8 → Bool) : Regex → Bool
  | .byte accepts => forallByte fun b => !accepts b || p b
  | .seq r s => r.within p && s.within p
  | .rep r _ _ => r.within p
  | .wordBoundary => true

def startsIn (p : UInt8 → Bool) : Regex → Bool
  | .byte accepts => forallByte fun b => !accepts b || p b
  | .seq r s => r.startsIn p || (r.isWordBoundary && s.startsIn p)
  | .rep r min _ => 0 < min && r.startsIn p
  | .wordBoundary => false

def endsIn (p : UInt8 → Bool) : Regex → Bool
  | .byte accepts => forallByte fun b => !accepts b || p b
  | .seq r s => s.endsIn p || (s.isWordBoundary && r.endsIn p)
  | .rep r min _ => 0 < min && r.endsIn p
  | .wordBoundary => false

def endsAtBoundary : Regex → Bool
  | .seq _ s => s.endsAtBoundary
  | .wordBoundary => true
  | .byte _ | .rep _ _ _ => false

theorem Accepts.eq_of_isWordBoundary (h : r.Accepts c c') (hr : r.isWordBoundary = true) : c = c' := by
  cases r with
  | wordBoundary => exact h.1
  | byte accepts => simp [isWordBoundary] at hr
  | seq r s => simp [isWordBoundary] at hr
  | rep r min max => simp [isWordBoundary] at hr

theorem Accepts.reads_within (h : r.Accepts c c') (hr : r.within p = true)
    : ∃ w, c.Reads w c' ∧ ∀ b ∈ w, p b = true := by
  induction r generalizing c c' with
  | byte accepts =>
    rcases accepts_byte.mp h with ⟨b, hb, hreads⟩
    exact ⟨[b], hreads, by simpa using forallByte_imp hr hb⟩
  | seq r s ihr ihs =>
    unfold within at hr
    rw [Bool.and_eq_true] at hr
    rcases h with ⟨m, h, h'⟩
    rcases ihr h hr.1 with ⟨w, hw, hwp⟩
    rcases ihs h' hr.2 with ⟨v, hv, hvp⟩
    refine ⟨w ++ v, hw.append hv, ?_⟩
    intro b hb
    rcases mem_append.mp hb with hb | hb
    . exact hwp b hb
    . exact hvp b hb
  | rep r min max ih =>
    rcases h with ⟨n, _, _, h⟩
    rcases Times.reads (fun _ _ h => ih h hr) h with ⟨ws, _, hall, hreads⟩
    refine ⟨ws.flatten, hreads, ?_⟩
    intro b hb
    rcases mem_flatten.mp hb with ⟨w, hw, hb⟩
    exact hall w hw b hb
  | wordBoundary =>
    rcases h with ⟨rfl, _⟩
    exact ⟨[], .nil c, by simp⟩

theorem Accepts.reads_startsIn (h : r.Accepts c c') (hr : r.startsIn p = true)
    : ∃ b w, c.Reads (b :: w) c' ∧ p b = true := by
  induction r generalizing c c' with
  | byte accepts =>
    rcases accepts_byte.mp h with ⟨b, hb, hreads⟩
    exact ⟨b, [], hreads, forallByte_imp hr hb⟩
  | seq r s ihr ihs =>
    unfold startsIn at hr
    rw [Bool.or_eq_true, Bool.and_eq_true] at hr
    rcases h with ⟨m, h, h'⟩
    rcases hr with hr | ⟨hboundary, hr⟩
    . rcases ihr h hr with ⟨b, w, hw, hb⟩
      rcases h'.reads with ⟨v, hv, _⟩
      exact ⟨b, w ++ v, hw.append hv, hb⟩
    . rw [h.eq_of_isWordBoundary hboundary]
      exact ihs h' hr
  | rep r min max ih =>
    unfold startsIn at hr
    rw [Bool.and_eq_true, decide_eq_true_eq] at hr
    rcases h with ⟨n, hmin, _, h⟩
    cases n with
    | zero => omega
    | succ n =>
      rcases h with ⟨m, h, h'⟩
      rcases ih h hr.2 with ⟨b, w, hw, hb⟩
      rcases Times.reads (fun _ _ h => h.reads) h' with ⟨ws, _, _, hreads⟩
      exact ⟨b, w ++ ws.flatten, hw.append hreads, hb⟩
  | wordBoundary => simp [startsIn] at hr

theorem Times.reads_endsIn
    (hr : ∀ {c c'}, r.Accepts c c' → ∃ w b, c.Reads (w ++ [b]) c' ∧ p b = true)
    {n : Nat} (hn : 0 < n) (h : Times r.Accepts n c c')
    : ∃ w b, c.Reads (w ++ [b]) c' ∧ p b = true := by
  induction n generalizing c with
  | zero => omega
  | succ n ih =>
    rcases h with ⟨m, h, h'⟩
    cases n with
    | zero =>
      cases h'
      exact hr h
    | succ n =>
      rcases h.reads with ⟨v, hv, _⟩
      rcases ih (by omega) h' with ⟨w, b, hw, hb⟩
      exact ⟨v ++ w, b, by simpa using hv.append hw, hb⟩

theorem Accepts.reads_endsIn (h : r.Accepts c c') (hr : r.endsIn p = true)
    : ∃ w b, c.Reads (w ++ [b]) c' ∧ p b = true := by
  induction r generalizing c c' with
  | byte accepts =>
    rcases accepts_byte.mp h with ⟨b, hb, hreads⟩
    exact ⟨[], b, hreads, forallByte_imp hr hb⟩
  | seq r s ihr ihs =>
    unfold endsIn at hr
    rw [Bool.or_eq_true, Bool.and_eq_true] at hr
    rcases h with ⟨m, h, h'⟩
    rcases hr with hr | ⟨hboundary, hr⟩
    . rcases ihs h' hr with ⟨w, b, hw, hb⟩
      rcases h.reads with ⟨v, hv, _⟩
      exact ⟨v ++ w, b, by simpa using hv.append hw, hb⟩
    . rw [← h'.eq_of_isWordBoundary hboundary]
      exact ihr h hr
  | rep r min max ih =>
    unfold endsIn at hr
    rw [Bool.and_eq_true, decide_eq_true_eq] at hr
    rcases h with ⟨n, hmin, _, h⟩
    exact Times.reads_endsIn (fun h => ih h hr.2) (by omega) h
  | wordBoundary => simp [endsIn] at hr

theorem Accepts.atWordBoundary (h : r.Accepts c c') (hr : r.endsAtBoundary = true)
    : c'.atWordBoundary = true := by
  induction r generalizing c c' with
  | byte accepts => simp [endsAtBoundary] at hr
  | seq r s _ ihs =>
    rcases h with ⟨m, _, h'⟩
    exact ihs h' hr
  | rep r min max _ => simp [endsAtBoundary] at hr
  | wordBoundary =>
    rcases h with ⟨rfl, hb⟩
    exact hb

end

end Regex
