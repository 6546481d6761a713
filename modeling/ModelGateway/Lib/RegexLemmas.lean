import ModelGateway.Lib.Regex

namespace Regex

open List

structure Cursor.Reads (c : Cursor) (w : List UInt8) (c' : Cursor) : Prop where
  rest : c.rest = w ++ c'.rest
  pos : c'.pos = c.pos + w.length
  prev : c'.prev = w.getLast?.or c.prev

namespace Cursor

theorem Reads.nil (c : Cursor) : c.Reads [] c :=
  ⟨rfl, rfl, rfl⟩

variable {c c' : Cursor}

theorem Reads.eq_of_nil (h : c.Reads [] c') : c = c' := by
  rcases c with ⟨prev, rest, pos⟩
  rcases c' with ⟨_, _, pos'⟩
  rcases h with ⟨hrest, hpos, hprev⟩
  simp_all

theorem reads_singleton {b : UInt8} : c.Reads [b] c' ↔ c.next = some (b, c') := by
  rcases c with ⟨prev, rest, pos⟩
  rcases c' with ⟨_, _, pos'⟩
  unfold next
  constructor
  . rintro ⟨hrest, hpos, hprev⟩
    simp_all
  . intro h
    cases rest with
    | nil => simp at h
    | cons b' rest =>
      rcases h with ⟨rfl, rfl, rfl, rfl⟩
      exact ⟨rfl, rfl, rfl⟩

variable {w : List UInt8}

theorem Reads.append {m : Cursor} {v : List UInt8} (h : c.Reads w m) (h' : m.Reads v c')
    : c.Reads (w ++ v) c' := by
  refine ⟨?_, ?_, ?_⟩
  . rw [h.rest, h'.rest, append_assoc]
  . rw [h'.pos, h.pos, length_append]
    omega
  . rw [h'.prev, h.prev, getLast?_append, Option.or_assoc]

theorem Reads.exists_of_append {v : List UInt8} (h : c.Reads (w ++ v) c')
    : ∃ m, c.Reads w m ∧ m.Reads v c' := by
  refine ⟨⟨w.getLast?.or c.prev, v ++ c'.rest, c.pos + w.length⟩, ⟨?_, rfl, rfl⟩, ⟨rfl, ?_, ?_⟩⟩
  . rw [h.rest, append_assoc]
  . rw [h.pos, length_append]
    dsimp only
    omega
  . rw [h.prev, getLast?_append, Option.or_assoc]

theorem Reads.length_le (h : c.Reads w c') : c'.rest.length + w.length = c.rest.length := by
  rw [h.rest, length_append]
  omega

end Cursor

def Times (R : Cursor → Cursor → Prop) : Nat → Cursor → Cursor → Prop
  | 0, c, c' => c = c'
  | n + 1, c, c' => ∃ m, R c m ∧ Times R n m c'

def Accepts : Regex → Cursor → Cursor → Prop
  | .byte accepts, c, c' => ∃ b, c.next = some (b, c') ∧ accepts b = true
  | .seq r s, c, c' => ∃ m, r.Accepts c m ∧ s.Accepts m c'
  | .rep r min max, c, c' => ∃ n, min ≤ n ∧ (∀ most ∈ max, n ≤ most) ∧ Times r.Accepts n c c'
  | .wordBoundary, c, c' => c = c' ∧ c.atWordBoundary = true

def consumes : Regex → Bool
  | .byte _ => true
  | .seq r s => r.consumes || s.consumes
  | .rep r min _ => r.consumes && min != 0
  | .wordBoundary => false

def productive : Regex → Bool
  | .byte _ => true
  | .seq r s => r.productive && s.productive
  | .rep r _ _ => r.productive && r.consumes
  | .wordBoundary => true

variable {c c' : Cursor}

theorem Times.reads {R : Cursor → Cursor → Prop} {P : List UInt8 → Prop}
    (hR : ∀ c c', R c c' → ∃ w, c.Reads w c' ∧ P w) {n : Nat} (h : Times R n c c')
    : ∃ ws : List (List UInt8), ws.length = n ∧ (∀ w ∈ ws, P w) ∧ c.Reads ws.flatten c' := by
  induction n generalizing c with
  | zero =>
    cases h
    exact ⟨[], rfl, by simp, .nil _⟩
  | succ n ih =>
    rcases h with ⟨m, hm, h⟩
    rcases hR c m hm with ⟨w, hw, hPw⟩
    rcases ih h with ⟨ws, hlength, hall, hws⟩
    refine ⟨w :: ws, by simp [hlength], ?_, ?_⟩
    . intro v hv
      rcases mem_cons.mp hv with rfl | hv
      . exact hPw
      . exact hall v hv
    . apply hw.append hws

variable {r : Regex}

theorem Accepts.reads (h : r.Accepts c c') : ∃ w, c.Reads w c' ∧ (r.consumes = true → w ≠ []) := by
  induction r generalizing c c' with
  | byte accepts =>
    rcases h with ⟨b, hb, _⟩
    exact ⟨[b], Cursor.reads_singleton.mpr hb, by simp⟩
  | seq r s ihr ihs =>
    rcases h with ⟨m, hr, hs⟩
    rcases ihr hr with ⟨w, hw, hwne⟩
    rcases ihs hs with ⟨v, hv, hvne⟩
    refine ⟨w ++ v, hw.append hv, ?_⟩
    intro hconsumes
    unfold consumes at hconsumes
    rw [Bool.or_eq_true] at hconsumes
    rcases hconsumes with h | h
    . simp [hwne h]
    . simp [hvne h]
  | rep r min max ih =>
    rcases h with ⟨n, hmin, _, h⟩
    rcases Times.reads (fun _ _ => ih) h with ⟨ws, hlength, hall, hreads⟩
    refine ⟨ws.flatten, hreads, ?_⟩
    intro hconsumes
    unfold consumes at hconsumes
    simp only [Bool.and_eq_true, bne_iff_ne] at hconsumes
    cases ws with
    | nil =>
      rw [length_nil] at hlength
      omega
    | cons w ws => simp [hall w (by simp) hconsumes.1]
  | wordBoundary =>
    rcases h with ⟨rfl, _⟩
    exact ⟨[], .nil c, by simp [consumes]⟩

variable {p : UInt8 → Bool}

theorem accepts_byte : (byte p).Accepts c c' ↔ ∃ b, p b = true ∧ c.Reads [b] c' := by
  unfold Accepts
  simp only [Cursor.reads_singleton, and_comm]

theorem accepts_lit {b : UInt8} : (lit b).Accepts c c' ↔ c.Reads [b] c' := by
  simp [lit, accepts_byte]

theorem times_byte {n : Nat}
    : Times (byte p).Accepts n c c'
        ↔
      ∃ w : List UInt8, w.length = n ∧ (∀ b ∈ w, p b = true) ∧ c.Reads w c' := by
  induction n generalizing c with
  | zero =>
    constructor
    . rintro rfl
      exact ⟨[], rfl, by simp, .nil _⟩
    . rintro ⟨w, hw, _, h⟩
      rw [length_eq_zero_iff] at hw
      subst hw
      exact h.eq_of_nil
  | succ n ih =>
    constructor
    . rintro ⟨m, hm, h⟩
      rcases accepts_byte.mp hm with ⟨b, hb, hread⟩
      rcases ih.mp h with ⟨w, hw, hall, hreads⟩
      refine ⟨b :: w, by simp [hw], by simpa using ⟨hb, hall⟩, ?_⟩
      apply hread.append hreads
    . rintro ⟨w, hw, hall, h⟩
      cases w with
      | nil => simp at hw
      | cons b w =>
        rcases Cursor.Reads.exists_of_append (w := [b]) (v := w) h with ⟨m, hm, h⟩
        refine ⟨m, accepts_byte.mpr ⟨b, hall b (by simp), hm⟩, ih.mpr ⟨w, ?_, ?_, h⟩⟩
        . simpa using hw
        . intro x hx
          apply hall x (by simp [hx])

variable {max : Option Nat}

theorem accepts_rep_byte {min : Nat}
    : (rep (byte p) min max).Accepts c c'
        ↔
      ∃ w : List UInt8, min ≤ w.length ∧ (∀ most ∈ max, w.length ≤ most) ∧
        (∀ b ∈ w, p b = true) ∧ c.Reads w c' := by
  constructor
  . rintro ⟨n, hmin, hmax, h⟩
    rcases times_byte.mp h with ⟨w, rfl, hall, hreads⟩
    exact ⟨w, hmin, hmax, hall, hreads⟩
  . rintro ⟨w, hmin, hmax, hall, hreads⟩
    exact ⟨w.length, hmin, hmax, times_byte.mpr ⟨w, rfl, hall, hreads⟩⟩

theorem accepts_plus_byte
    : (plus (byte p)).Accepts c c'
        ↔
      ∃ w : List UInt8, w ≠ [] ∧ (∀ b ∈ w, p b = true) ∧ c.Reads w c' := by
  unfold plus
  rw [accepts_rep_byte]
  simp [Nat.one_le_iff_ne_zero]

section

variable {k : Cursor → Option Nat} {x : Nat}
  {step : Cursor → (Cursor → Option Nat) → Option Nat} {R : Cursor → Cursor → Prop} {c : Cursor}

theorem iterate_sound (hstep : ∀ c k x, step c k = some x → ∃ c', R c c' ∧ k c' = some x)
    {fuel min : Nat} (h : iterate step k fuel min max c = some x)
    : ∃ n c', min ≤ n ∧ (∀ most ∈ max, n ≤ most) ∧ Times R n c c' ∧ k c' = some x := by
  -- Stopping here is an answer when no further iteration is needed.
  have hstop : ∀ {min : Nat} {max : Option Nat} {c : Cursor}, (if min = 0 then k c else none) = some x →
      ∃ n c', min ≤ n ∧ (∀ most ∈ max, n ≤ most) ∧ Times R n c c' ∧ k c' = some x := by
    intro min max c h
    split at h
    . next hmin => exact ⟨0, c, by omega, by simp, rfl, h⟩
    . simp at h
  induction fuel generalizing min max c with
  | zero => exact hstop h
  | succ fuel ih =>
    unfold iterate at h
    dsimp only at h
    split at h
    . exact hstop h
    . next hmax =>
      split at h
      . next finish hfinish =>
        cases h
        rcases hstep _ _ _ hfinish with ⟨m, hm, hrest⟩
        rcases ih hrest with ⟨n, c', hmin, hmost, htimes, hk⟩
        refine ⟨n + 1, c', by omega, ?_, ⟨m, hm, htimes⟩, hk⟩
        intro most hmem
        cases hmem
        have := hmost (most - 1) rfl
        have : most ≠ 0 := by simpa using hmax
        omega
      . exact hstop h

theorem accepts_of_run {c : Cursor} (h : r.run c k = some x)
    : ∃ c', r.Accepts c c' ∧ k c' = some x := by
  induction r generalizing c k x with
  | byte accepts =>
    unfold run at h
    split at h
    . simp at h
    . next b c' hnext =>
      split at h
      . next haccepts => exact ⟨c', ⟨b, hnext, haccepts⟩, h⟩
      . simp at h
  | seq r s ihr ihs =>
    rcases ihr h with ⟨m, hm, hs⟩
    rcases ihs hs with ⟨c', hc', hk⟩
    exact ⟨c', ⟨m, hm, hc'⟩, hk⟩
  | rep r min max ih =>
    rcases iterate_sound (fun _ _ _ h => ih h) h with ⟨n, c', hmin, hmax, htimes, hk⟩
    exact ⟨c', ⟨n, hmin, hmax, htimes⟩, hk⟩
  | wordBoundary =>
    unfold run at h
    split at h
    . next hb => exact ⟨c, ⟨rfl, hb⟩, h⟩
    . simp at h

variable {c' : Cursor}

theorem iterate_complete (hstep : ∀ c c' k, R c c' → (k c').isSome → (step c k).isSome)
    {fuel min n : Nat} (hfuel : n ≤ fuel) (hmin : min ≤ n)
    (hmax : ∀ most ∈ max, n ≤ most) (htimes : Times R n c c') (hk : (k c').isSome)
    : (iterate step k fuel min max c).isSome := by
  induction n generalizing fuel min max c with
  | zero =>
    cases htimes
    have hmin : min = 0 := by omega
    subst hmin
    cases fuel with
    | zero => exact hk
    | succ fuel =>
      unfold iterate
      dsimp only
      split
      . exact hk
      . split
        . rfl
        . exact hk
  | succ n ih =>
    rcases htimes with ⟨m, hm, htimes⟩
    cases fuel with
    | zero => omega
    | succ fuel =>
      have hnext : (iterate step k fuel (min - 1) (max.map (· - 1)) m).isSome := by
        apply ih (by omega) (by omega) _ htimes
        intro most hmost
        rw [Option.mem_def, Option.map_eq_some_iff] at hmost
        rcases hmost with ⟨most, hmem, rfl⟩
        have := hmax most hmem
        omega
      have hmax : max ≠ some 0 := by
        intro h
        have := hmax 0 h
        omega
      unfold iterate
      rw [if_neg hmax]
      split
      . rfl
      . next hnone =>
        have := hstep c m _ hm hnext
        simp [hnone] at this

theorem run_complete (hr : r.productive = true) (h : r.Accepts c c') (hk : (k c').isSome)
    : (r.run c k).isSome := by
  induction r generalizing c c' k with
  | byte accepts =>
    rcases h with ⟨b, hb, haccepts⟩
    simp [run, hb, haccepts, hk]
  | seq r s ihr ihs =>
    rcases h with ⟨m, hm, hc'⟩
    unfold productive at hr
    rw [Bool.and_eq_true] at hr
    apply ihr hr.1 hm
    apply ihs hr.2 hc' hk
  | rep r min max ih =>
    rcases h with ⟨n, hmin, hmax, htimes⟩
    unfold productive at hr
    rw [Bool.and_eq_true] at hr
    -- The iterations read at least a byte each.
    have hfuel : n ≤ c.rest.length := by
      rcases Times.reads (fun _ _ h => Accepts.reads h) htimes with ⟨ws, hlength, hall, hreads⟩
      have hflatten : ws.length ≤ ws.flatten.length := by
        clear hlength hreads
        induction ws with
        | nil => simp
        | cons w ws ih =>
          have := length_pos_of_ne_nil (hall w (by simp) hr.2)
          have := ih (fun v hv => hall v (by simp [hv]))
          simp only [length_cons, flatten_cons, length_append]
          omega
      have := hreads.length_le
      omega
    apply iterate_complete _ hfuel hmin hmax htimes hk
    intro c c' k h hk
    apply ih hr.1 h hk
  | wordBoundary =>
    rcases h with ⟨rfl, hb⟩
    simp [run, hb, hk]

theorem matchAt_sound (h : r.matchAt c = some x) : ∃ c', r.Accepts c c' ∧ c'.pos = x := by
  rcases accepts_of_run h with ⟨c', hc', hx⟩
  exact ⟨c', hc', by simpa using hx⟩

theorem matchAt_complete (hr : r.productive = true) (h : r.Accepts c c')
    : (r.matchAt c).isSome := by
  apply run_complete hr h
  rfl

end

end Regex
