import ModelGateway.Lib.Scan
import ModelGateway.Pii.Transform

namespace ModelGateway.Pii

open List hiding Cursor

def isKindByte (b : UInt8) : Bool :=
  (65 ≤ b && b ≤ 90) || b == 95

def isDigit (b : UInt8) : Bool :=
  48 ≤ b && b ≤ 57

def Shaped (w : Str) : Prop :=
  ∃ kind digits : Str, kind ≠ [] ∧ (∀ b ∈ kind, isKindByte b = true) ∧ digits ≠ [] ∧
    (∀ b ∈ digits, isDigit b = true) ∧ w = [91, 91] ++ (kind ++ ([95] ++ (digits ++ [93, 93])))

theorem isKindByte_of_isDigit {b : UInt8} (h : isDigit b = true) : isKindByte b = false := by
  grind [isDigit, isKindByte]

variable {w : Str}

theorem takeWhile_append_of_stop {p : UInt8 → Bool} (hw : ∀ b ∈ w, p b = true) {b : UInt8}
    (hb : p b = false) (rest : Str)
    : (w ++ b :: rest).takeWhile p = w := by
  rw [takeWhile_append_of_pos hw, takeWhile_cons_of_neg (by simp [hb]), append_nil]

theorem Shaped.body (h : Shaped w)
    : ∃ body : Str, w = 91 :: 91 :: body ∧ body ≠ [] ∧ 91 ∉ body := by
  rcases h with ⟨kind, digits, _, hkind, _, hdigits, rfl⟩
  refine ⟨kind ++ ([95] ++ (digits ++ [93, 93])), rfl, by simp, ?_⟩
  intro hmem
  simp only [mem_append, mem_cons, not_mem_nil, or_false] at hmem
  rcases hmem with hmem | hmem | hmem | hmem
  . have := hkind _ hmem
    revert this
    decide
  . simp at hmem
  . have := hdigits _ hmem
    revert this
    decide
  . simp at hmem

theorem Shaped.length_pos (h : Shaped w) : 0 < w.length := by
  rcases h.body with ⟨body, rfl, _⟩
  simp

theorem Shaped.unique {w' text : Str} (h : Shaped w) (h' : Shaped w') (hw : w <+: text)
    (hw' : w' <+: text)
    : w = w' := by
  have hkinds : ∀ {kind digits rest : Str}, (∀ b ∈ kind, isKindByte b = true) → digits ≠ [] →
      (∀ b ∈ digits, isDigit b = true) →
      (kind ++ ([95] ++ (digits ++ [93, 93])) ++ rest).takeWhile isKindByte = kind ++ [95] := by
    intro kind digits rest hkind hne hdigits
    cases digits with
    | nil => simp at hne
    | cons d digits =>
      rw [← takeWhile_append_of_stop (w := kind ++ [95]) (p := isKindByte) (b := d) _
        (isKindByte_of_isDigit (hdigits d (by simp))) (digits ++ [93, 93] ++ rest)]
      . simp
      . intro b hb
        rcases mem_append.mp hb with hb | hb
        . exact hkind b hb
        . rw [mem_singleton] at hb
          subst hb
          decide
  have hnumbers : ∀ {digits rest : Str}, (∀ b ∈ digits, isDigit b = true) →
      (digits ++ [93, 93] ++ rest).takeWhile isDigit = digits := by
    intro digits rest hdigits
    rw [append_assoc]
    apply takeWhile_append_of_stop hdigits
    decide
  rcases h with ⟨kind, digits, _, hkind, hne, hdigits, rfl⟩
  rcases h' with ⟨_, _, _, hkind', hne', hdigits', rfl⟩
  rcases hw with ⟨rest, hrest⟩
  rcases hw' with ⟨_, rfl⟩
  rw [append_assoc, append_assoc [91, 91]] at hrest
  simp only [append_cancel_left_eq] at hrest ⊢
  have heq := congrArg (takeWhile isKindByte) hrest
  rw [hkinds hkind hne hdigits, hkinds hkind' hne' hdigits', append_cancel_right_eq] at heq
  subst heq
  simp only [append_assoc, append_cancel_left_eq] at hrest ⊢
  simp only [← append_assoc] at hrest
  have heq := congrArg (takeWhile isDigit) hrest
  rw [hnumbers hdigits, hnumbers hdigits'] at heq
  rw [heq]

theorem Shaped.apart (h : Shaped w) {k : Nat} (hpos : 0 < k) (hlt : k < w.length) {u w' : Str}
    (h' : Shaped w')
    : ¬ w' <+: w.drop k ++ u := by
  rintro ⟨v, hv⟩
  rcases h.body with ⟨body, rfl, hne, hbody⟩
  rcases h'.body with ⟨_, rfl, _, _⟩
  cases body with
  | nil => simp at hne
  | cons b body =>
    rcases k with _ | _ | k
    . omega
    . simp at hv
      simp [hv.1] at hbody
    . rw [drop_succ_cons, drop_succ_cons] at hv
      cases hdrop : (b :: body).drop k with
      | nil =>
        rw [drop_eq_nil_iff] at hdrop
        simp only [length_cons] at hlt hdrop
        omega
      | cons x rest =>
        rw [hdrop] at hv
        simp only [cons_append, List.cons.injEq] at hv
        apply hbody
        apply mem_of_mem_drop (i := k)
        rw [hdrop, hv.1]
        simp

section

open Regex

theorem accepts_placeholderPattern {c c' : Cursor}
    : placeholderPattern.Accepts c c' ↔ ∃ w, Shaped w ∧ c.Reads w c' := by
  constructor
  . rintro ⟨c₁, h₁, c₂, h₂, c₃, h₃, c₄, h₄, c₅, h₅, c₆, h₆, h₇⟩
    rcases accepts_plus_byte.mp h₃ with ⟨kind, hne, hkind, h₃⟩
    rcases accepts_plus_byte.mp h₅ with ⟨digits, hne', hdigits, h₅⟩
    rw [cat] at h₇
    rw [accepts_lit] at h₁ h₂ h₄ h₆ h₇
    refine ⟨_, ⟨kind, digits, hne, hkind, hne', hdigits, rfl⟩, ?_⟩
    apply (h₁.append h₂).append
    apply h₃.append
    apply h₄.append
    apply h₅.append
    apply h₆.append h₇
  . rintro ⟨_, ⟨kind, digits, hne, hkind, hne', hdigits, rfl⟩, h⟩
    rcases h.exists_of_append with ⟨c₂, h₁₂, h⟩
    rcases Cursor.Reads.exists_of_append (w := [91]) (v := [91]) h₁₂ with ⟨c₁, h₁, h₂⟩
    rcases h.exists_of_append with ⟨c₃, h₃, h⟩
    rcases h.exists_of_append with ⟨c₄, h₄, h⟩
    rcases h.exists_of_append with ⟨c₅, h₅, h⟩
    rcases Cursor.Reads.exists_of_append (w := [93]) (v := [93]) h with ⟨c₆, h₆, h₇⟩
    refine ⟨c₁, accepts_lit.mpr h₁, c₂, accepts_lit.mpr h₂, c₃, ?_, c₄, accepts_lit.mpr h₄, c₅, ?_,
      c₆, accepts_lit.mpr h₆, accepts_lit.mpr h₇⟩
    . apply accepts_plus_byte.mpr ⟨kind, hne, hkind, h₃⟩
    . apply accepts_plus_byte.mpr ⟨digits, hne', hdigits, h₅⟩

theorem matchAt_placeholderPattern {c : Cursor} {x : Nat}
    : placeholderPattern.matchAt c = some x
        ↔
      ∃ w, Shaped w ∧ w <+: c.rest ∧ x = c.pos + w.length := by
  have hsound : ∀ {x}, placeholderPattern.matchAt c = some x →
      ∃ w, Shaped w ∧ w <+: c.rest ∧ x = c.pos + w.length := by
    intro x h
    rcases matchAt_sound h with ⟨c', hc', rfl⟩
    rcases accepts_placeholderPattern.mp hc' with ⟨w, hw, hreads⟩
    exact ⟨w, hw, ⟨_, hreads.rest.symm⟩, hreads.pos⟩
  constructor
  . exact hsound
  . rintro ⟨w, hw, ⟨rest, hrest⟩, rfl⟩
    have hreads : c.Reads w ⟨w.getLast?.or c.prev, rest, c.pos + w.length⟩ := ⟨hrest.symm, rfl, rfl⟩
    have hsome := matchAt_complete rfl (accepts_placeholderPattern.mpr ⟨w, hw, hreads⟩)
    rcases Option.isSome_iff_exists.mp hsome with ⟨x, hx⟩
    rcases hsound hx with ⟨w', hw', hleads, rfl⟩
    rw [hx, hw.unique hw' ⟨rest, hrest⟩ hleads]

end

def placeholderAt (text : Str) : Option Str :=
  (placeholderPattern.matchAt (.start text)).map text.take

theorem placeholderAt_eq_some_iff {text : Str}
    : placeholderAt text = some w ↔ Shaped w ∧ w <+: text := by
  unfold placeholderAt
  rw [Option.map_eq_some_iff]
  constructor
  . rintro ⟨x, hx, rfl⟩
    rcases matchAt_placeholderPattern.mp hx with ⟨w, hw, hleads, rfl⟩
    change w <+: text at hleads
    rw [show (Regex.Cursor.start text).pos + w.length = w.length from Nat.zero_add _,
      ← prefix_iff_eq_take.mp hleads]
    exact ⟨hw, hleads⟩
  . rintro ⟨hw, hleads⟩
    refine ⟨w.length, matchAt_placeholderPattern.mpr ⟨w, hw, hleads, (Nat.zero_add _).symm⟩, ?_⟩
    exact (prefix_iff_eq_take.mp hleads).symm

def placeholders : Scanner UInt8 where
  token := placeholderAt
  starts h := (placeholderAt_eq_some_iff.mp h).2
  ne_nil h := ne_nil_of_length_pos (placeholderAt_eq_some_iff.mp h).1.length_pos
  append h u := placeholderAt_eq_some_iff.mpr ⟨(placeholderAt_eq_some_iff.mp h).1, ⟨u, rfl⟩⟩
  apart := by
    intro text w h k hpos hlt u
    rw [Option.eq_none_iff_forall_ne_some]
    intro w' h'
    rw [placeholderAt_eq_some_iff] at h'
    exact (placeholderAt_eq_some_iff.mp h).1.apart hpos hlt h'.1 h'.2

theorem placeholders_token_eq_some_iff {text : Str}
    : placeholders.token text = some w ↔ Shaped w ∧ w <+: text :=
  placeholderAt_eq_some_iff

def original (replacements : Replacements) (found : Str) : Str :=
  match replacements.lookup found with
  | some original => original
  | none => found

theorem replaceAllFunc_placeholderPattern (text : Str) (f : Str → Str)
    : placeholderPattern.replaceAllFunc text f = placeholders.replace f text := by
  apply Regex.replaceAllFunc_eq
  intro c
  apply Option.ext
  intro x
  rw [matchAt_placeholderPattern, Option.map_eq_some_iff]
  constructor
  . rintro ⟨w, hw, hleads, rfl⟩
    exact ⟨w, placeholders_token_eq_some_iff.mpr ⟨hw, hleads⟩, rfl⟩
  . rintro ⟨w, hw, rfl⟩
    rw [placeholders_token_eq_some_iff] at hw
    exact ⟨w, hw.1, hw.2, rfl⟩

theorem restore_of_ne_nil {replacements : Replacements} (h : replacements.entries ≠ []) (text : Str)
    : restore text replacements = placeholders.replace (original replacements) text := by
  unfold restore
  rw [if_neg h, replaceAllFunc_placeholderPattern]
  rfl

end ModelGateway.Pii
