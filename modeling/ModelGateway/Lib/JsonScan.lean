import ModelGateway.Lib.JsonReader
import ModelGateway.Lib.Runes
import ModelGateway.Lib.Scan

/-!
This module contains what becomes of a JSON text when tokens are replaced in its bytes.
-/

namespace Json

open List
open Option (eq_none_iff_forall_ne_some filter_eq_some_iff filter_some map_eq_some_iff map_some mem_some_iff)

def lead : List Glyph → List UInt8
  | .plain b :: gs => b :: lead gs
  | _ => []

theorem lead_append (w : List UInt8) (gs : List Glyph)
    : lead (w.map .plain ++ gs) = w ++ lead gs := by
  induction w with
  | nil => rfl
  | cons b w ih => simp [lead, ih]

theorem prefix_lead_iff {w : List UInt8} {gs : List Glyph}
    : w <+: lead gs ↔ w.map .plain <+: gs := by
  constructor
  . intro h
    induction gs generalizing w with
    | nil =>
      rw [lead, prefix_nil] at h
      . simp [h]
      . simp
    | cons g gs ih =>
      cases w with
      | nil => simp
      | cons b w =>
        cases g with
        | plain b' =>
          rw [lead, cons_prefix_cons] at h
          rw [map_cons, cons_prefix_cons]
          exact ⟨congrArg Glyph.plain h.1, ih h.2⟩
        | short e => simp [lead] at h
        | code a b c d => simp [lead] at h
  . rintro ⟨rest, rfl⟩
    rw [lead_append]
    exact prefix_append _ _

def plainly (s : Scanner UInt8) : Scanner Glyph where
  token gs := (s.token (lead gs)).map (List.map Glyph.plain)
  starts := by
    intro gs v h
    rcases map_eq_some_iff.mp h with ⟨w, hw, rfl⟩
    exact prefix_lead_iff.mp (s.starts hw)
  ne_nil := by
    intro gs v h
    rcases map_eq_some_iff.mp h with ⟨w, hw, rfl⟩
    simpa using s.ne_nil hw
  append := by
    intro gs v h u
    rcases map_eq_some_iff.mp h with ⟨w, hw, rfl⟩
    rw [lead_append, s.append hw]
    rfl
  apart := by
    intro gs v h k hpos hlt u
    rcases map_eq_some_iff.mp h with ⟨w, hw, rfl⟩
    rw [← map_drop, lead_append, s.apart hw hpos (by simpa using hlt)]
    rfl

def plainOf (f : List UInt8 → List UInt8) (gs : List Glyph) : List Glyph :=
  (f (rawText gs)).map .plain

theorem rawText_map_plain (w : List UInt8) : rawText (w.map .plain) = w := by
  induction w with
  | nil => rfl
  | cons b w ih =>
    rw [map_cons, rawText_cons, ih]
    rfl

structure InStrings (s : Scanner UInt8) : Prop where
  plain {text w : List UInt8} : s.token text = some w → ∀ b ∈ w, isPlain b = true
  escape {text w : List UInt8} : s.token text = some w →
    ∀ b ∈ w.head?, isWordByte b = false ∧ shortText b = none ∧ b < 128
  outside {text : List UInt8} {ts : List (Token (List Glyph))} : Lexes text ts → s.token text = none

theorem lead_prefix_rawText (gs : List Glyph) : lead gs <+: rawText gs := by
  induction gs with
  | nil => simp [lead]
  | cons g gs ih =>
    cases g with
    | plain b =>
      rw [lead, rawText_cons]
      exact cons_prefix_cons.mpr ⟨rfl, ih⟩
    | short e => simp [lead]
    | code a b c d => simp [lead]

theorem prefix_lead_of_plain {w : List UInt8} (hw : ∀ b ∈ w, isPlain b = true) {gs : List Glyph}
    (h : w <+: rawText gs)
    : w <+: lead gs := by
  induction gs generalizing w with
  | nil =>
    rw [rawText, flatMap_nil, prefix_nil] at h
    simp [h]
  | cons g gs ih =>
    cases w with
    | nil => simp
    | cons b w =>
      rw [forall_mem_cons] at hw
      have hb : b ≠ 92 := by
        rintro rfl
        exact absurd hw.1 (by decide)
      rw [rawText_cons] at h
      cases g with
      | plain b' =>
        rw [Glyph.raw, singleton_append, cons_prefix_cons] at h
        rw [lead, cons_prefix_cons]
        exact ⟨h.1, ih hw.2 h.2⟩
      | short e =>
        rw [Glyph.raw, cons_append, cons_prefix_cons] at h
        exact absurd h.1 hb
      | code a b c d =>
        rw [Glyph.raw, cons_append, cons_prefix_cons] at h
        exact absurd h.1 hb

section

variable {s : Scanner UInt8} (hs : InStrings s) {f : List UInt8 → List UInt8}
include hs

theorem token_rawText (gs : List Glyph)
    : s.token (rawText gs) = ((plainly s).token gs).map rawText := by
  have hplainly : (plainly s).token gs = (s.token (lead gs)).map (List.map Glyph.plain) := rfl
  cases hw : s.token (rawText gs) with
  | some w =>
    rcases prefix_lead_of_plain (hs.plain hw) (s.starts hw) with ⟨u, hu⟩
    rw [hplainly, ← hu, s.append hw, map_some, map_some, rawText_map_plain]
  | none =>
    cases hv : s.token (lead gs) with
    | none =>
      rw [hplainly, hv]
      rfl
    | some v =>
      rcases (s.starts hv).trans (lead_prefix_rawText gs) with ⟨u, hu⟩
      rw [← hu, s.append hv] at hw
      simp at hw

theorem head?_token {b : UInt8} {rest w : List UInt8} (h : s.token (b :: rest) = some w)
    : isWordByte b = false ∧ shortText b = none ∧ b < 128 := by
  apply hs.escape h
  have hne := s.ne_nil h
  have hleads := s.starts h
  cases w with
  | nil => contradiction
  | cons x w =>
    rw [cons_prefix_cons] at hleads
    simp [hleads.1]

theorem token_wordByte {b : UInt8} (hb : isWordByte b = true) (rest : List UInt8)
    : s.token (b :: rest) = none := by
  rw [eq_none_iff_forall_ne_some]
  intro w hw
  have := (head?_token hs hw).1
  rw [hb] at this
  simp at this

theorem token_inside {g : Glyph} (hg : g.valid = true) {k : Nat} (hpos : 0 < k)
    (hlt : k < g.raw.length) (u : List UInt8)
    : s.token (g.raw.drop k ++ u) = none := by
  rw [eq_none_iff_forall_ne_some]
  intro w hw
  cases g with
  | plain b =>
    simp only [Glyph.raw, length_singleton] at hlt
    omega
  | short e =>
    have hk : k = 1 := by
      simp only [Glyph.raw, length_cons, length_nil] at hlt
      omega
    subst hk
    have := (head?_token hs hw).2.1
    simp [Glyph.valid, this] at hg
  | code a b c d =>
    have hhex : ∀ x, isHex x = true → isWordByte x = true := by
      intro x hx
      grind [isHex, isWordByte]
    simp only [Glyph.valid, Bool.and_eq_true] at hg
    have hword : ∀ x ∈ (Glyph.code a b c d).raw.drop 1, isWordByte x = true := by
      intro x hx
      simp only [Glyph.raw, drop_succ_cons, drop_zero, mem_cons, not_mem_nil, or_false] at hx
      rcases hx with rfl | rfl | rfl | rfl | rfl
      . rfl
      . exact hhex _ hg.1.1.1
      . exact hhex _ hg.1.1.2
      . exact hhex _ hg.1.2
      . exact hhex _ hg.2
    have hsplit : (Glyph.code a b c d).raw.drop k
        = (Glyph.code a b c d).raw.get ⟨k, hlt⟩ :: (Glyph.code a b c d).raw.drop (k + 1) :=
      drop_eq_getElem_cons hlt
    have hmem : (Glyph.code a b c d).raw.get ⟨k, hlt⟩ ∈ (Glyph.code a b c d).raw.drop 1 := by
      apply (drop_suffix_drop_left _ hpos).subset
      rw [hsplit]
      exact mem_cons_self
    rw [hsplit, cons_append, token_wordByte hs (hword _ hmem)] at hw
    simp at hw

theorem replace_rawText {gs : List Glyph} (hgs : ∀ g ∈ gs, g.valid = true)
    : s.replace f (rawText gs) = rawText ((plainly s).replace (plainOf f) gs) := by
  apply Scanner.replace_flatMap
  . intro ys _
    exact token_rawText hs ys
  . intro g ys hys _ k hpos hlt
    exact token_inside hs (hgs g (hys.subset (by simp))) hpos hlt _
  . intro ys w _ _
    exact (rawText_map_plain _).symm

omit hs in
theorem valid_replace {gs : List Glyph} (hgs : ∀ g ∈ gs, g.valid = true)
    (hf : ∀ k w, (plainly s).token (gs.drop k) = some w → ∀ b ∈ f (rawText w), isPlain b = true)
    : ∀ g ∈ (plainly s).replace (plainOf f) gs, g.valid = true := by
  intro g hg
  rcases Scanner.mem_replace hg with hg | ⟨k, w, hw, hg⟩
  . exact hgs g hg
  . rcases mem_map.mp hg with ⟨b, hb, rfl⟩
    exact hf k w hw b hb

theorem Lexes.replace {text : List UInt8} {ts : List (Token (List Glyph))} (h : Lexes text ts)
    (hf : ∀ gs, .string gs ∈ ts → ∀ k w, (plainly s).token (gs.drop k) = some w →
      ∀ b ∈ f (rawText w), isPlain b = true)
    : Lexes (s.replace f text) (ts.map (Token.map ((plainly s).replace (plainOf f)))) := by
  induction h with
  | nil => simpa using Lexes.nil
  | @space b rest ts hb h ih =>
    rw [Scanner.replace_cons (hs.outside (.space hb h))]
    exact .space hb (ih hf)
  | @mark m rest ts h ih =>
    rw [Scanner.replace_cons (hs.outside (.mark m h))]
    apply Lexes.mark m
    apply ih
    intro gs hgs
    exact hf gs (mem_cons_of_mem _ hgs)
  | @string gs hgs rest ts h ih =>
    have hquote : ∀ u, s.token (34 :: u) = none := by
      intro u
      rw [eq_none_iff_forall_ne_some]
      intro w hw
      have := (head?_token hs hw).2.1
      simp [shortText] at this
    have hsplit : s.replace f (rawText gs ++ 34 :: rest)
        = s.replace f (rawText gs) ++ s.replace f (34 :: rest) := by
      apply Scanner.replace_append
      intro k hk w hw hacross
      -- A token across the end of the string would hold its quote.
      have hget : w[(rawText gs).length - k]? = some 34 := by
        rcases s.starts hw with ⟨v, hv⟩
        have hlength : ((rawText gs).drop k).length = (rawText gs).length - k := length_drop
        rw [← getElem?_append_left (by omega), hv, ← hlength,
          getElem?_append_right (Nat.le_refl _), Nat.sub_self]
        rfl
      have := hs.plain hw 34 (mem_of_getElem? hget)
      exact absurd this (by decide)
    rw [Scanner.replace_cons (hquote _), hsplit, Scanner.replace_cons (hquote _),
      replace_rawText hs hgs]
    apply Lexes.string
    . exact valid_replace hgs (hf gs (by simp))
    . apply ih
      intro gs' hgs'
      exact hf gs' (mem_cons_of_mem _ hgs')
  | @scalar word hword rest hrest ts h ih =>
    have hbytes : ∀ b ∈ word, isWordByte b = true := by
      rw [isScalar, Bool.and_eq_true, all_eq_true] at hword
      exact hword.1
    rw [Scanner.replace_append_of_none]
    . apply Lexes.scalar hword
      . intro b hb
        cases rest with
        | nil => simp at hb
        | cons x rest =>
          rw [Scanner.replace_cons (hs.outside h)] at hb
          exact hrest b hb
      . apply ih
        intro gs hgs
        exact hf gs (mem_cons_of_mem _ hgs)
    . intro k hk
      rw [drop_eq_getElem_cons hk, cons_append]
      exact token_wordByte hs (hbytes _ (getElem_mem hk)) _

end

section

theorem text_map_plain_append (w : List UInt8) (gs : List Glyph)
    : text (w.map .plain ++ gs) = w ++ text gs := by
  induction w with
  | nil => rfl
  | cons b w ih => rw [map_cons, cons_append, text_plain, ih, cons_append]

theorem le_of_mem_joined {g g' : Glyph} (h : (g.joined g').length ≠ 1) {b : UInt8}
    (hb : b ∈ g.joined g')
    : 128 ≤ b :=
  Rune.le_of_mem_utf8EncodeChar h hb

theorem le_of_mem_sense {g : Glyph} (h : g.sense.length ≠ 1) {b : UInt8} (hb : b ∈ g.sense)
    : 128 ≤ b := by
  cases g with
  | plain b => simp [Glyph.sense] at h
  | short e => simp [Glyph.sense] at h
  | code a₁ a₂ a₃ a₄ =>
    unfold Glyph.sense at h hb
    dsimp only at h hb
    split at hb
    . simp only [mem_cons, not_mem_nil, or_false] at hb
      rcases hb with rfl | rfl | rfl <;> decide
    . next hhalf =>
      rw [if_neg hhalf] at h
      exact Rune.le_of_mem_utf8EncodeChar h hb

variable {s : Scanner UInt8} (hs : InStrings s) {f : List UInt8 → List UInt8}

include hs in
theorem replace_encoding {a u : List UInt8} (ha : a.length ≠ 1 → ∀ b ∈ a, 128 ≤ b)
    (hnone : s.token (a ++ u) = none)
    : s.replace f (a ++ u) = a ++ s.replace f u := by
  apply Scanner.replace_append_of_none
  intro k hk
  cases k with
  | zero => exact hnone
  | succ k =>
    rw [drop_eq_getElem_cons hk, cons_append, eq_none_iff_forall_ne_some]
    intro w hw
    have hlt := (head?_token hs hw).2.2
    have hle := ha (by omega) _ (getElem_mem hk)
    exact absurd hlt (UInt8.not_lt.mpr hle)

variable {gs : List Glyph}

theorem token_plainly_low {g : Glyph} (h : g.low = true) : (plainly s).token (g :: gs) = none := by
  have hnil : s.token [] = none := by
    rw [eq_none_iff_forall_ne_some]
    intro w hw
    exact s.ne_nil hw (prefix_nil.mp (s.starts hw))
  cases g with
  | plain b => simp [Glyph.low, Glyph.unit] at h
  | short e => simp [Glyph.low, Glyph.unit] at h
  | code a b c d =>
    change (s.token []).map _ = none
    rw [hnil]
    rfl

theorem low_head?_replace (hne : ∀ w, (plainly s).token gs = some w → f (rawText w) ≠ [])
    : ∀ g ∈ ((plainly s).replace (plainOf f) gs).head?, g.low = true →
        ∀ g' ∈ gs.head?, g'.low = true := by
  intro g hg hlow g' hg'
  cases gs with
  | nil => simp at hg'
  | cons x rest =>
    rw [head?_cons, mem_some_iff] at hg'
    subst hg'
    cases hw : (plainly s).token (x :: rest) with
    | none =>
      rw [Scanner.replace_cons hw, head?_cons, mem_some_iff] at hg
      rw [hg]
      exact hlow
    | some w =>
      rw [Scanner.replace_token hw] at hg
      unfold plainOf at hg
      cases hv : f (rawText w) with
      | nil => exact absurd hv (hne w hw)
      | cons b v =>
        rw [hv, map_cons, cons_append, head?_cons, mem_some_iff] at hg
        subst hg
        simp [Glyph.low, Glyph.unit] at hlow

theorem text_replace (hs : InStrings s)
    (hwritten : ∀ ys, ys <:+ gs → ∀ w, s.token (text ys) = some w → w.map .plain <+: ys)
    (hjoin : ∀ g ys, g :: ys <:+ gs → g.high = true → ∀ w, (plainly s).token ys = some w →
      f (rawText w) ≠ [])
    : text ((plainly s).replace (plainOf f) gs) = s.replace f (text gs) := by
  induction hn : gs.length using Nat.strongRecOn generalizing gs with
  | ind n ih =>
    have hrest : ∀ ys, ys <:+ gs → ys.length < n →
        text ((plainly s).replace (plainOf f) ys) = s.replace f (text ys) := by
      intro ys hys hlt
      apply ih ys.length hlt _ _ rfl
      . intro zs hzs
        exact hwritten zs (hzs.trans hys)
      . intro g zs hzs
        exact hjoin g zs (hzs.trans hys)
    cases gs with
    | nil => simp [text]
    | cons g ys =>
      cases hv : (plainly s).token (g :: ys) with
      | some v =>
        rcases map_eq_some_iff.mp hv with ⟨w, hw, rfl⟩
        have hsplit := prefix_iff_eq_append.mp ((plainly s).starts hv)
        have hdrop := hrest _ (drop_suffix (w.map Glyph.plain).length (g :: ys)) (by
          have := (plainly s).length_pos hv
          simp only [length_drop, length_cons] at hn ⊢
          omega)
        rw [Scanner.replace_token hv, plainOf, rawText_map_plain, text_map_plain_append, hdrop]
        nth_rewrite 2 [← hsplit]
        rw [text_map_plain_append, Scanner.replace_token_append hw]
      | none =>
        have hnone : s.token (text (g :: ys)) = none := by
          rw [eq_none_iff_forall_ne_some]
          intro w hw
          rcases prefix_lead_iff.mpr (hwritten _ (suffix_refl _) w hw) with ⟨u, hu⟩
          change (s.token (lead (g :: ys))).map _ = none at hv
          rw [← hu, s.append hw] at hv
          simp at hv
        by_cases hpair : ∃ g' zs, ys = g' :: zs ∧ g.high = true ∧ g'.low = true
        . rcases hpair with ⟨g', zs, rfl, hhigh, hlow⟩
          have htext : ∀ us, text (g :: g' :: us) = g.joined g' ++ text us := by
            intro us
            rw [text, if_pos (by simp [hhigh, hlow])]
          have hzs := hrest zs ((suffix_cons _ _).trans (suffix_cons _ _)) (by
            simp only [length_cons] at hn
            omega)
          rw [Scanner.replace_cons hv, Scanner.replace_cons (token_plainly_low hlow), htext, hzs, htext,
            replace_encoding hs le_of_mem_joined]
          rw [← htext]
          exact hnone
        . have hys := hrest ys (suffix_cons _ _) (by
            simp only [length_cons] at hn
            omega)
          have htext : text (g :: ys) = g.sense ++ text ys := by
            apply text_cons
            intro g' hg'
            cases ys with
            | nil => simp at hg'
            | cons x zs =>
              rw [head?_cons, mem_some_iff] at hg'
              subst hg'
              simpa using fun h h' => hpair ⟨x, zs, rfl, h, h'⟩
          rw [Scanner.replace_cons hv, text_cons, hys, htext, replace_encoding hs le_of_mem_sense]
          . rw [← htext]
            exact hnone
          . intro g' hg'
            rw [Bool.and_eq_false_iff]
            by_contra hboth
            rw [not_or, Bool.not_eq_false, Bool.not_eq_false] at hboth
            cases ys with
            | nil => simp at hg'
            | cons x zs =>
              have hlow := low_head?_replace (hjoin g (x :: zs) (suffix_refl _) hboth.1) g' hg'
                hboth.2 x (by simp)
              exact hpair ⟨x, zs, rfl, hboth.1, hlow⟩

theorem InStrings.restrict (hs : InStrings s) (p : List UInt8 → Bool) : InStrings (s.restrict p) := by
  constructor
  . intro text w h
    exact hs.plain (filter_eq_some_iff.mp h).1
  . intro text w h
    exact hs.escape (filter_eq_some_iff.mp h).1
  . intro text ts h
    change (s.token text).filter p = none
    rw [hs.outside h]
    rfl

theorem text_replace_of_imp (hs : InStrings s) {p : List UInt8 → Bool} (hp : ∀ w, p w = false → f w = w)
    (hwritten : ∀ ys, ys <:+ gs → ∀ w, p w = true → s.token (text ys) = some w →
      w.map .plain <+: ys) (hjoin : ∀ g ys, g :: ys <:+ gs → g.high = true → ∀ w, p w = true →
      (plainly s).token ys = some (w.map .plain) → f w ≠ [])
    : text ((plainly s).replace (plainOf f) gs) = s.replace f (text gs) := by
  have htoken : ∀ ys, (plainly (s.restrict p)).token ys
      = ((plainly s).restrict fun v => p (rawText v)).token ys := by
    intro ys
    change ((s.token (lead ys)).filter p).map _ = ((s.token (lead ys)).map _).filter _
    cases s.token (lead ys) with
    | none => rfl
    | some w =>
      rw [map_some, filter_some, filter_some, rawText_map_plain]
      split <;> rfl
  have hglyphs : (plainly (s.restrict p)).replace (plainOf f) gs
      = (plainly s).replace (plainOf f) gs := by
    rw [Scanner.replace_congr htoken]
    apply Scanner.replace_restrict
    intro ys v hv hpv
    rcases map_eq_some_iff.mp hv with ⟨w, _, rfl⟩
    rw [rawText_map_plain] at hpv
    rw [plainOf, rawText_map_plain, hp w hpv]
  rw [← hglyphs, text_replace (hs.restrict p), Scanner.replace_restrict fun _ hw => hp _ hw]
  . intro ys hys w hw
    rw [Scanner.restrict, filter_eq_some_iff] at hw
    exact hwritten ys hys w hw.2 hw.1
  . intro g ys hys hhigh v hv
    rcases map_eq_some_iff.mp hv with ⟨w, hw, rfl⟩
    rw [rawText_map_plain]
    rw [Scanner.restrict, filter_eq_some_iff] at hw
    apply hjoin g ys hys hhigh w hw.2
    change (s.token (lead ys)).map _ = _
    rw [hw.1]
    rfl

end

end Json
