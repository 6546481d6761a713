import ModelGateway.Lib.JsonReader
import ModelGateway.Lib.Runes

/-!
This module contains how JSON is written so that it can stand in a page.
-/

namespace Json

open List
open Option (any_some mem_some_iff some)

def hexDigit (n : Nat) : UInt8 :=
  UInt8.ofNat (if n < 10 then 48 + n else 87 + n)

def codeOf (n : Nat) : Glyph :=
  .code (hexDigit (n / 4096 % 16)) (hexDigit (n / 256 % 16)) (hexDigit (n / 16 % 16))
    (hexDigit (n % 16))

def encodeByte (b : UInt8) : Glyph :=
  if b = 34 ∨ b = 92 then .short b
  else if b = 8 then .short 98
  else if b = 12 then .short 102
  else if b = 10 then .short 110
  else if b = 13 then .short 114
  else if b = 9 then .short 116
  else if b < 32 ∨ b = 60 ∨ b = 62 ∨ b = 38 then codeOf b.toNat
  else .plain b

def encodeRune (r : Rune) : List Glyph :=
  if r.raw = String.utf8EncodeChar r.char then
    match r.raw with
    | [b] => [encodeByte b]
    | raw => if r.char.toNat = 0x2028 ∨ r.char.toNat = 0x2029 then [codeOf r.char.toNat] else raw.map .plain
  else [codeOf 0xFFFD]

def encode (s : List UInt8) : List Glyph :=
  (Rune.read s).flatMap encodeRune

def toValid (s : List UInt8) : List UInt8 :=
  Rune.encode (Rune.text s)

def escapeGlyph (g : Glyph) : Glyph :=
  if g = .plain 60 ∨ g = .plain 62 ∨ g = .plain 38 then codeOf (g.sense.headD 0).toNat else g

def escapeHTML : List Glyph → List Glyph
  | [] => []
  | [g] => [escapeGlyph g]
  | [g, g'] => [escapeGlyph g, escapeGlyph g']
  | g :: g' :: g'' :: gs =>
    if [g, g', g''] = [.plain 0xE2, .plain 0x80, .plain 0xA8] then codeOf 0x2028 :: escapeHTML gs
    else if [g, g', g''] = [.plain 0xE2, .plain 0x80, .plain 0xA9] then codeOf 0x2029 :: escapeHTML gs
    else escapeGlyph g :: escapeHTML (g' :: g'' :: gs)

def Token.raw : Token (List Glyph) → List UInt8
  | mark m => [m.byte]
  | scalar word => word
  | string gs => 34 :: (rawText gs ++ [34])

def write (ts : List (Token (List Glyph))) : List UInt8 :=
  ts.flatMap Token.raw

def Token.Valid : Token (List Glyph) → Prop
  | mark _ => True
  | scalar word => isScalar word = true
  | string gs => ∀ g ∈ gs, g.valid = true

theorem Lexes.valid {bytes : List UInt8} {ts : List (Token (List Glyph))} (h : Lexes bytes ts)
    : ∀ t ∈ ts, t.Valid := by
  induction h with
  | nil => simp
  | space hb h ih => exact ih
  | mark m h ih =>
    rw [forall_mem_cons]
    exact ⟨trivial, ih⟩
  | string hgs h ih =>
    rw [forall_mem_cons]
    exact ⟨hgs, ih⟩
  | scalar hword hrest h ih =>
    rw [forall_mem_cons]
    exact ⟨hword, ih⟩

section

theorem nibble_hexDigit : ∀ k < 16, nibble (hexDigit k) = k := by
  decide

theorem isHex_hexDigit : ∀ k < 16, isHex (hexDigit k) = true := by
  decide

@[simp]
theorem valid_codeOf (n : Nat) : (codeOf n).valid = true := by
  have hdigit : ∀ k, isHex (hexDigit (k % 16)) = true := by
    intro k
    exact isHex_hexDigit _ (Nat.mod_lt _ (by omega))
  simp [codeOf, Glyph.valid, hdigit]

theorem unit_codeOf {n : Nat} (h : n < 65536) : (codeOf n).unit = some n := by
  have hdigit : ∀ k, nibble (hexDigit (k % 16)) = k % 16 := by
    intro k
    exact nibble_hexDigit _ (Nat.mod_lt _ (by omega))
  simp only [codeOf, Glyph.unit, hdigit, some.injEq]
  omega

theorem high_codeOf {n : Nat} (h : n < 0xD800 ∨ 0xDFFF < n ∧ n < 65536)
    : (codeOf n).high = false ∧ (codeOf n).low = false := by
  rw [Glyph.high, Glyph.low, unit_codeOf (by omega)]
  simp only [any_some, Bool.and_eq_false_iff, decide_eq_false_iff_not]
  omega

theorem sense_codeOf {n : Nat} (h : n < 0xD800 ∨ 0xDFFF < n ∧ n < 65536)
    : (codeOf n).sense = String.utf8EncodeChar (Char.ofNat n) := by
  have hhalf := high_codeOf h
  have hunit := @unit_codeOf n (by omega)
  unfold Glyph.sense
  rw [hhalf.1, hhalf.2, hunit]
  rfl

theorem utf8EncodeChar_ascii
    : ∀ n < 128, String.utf8EncodeChar (Char.ofNat n) = [UInt8.ofNat n] := by
  decide +kernel

theorem encodeByte_spec (b : UInt8)
    : (encodeByte b).valid = true ∧ (encodeByte b).high = false ∧ (encodeByte b).sense = [b] := by
  unfold encodeByte
  split_ifs with h₁ h₂ h₃ h₄ h₅ h₆ h₇
  . rcases h₁ with rfl | rfl <;> decide
  . subst h₂
    decide
  . subst h₃
    decide
  . subst h₄
    decide
  . subst h₅
    decide
  . subst h₆
    decide
  . have hlt : b.toNat < 128 := by
      rcases h₇ with h | rfl | rfl | rfl
      . have := UInt8.lt_iff_toNat_lt.mp h
        simp at this
        omega
      . decide
      . decide
      . decide
    refine ⟨valid_codeOf _, (high_codeOf (by omega)).1, ?_⟩
    rw [sense_codeOf (by omega), utf8EncodeChar_ascii _ hlt]
    simp
  . refine ⟨?_, rfl, rfl⟩
    simp only [Glyph.valid, isPlain, Bool.and_eq_true, decide_eq_true_eq, bne_iff_ne]
    rw [not_or] at h₁ h₇
    exact ⟨⟨by simpa using h₇.1, h₁.1⟩, h₁.2⟩

theorem isPlain_of_le {b : UInt8} (h : 128 ≤ b) : isPlain b = true := by
  grind [isPlain]

theorem encodeRune_spec {r : Rune}
    (hr : r.raw = String.utf8EncodeChar r.char ∨ r.char = Rune.replacement)
    : (∀ g ∈ encodeRune r, g.valid = true ∧ g.high = false) ∧
      (encodeRune r).flatMap Glyph.sense = String.utf8EncodeChar r.char := by
  unfold encodeRune
  split
  . next hraw =>
    split
    . next b hb =>
      rcases encodeByte_spec b with ⟨hvalid, hhigh, hsense⟩
      rw [← hraw, hb]
      simp [hvalid, hhigh, hsense]
    . next hmany =>
      split
      . next hsep =>
        have hlt : r.char.toNat < 0xD800 := by omega
        refine ⟨?_, ?_⟩
        . simp [high_codeOf (.inl hlt)]
        . rw [flatMap_singleton, sense_codeOf (.inl hlt), Char.ofNat_toNat]
      . constructor
        . intro g hg
          rcases mem_map.mp hg with ⟨b, hb, rfl⟩
          refine ⟨?_, rfl⟩
          apply isPlain_of_le
          apply Rune.le_of_mem_utf8EncodeChar _ (hraw ▸ hb)
          rw [← hraw, Ne, length_eq_one_iff]
          rintro ⟨b, hb⟩
          exact hmany b hb
        . rw [← hraw, flatMap_map]
          exact flatMap_singleton' _
  . next hraw =>
    rw [hr.resolve_left hraw]
    refine ⟨?_, by decide +kernel⟩
    simp [high_codeOf]

theorem text_eq_flatMap {gs : List Glyph} (h : ∀ g ∈ gs, g.high = false)
    : text gs = gs.flatMap Glyph.sense := by
  induction gs with
  | nil => rfl
  | cons g gs ih =>
    rw [forall_mem_cons] at h
    rw [text_cons (by simp [h.1]), flatMap_cons, ih h.2]

theorem valid_of_mem_encode {s : List UInt8} {g : Glyph} (hg : g ∈ encode s)
    : g.valid = true ∧ g.high = false := by
  rcases mem_flatMap.mp hg with ⟨r, hr, hg⟩
  exact (encodeRune_spec (Rune.raw_or_replacement hr)).1 g hg

@[simp]
theorem text_encode (s : List UInt8) : text (encode s) = toValid s := by
  rw [text_eq_flatMap fun g hg => (valid_of_mem_encode hg).2, encode, flatMap_assoc, toValid,
    Rune.encode, Rune.text, flatMap_map]
  apply flatMap_congr
  intro r hr
  exact (encodeRune_spec (Rune.raw_or_replacement hr)).2

@[simp]
theorem toValid_toValid (s : List UInt8) : toValid (toValid s) = toValid s := by
  unfold toValid
  rw [Rune.text_encode]

theorem escapeGlyph_spec (g : Glyph)
    : (g.valid = true → (escapeGlyph g).valid = true) ∧ (escapeGlyph g).high = g.high ∧
        (escapeGlyph g).low = g.low ∧ (escapeGlyph g).sense = g.sense := by
  unfold escapeGlyph
  split
  . next h => rcases h with rfl | rfl | rfl <;> decide +kernel
  . exact ⟨id, rfl, rfl, rfl⟩

theorem escapeGlyph_half {g : Glyph} (h : g.high = true ∨ g.low = true) : escapeGlyph g = g := by
  unfold escapeGlyph
  rw [if_neg]
  rintro (rfl | rfl | rfl) <;> simp [Glyph.high, Glyph.low, Glyph.unit] at h

theorem escapeHTML_cases (g : Glyph) (gs : List Glyph)
    : escapeHTML (g :: gs) = escapeGlyph g :: escapeHTML gs ∨
      ∃ x n rest, g :: gs = [.plain 0xE2, .plain 0x80, .plain x] ++ rest ∧
        escapeHTML (g :: gs) = codeOf n :: escapeHTML rest ∧
        String.utf8EncodeChar (Char.ofNat n) = [0xE2, 0x80, x] ∧ n < 0xD800 := by
  match gs with
  | [] => exact .inl rfl
  | [g'] => exact .inl rfl
  | g' :: g'' :: rest =>
    rw [escapeHTML]
    split
    . next h =>
      right
      refine ⟨0xA8, 0x2028, rest, ?_, rfl, by decide +kernel, by omega⟩
      rw [← h]
      rfl
    . split
      . next h =>
        right
        refine ⟨0xA9, 0x2029, rest, ?_, rfl, by decide +kernel, by omega⟩
        rw [← h]
        rfl
      . exact .inl rfl

theorem valid_of_mem_escapeHTML {gs : List Glyph} (h : ∀ g ∈ gs, g.valid = true)
    : ∀ g ∈ escapeHTML gs, g.valid = true := by
  induction hn : gs.length using Nat.strongRecOn generalizing gs with
  | ind n ih =>
    cases gs with
    | nil => simp [escapeHTML]
    | cons g gs =>
      rcases escapeHTML_cases g gs with heq | ⟨x, n, rest, hsplit, heq, _⟩
      . rw [heq, forall_mem_cons]
        rw [forall_mem_cons] at h
        refine ⟨(escapeGlyph_spec g).1 h.1, ?_⟩
        apply ih gs.length _ h.2 rfl
        simp only [length_cons] at hn
        omega
      . rw [heq, forall_mem_cons]
        rw [hsplit] at h hn
        refine ⟨valid_codeOf n, ?_⟩
        apply ih rest.length _ (fun g hg => h g (mem_append_right _ hg)) rfl
        simp only [length_append, length_cons] at hn
        omega

theorem low_head?_escapeHTML (gs : List Glyph)
    : (escapeHTML gs).head?.any Glyph.low = gs.head?.any Glyph.low := by
  cases gs with
  | nil => rfl
  | cons g gs =>
    rcases escapeHTML_cases g gs with heq | ⟨x, n, rest, hsplit, heq, _, hn⟩
    . rw [heq]
      exact (escapeGlyph_spec g).2.2.1
    . rw [heq, hsplit, head?_cons, any_some, (high_codeOf (.inl hn)).2]
      rfl

theorem text_escapeHTML (gs : List Glyph) : text (escapeHTML gs) = text gs := by
  induction hn : gs.length using Nat.strongRecOn generalizing gs with
  | ind n ih =>
    cases gs with
    | nil => rfl
    | cons g gs =>
      rcases escapeHTML_cases g gs with heq | ⟨x, n, rest, hsplit, heq, hsense, hlt⟩
      . rcases escapeGlyph_spec g with ⟨_, hhigh, _, hsense⟩
        have hgs := ih gs.length (by simp only [length_cons] at hn; omega) gs rfl
        have hlow := low_head?_escapeHTML gs
        rw [heq]
        cases gs with
        | nil => simpa [escapeHTML, text] using hsense
        | cons g' gs =>
          by_cases hpair : (g.high && g'.low) = true
          . rw [Bool.and_eq_true] at hpair
            -- The second half of a pair is an escape, and none of those is changed.
            have heq' : escapeHTML (g' :: gs) = g' :: escapeHTML gs := by
              rcases escapeHTML_cases g' gs with heq' | ⟨x, n, rest, hsplit, _⟩
              . rw [heq', escapeGlyph_half (.inr hpair.2)]
              . rw [cons_append, List.cons.injEq] at hsplit
                rw [hsplit.1] at hpair
                simp [Glyph.low, Glyph.unit] at hpair
            rw [heq', escapeGlyph_half (.inl hpair.1), text, text, if_pos (by simp [hpair]),
              if_pos (by simp [hpair]), ih gs.length _ gs rfl]
            simp only [length_cons] at hn
            omega
          . rw [text_cons, text_cons, hsense, hgs]
            . simpa using hpair
            . intro x hx
              rw [Option.mem_def.mp hx, any_some, head?_cons, any_some] at hlow
              rw [hhigh, hlow]
              simpa using hpair
      . rw [heq, hsplit, text_cons (by simp [(high_codeOf (.inl hlt)).1]), sense_codeOf (.inl hlt),
          hsense, ih rest.length _ rest rfl]
        . simp
        . rw [hsplit] at hn
          simp only [length_append, length_cons] at hn
          omega

end

section

def Token.isWord {σ : Type} : Token σ → Bool
  | scalar _ => true
  | _ => false

theorem Reader.next_of_step_scalar {σ : Type} {r r' : Reader σ} {t : Token σ}
    (h : r.step t = some r') (ht : t.isWord = true)
    : r'.next = .separator := by
  cases t with
  | scalar word =>
    unfold step at h
    dsimp only at h
    split at h
    . cases h
      rfl
    . simp at h
  | mark m => simp [Token.isWord] at ht
  | string s => simp [Token.isWord] at ht

theorem Reader.isWord_of_step_separator {σ : Type} {r r' : Reader σ} {t : Token σ}
    (h : r.step t = some r') (hr : r.next = .separator)
    : t.isWord = false := by
  cases t with
  | scalar word => simp [step, hr, Next.awaitsValue] at h
  | mark m => rfl
  | string s => rfl

theorem Reader.isChain_value {σ : Type} {r : Reader σ} {ts v rest : List (Token σ)}
    (h : r.value ts = some (v, rest))
    : v.IsChain fun t t' => t.isWord = true → t'.isWord = false := by
  induction ts generalizing r v with
  | nil => simp [value] at h
  | cons t ts ih =>
    unfold value at h
    split at h
    . simp at h
    . next r' hr' =>
      split at h
      . cases h
        simp
      . rcases Option.map_eq_some_iff.mp h with ⟨⟨v', _⟩, hv', heq⟩
        cases heq
        have hchain := ih hv'
        cases ts with
        | nil => simp [value] at hv'
        | cons t' ts =>
          cases v' with
          | nil => simp
          | cons x v' =>
            have hx := (Reader.value_eq_some hv').1
            rw [cons_append, List.cons.injEq] at hx
            refine isChain_cons_cons.mpr ⟨?_, hchain⟩
            intro hword
            rw [← hx.1]
            unfold value at hv'
            split at hv'
            . simp at hv'
            . next hstep =>
              exact isWord_of_step_separator hstep (next_of_step_scalar hr' hword)

theorem isWordByte_head?_raw {t : Token (List Glyph)} (ht : t.isWord = false) (u : List UInt8)
    : ∀ b ∈ (t.raw ++ u).head?, isWordByte b = false := by
  intro b hb
  cases t with
  | scalar word => simp [Token.isWord] at ht
  | mark m =>
    simp only [Token.raw, singleton_append, head?_cons, mem_some_iff] at hb
    subst hb
    cases m <;> rfl
  | string gs =>
    simp only [Token.raw, cons_append, head?_cons, mem_some_iff] at hb
    subst hb
    rfl

theorem Lexes.write_append {ts us : List (Token (List Glyph))} {rest : List UInt8}
    (hvalid : ∀ t ∈ ts, t.Valid)
    (hchain : ts.IsChain fun t t' => t.isWord = true → t'.isWord = false)
    (hrest : ∀ b ∈ rest.head?, isWordByte b = false) (h : Lexes rest us)
    : Lexes (write ts ++ rest) (ts ++ us) := by
  induction ts with
  | nil => exact h
  | cons t ts ih =>
    rw [forall_mem_cons] at hvalid
    have ih := ih hvalid.2 hchain.of_cons
    rw [write, flatMap_cons, append_assoc]
    cases t with
    | mark m => exact .mark m ih
    | string gs =>
      have := Lexes.string hvalid.1 ih
      simpa [Token.raw, write] using this
    | scalar word =>
      apply Lexes.scalar hvalid.1 _ ih
      cases ts with
      | nil => exact hrest
      | cons t' ts =>
        rw [write, flatMap_cons, append_assoc]
        apply isWordByte_head?_raw
        exact (isChain_cons_cons.mp hchain).1 rfl

structure Writable (m : List Glyph × List (Token (List Glyph))) : Prop where
  name : ∀ g ∈ m.1, g.valid = true
  valid : ∀ t ∈ m.2, t.Valid
  isValue : IsValue m.2

theorem lexes_membersTokens {ms : List (List Glyph × List (Token (List Glyph)))}
    (h : ∀ m ∈ ms, Writable m)
    : Lexes (write (membersTokens ms)) (membersTokens ms) := by
  match ms with
  | [] => exact .mark .closeObject .nil
  | [(name, v)] =>
    have hm := h (name, v) (by simp)
    have hclose := Lexes.write_append hm.valid (Reader.isChain_value hm.isValue)
      (by simp [Mark.byte, isWordByte, isDigit]) (.mark .closeObject .nil)
    have := Lexes.string hm.name (.mark .colon hclose)
    simpa [membersTokens, write, Token.raw] using this
  | (name, v) :: member :: rest =>
    have hm := h (name, v) (by simp)
    have ih := lexes_membersTokens fun m hm => h m (mem_cons_of_mem (name, v) hm)
    have hcomma := Lexes.write_append hm.valid (Reader.isChain_value hm.isValue)
      (by simp [Mark.byte, isWordByte, isDigit]) (.mark .comma ih)
    have := Lexes.string hm.name (.mark .colon hcomma)
    simpa [membersTokens, write, Token.raw] using this

theorem object_write {ms : List (List Glyph × List (Token (List Glyph)))} (h : ∀ m ∈ ms, Writable m)
    : (lex (write (objectTokens ms))).bind object = some ms := by
  have hlexes : Lexes (write (objectTokens ms)) (objectTokens ms) :=
    .mark .openObject (lexes_membersTokens h)
  rw [lex_eq_some_iff.mpr hlexes, Option.bind_some]
  exact object_objectTokens fun m hm => (h m hm).isValue

end

end Json
