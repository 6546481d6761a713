import Mathlib.Data.List.Basic
import Mathlib.Tactic.Common

namespace Json

open List
open Option (bind_some map_eq_some_iff some)

def isDigit (b : UInt8) : Bool :=
  48 ≤ b && b ≤ 57

def isHex (b : UInt8) : Bool :=
  isDigit b || (97 ≤ b && b ≤ 102) || (65 ≤ b && b ≤ 70)

def nibble (b : UInt8) : Nat :=
  if isDigit b then b.toNat - 48 else if 97 ≤ b then b.toNat - 87 else b.toNat - 55

def isPlain (b : UInt8) : Bool :=
  32 ≤ b && b != 34 && b != 92

def shortText (e : UInt8) : Option UInt8 :=
  if e = 34 ∨ e = 92 ∨ e = 47 then some e
  else if e = 98 then some 8
  else if e = 102 then some 12
  else if e = 110 then some 10
  else if e = 114 then some 13
  else if e = 116 then some 9
  else none

inductive Glyph where
  | plain (b : UInt8)
  | short (e : UInt8)
  | code (a b c d : UInt8)
  deriving DecidableEq, Repr

namespace Glyph

def raw : Glyph → List UInt8
  | plain b => [b]
  | short e => [92, e]
  | code a b c d => [92, 117, a, b, c, d]

def valid : Glyph → Bool
  | plain b => isPlain b
  | short e => (shortText e).isSome
  | code a b c d => isHex a && isHex b && isHex c && isHex d

def unit : Glyph → Option Nat
  | code a b c d => some (((nibble a * 16 + nibble b) * 16 + nibble c) * 16 + nibble d)
  | _ => none

def high (g : Glyph) : Bool :=
  g.unit.any fun n => 0xD800 ≤ n && n < 0xDC00

def low (g : Glyph) : Bool :=
  g.unit.any fun n => 0xDC00 ≤ n && n < 0xE000

def sense (g : Glyph) : List UInt8 :=
  match g with
  | plain b => [b]
  | short e => [(shortText e).getD e]
  | code .. =>
    if g.high || g.low then [0xEF, 0xBF, 0xBD]
    else String.utf8EncodeChar (Char.ofNat (g.unit.getD 0))

def joined (g g' : Glyph) : List UInt8 :=
  String.utf8EncodeChar
    (Char.ofNat (0x10000 + (g.unit.getD 0 - 0xD800) * 0x400 + (g'.unit.getD 0 - 0xDC00)))

end Glyph

def rawText (gs : List Glyph) : List UInt8 :=
  gs.flatMap Glyph.raw

def text : List Glyph → List UInt8
  | [] => []
  | [g] => g.sense
  | g :: g' :: gs =>
    if g.high && g'.low then g.joined g' ++ text gs else g.sense ++ text (g' :: gs)

def glyph : List UInt8 → Option Glyph
  | [] => none
  | b :: rest =>
    if b = 92 then
      match rest with
      | [] => none
      | e :: rest =>
        if e = 117 then
          match rest with
          | a :: b :: c :: d :: _ =>
            if (Glyph.code a b c d).valid then some (.code a b c d) else none
          | _ => none
        else if (shortText e).isSome then some (.short e)
        else none
    else if isPlain b then some (.plain b)
    else none

def readString : Nat → List UInt8 → Option (List Glyph × List UInt8)
  | 0, _ => none
  | _ + 1, [] => none
  | fuel + 1, b :: rest =>
    if b = 34 then some ([], rest)
    else
      (glyph (b :: rest)).bind fun g =>
        (readString fuel ((b :: rest).drop g.raw.length)).map fun (gs, rest) => (g :: gs, rest)

inductive Mark where
  | openObject
  | closeObject
  | openArray
  | closeArray
  | colon
  | comma
  deriving DecidableEq, Repr

def Mark.byte : Mark → UInt8
  | openObject => 123
  | closeObject => 125
  | openArray => 91
  | closeArray => 93
  | colon => 58
  | comma => 44

def mark (b : UInt8) : Option Mark :=
  if b = 123 then some .openObject
  else if b = 125 then some .closeObject
  else if b = 91 then some .openArray
  else if b = 93 then some .closeArray
  else if b = 58 then some .colon
  else if b = 44 then some .comma
  else none

inductive Token (σ : Type) where
  | mark (m : Mark)
  | scalar (word : List UInt8)
  | string (s : σ)
  deriving DecidableEq, Repr

def Token.map {σ τ : Type} (f : σ → τ) : Token σ → Token τ
  | mark m => mark m
  | scalar word => scalar word
  | string s => string (f s)

def isSpace (b : UInt8) : Bool :=
  b == 32 || b == 9 || b == 10 || b == 13

def isWordByte (b : UInt8) : Bool :=
  isDigit b || (97 ≤ b && b ≤ 122) || (65 ≤ b && b ≤ 90) || b == 43 || b == 45 || b == 46

def isExponent : List UInt8 → Bool
  | [] => true
  | b :: rest =>
    let digits := if rest.head? = some 43 ∨ rest.head? = some 45 then rest.tail else rest
    (b == 101 || b == 69) && digits != [] && digits.all isDigit

def isFraction : List UInt8 → Bool
  | [] => true
  | b :: rest =>
    if b = 46 then rest.takeWhile isDigit != [] && isExponent (rest.dropWhile isDigit)
    else isExponent (b :: rest)

def isNumber (word : List UInt8) : Bool :=
  let unsigned := if word.head? = some 45 then word.tail else word
  let whole := unsigned.takeWhile isDigit
  whole != [] && (whole.length = 1 || whole.head? != some 48) &&
    isFraction (unsigned.dropWhile isDigit)

def trueWord : List UInt8 := [116, 114, 117, 101]

def falseWord : List UInt8 := [102, 97, 108, 115, 101]

def nullWord : List UInt8 := [110, 117, 108, 108]

def isScalar (word : List UInt8) : Bool :=
  word.all isWordByte &&
    (word == trueWord || word == falseWord || word == nullWord || isNumber word)

def lexFrom : Nat → List UInt8 → Option (List (Token (List Glyph)))
  | _, [] => some []
  | 0, _ :: _ => none
  | fuel + 1, b :: rest =>
    if isSpace b then lexFrom fuel rest
    else
      match mark b with
      | some m => (lexFrom fuel rest).map (.mark m :: ·)
      | none =>
        if b = 34 then
          (readString rest.length rest).bind fun (gs, rest) =>
            (lexFrom fuel rest).map (.string gs :: ·)
        else
          let word := (b :: rest).takeWhile isWordByte
          if isScalar word then
            (lexFrom fuel ((b :: rest).drop word.length)).map (.scalar word :: ·)
          else none

def lex (bytes : List UInt8) : Option (List (Token (List Glyph))) :=
  lexFrom bytes.length bytes

inductive Lexes : List UInt8 → List (Token (List Glyph)) → Prop where
  | nil : Lexes [] []
  | space {b : UInt8} {rest : List UInt8} {ts : List (Token (List Glyph))} (hb : isSpace b = true)
      (h : Lexes rest ts) : Lexes (b :: rest) ts
  | mark (m : Mark) {rest : List UInt8} {ts : List (Token (List Glyph))} (h : Lexes rest ts)
      : Lexes (m.byte :: rest) (.mark m :: ts)
  | string {gs : List Glyph} (hgs : ∀ g ∈ gs, g.valid = true) {rest : List UInt8}
      {ts : List (Token (List Glyph))} (h : Lexes rest ts)
      : Lexes (34 :: (rawText gs ++ 34 :: rest)) (.string gs :: ts)
  | scalar {word : List UInt8} (hword : isScalar word = true) {rest : List UInt8}
      (hrest : ∀ b ∈ rest.head?, isWordByte b = false) {ts : List (Token (List Glyph))}
      (h : Lexes rest ts) : Lexes (word ++ rest) (.scalar word :: ts)

section

theorem text_cons {g : Glyph} {gs : List Glyph} (h : ∀ g' ∈ gs.head?, (g.high && g'.low) = false)
    : text (g :: gs) = g.sense ++ text gs := by
  cases gs with
  | nil => simp [text]
  | cons g' gs =>
    rw [text, h g' (by simp), if_neg (by simp)]

@[simp]
theorem text_plain (b : UInt8) (gs : List Glyph) : text (.plain b :: gs) = b :: text gs :=
  text_cons (by simp [Glyph.high, Glyph.unit])

theorem glyph_eq_some_iff {bytes : List UInt8} {g : Glyph}
    : glyph bytes = some g ↔ g.valid = true ∧ g.raw <+: bytes := by
  constructor
  . intro h
    unfold glyph at h
    split at h
    . simp at h
    . next b rest =>
      split at h
      . next hb =>
        subst hb
        split at h
        . simp at h
        . next e rest =>
          split at h
          . next he =>
            subst he
            split at h
            . next a b c d rest =>
              split at h
              . next hvalid =>
                cases h
                exact ⟨hvalid, by simp [Glyph.raw]⟩
              . simp at h
            . simp at h
          . split at h
            . next hshort =>
              cases h
              exact ⟨hshort, by simp [Glyph.raw]⟩
            . simp at h
      . split at h
        . next hplain =>
          cases h
          exact ⟨hplain, by simp [Glyph.raw]⟩
        . simp at h
  . rintro ⟨hvalid, rest, rfl⟩
    cases g with
    | plain b =>
      have hb : b ≠ 92 := by
        intro hb
        subst hb
        revert hvalid
        decide
      simp only [Glyph.valid] at hvalid
      simp [glyph, Glyph.raw, hb, hvalid]
    | short e =>
      have he : e ≠ 117 := by
        intro he
        subst he
        revert hvalid
        decide
      simp only [Glyph.valid] at hvalid
      simp [glyph, Glyph.raw, he, hvalid]
    | code a b c d => simp [glyph, Glyph.raw, hvalid]

theorem Glyph.raw_ne_nil (g : Glyph) : g.raw ≠ [] := by
  cases g <;> simp [Glyph.raw]

theorem Glyph.head?_raw {g : Glyph} (h : g.valid = true) : g.raw.head? ≠ some 34 := by
  cases g with
  | plain b =>
    intro hb
    simp only [Glyph.raw, head?_cons, some.injEq] at hb
    subst hb
    revert h
    decide
  | short e => simp [Glyph.raw]
  | code a b c d => simp [Glyph.raw]

@[simp]
theorem rawText_cons (g : Glyph) (gs : List Glyph) : rawText (g :: gs) = g.raw ++ rawText gs :=
  flatMap_cons

theorem readString_eq_some_iff {fuel : Nat} {bytes rest : List UInt8} {gs : List Glyph}
    (hfuel : bytes.length ≤ fuel)
    : readString fuel bytes = some (gs, rest)
        ↔
      bytes = rawText gs ++ 34 :: rest ∧ ∀ g ∈ gs, g.valid = true := by
  induction fuel generalizing bytes gs with
  | zero =>
    rw [length_eq_zero_iff.mp (Nat.le_zero.mp hfuel)]
    simp [readString]
  | succ fuel ih =>
    cases bytes with
    | nil => simp [readString]
    | cons b tail =>
      have hdrop : ∀ g : Glyph, ((b :: tail).drop g.raw.length).length ≤ fuel := by
        intro g
        have := length_pos_of_ne_nil g.raw_ne_nil
        simp only [length_drop, length_cons] at hfuel ⊢
        omega
      unfold readString
      constructor
      . intro h
        split at h
        . next hb =>
          cases h
          exact ⟨by simp [hb, rawText], by simp⟩
        . rcases Option.bind_eq_some_iff.mp h with ⟨g, hg, h⟩
          rcases map_eq_some_iff.mp h with ⟨⟨gs', _⟩, h, heq⟩
          cases heq
          rw [glyph_eq_some_iff] at hg
          rcases (ih (hdrop g)).mp h with ⟨hbytes, hvalid⟩
          constructor
          . rw [rawText_cons, append_assoc, ← hbytes]
            exact (prefix_iff_eq_append.mp hg.2).symm
          . simp only [mem_cons, forall_eq_or_imp]
            exact ⟨hg.1, hvalid⟩
      . rintro ⟨hbytes, hvalid⟩
        cases gs with
        | nil =>
          rw [rawText, flatMap_nil, nil_append, List.cons.injEq] at hbytes
          rw [if_pos hbytes.1, hbytes.2]
        | cons g gs =>
          simp only [mem_cons, forall_eq_or_imp] at hvalid
          rw [rawText_cons, append_assoc] at hbytes
          have hb : b ≠ 34 := by
            intro hb
            apply g.head?_raw hvalid.1
            rw [← head?_append_of_ne_nil _ g.raw_ne_nil, ← hbytes, hb]
            rfl
          have hg : glyph (b :: tail) = some g := by
            rw [glyph_eq_some_iff, hbytes]
            exact ⟨hvalid.1, prefix_append _ _⟩
          have hrest : readString fuel ((b :: tail).drop g.raw.length) = some (gs, rest) := by
            rw [ih (hdrop g), hbytes, drop_left]
            exact ⟨rfl, hvalid.2⟩
          rw [if_neg hb, hg, bind_some, hrest]
          rfl

end

section

variable {b : UInt8}

theorem mark_eq_some_iff {m : Mark} : mark b = some m ↔ b = m.byte := by
  constructor
  . intro h
    unfold mark at h
    split_ifs at h <;> (cases h; assumption)
  . rintro rfl
    cases m <;> rfl

theorem isSpace_byte (m : Mark) : isSpace m.byte = false := by
  cases m <;> rfl

theorem isScalar_ne_nil {word : List UInt8} (h : isScalar word = true) : word ≠ [] := by
  rintro rfl
  revert h
  decide

theorem head_of_isScalar {word : List UInt8} (h : isScalar (b :: word) = true)
    : isDigit b = true ∨ b = 45 ∨ b = 116 ∨ b = 102 ∨ b = 110 := by
  rw [isScalar, Bool.and_eq_true, Bool.or_eq_true, Bool.or_eq_true, Bool.or_eq_true] at h
  rcases h.2 with ((h | h) | h) | h
  . simp only [trueWord, beq_iff_eq, List.cons.injEq] at h
    simp [h.1]
  . simp only [falseWord, beq_iff_eq, List.cons.injEq] at h
    simp [h.1]
  . simp only [nullWord, beq_iff_eq, List.cons.injEq] at h
    simp [h.1]
  . by_cases hminus : b = 45
    . exact .inr (.inl hminus)
    . left
      by_contra hdigit
      simp [isNumber, hminus, hdigit] at h

theorem wordByte (h : isWordByte b = true) : isSpace b = false ∧ mark b = none ∧ b ≠ 34 := by
  refine ⟨?_, ?_, ?_⟩
  . grind [isWordByte, isSpace, isDigit]
  . cases hm : mark b with
    | none => rfl
    | some m =>
      rw [mark_eq_some_iff] at hm
      subst hm
      cases m <;> simp [Mark.byte, isWordByte, isDigit] at h
  . rintro rfl
    revert h
    decide

theorem drop_length_takeWhile (p : UInt8 → Bool) (bytes : List UInt8)
    : bytes.drop (bytes.takeWhile p).length = bytes.dropWhile p := by
  have := @drop_left _ (bytes.takeWhile p) (bytes.dropWhile p)
  rwa [takeWhile_append_dropWhile] at this

theorem head?_dropWhile_isWordByte (bytes : List UInt8)
    : ∀ b ∈ (bytes.dropWhile isWordByte).head?, isWordByte b = false := by
  intro b hb
  have := head?_dropWhile_not isWordByte bytes
  rw [Option.mem_def.mp hb] at this
  simpa using this

variable {bytes : List UInt8} {ts : List (Token (List Glyph))}

theorem Lexes.of_lexFrom {fuel : Nat} (h : lexFrom fuel bytes = some ts) : Lexes bytes ts := by
  induction fuel generalizing bytes ts with
  | zero =>
    cases bytes with
    | nil =>
      simp only [lexFrom, some.injEq] at h
      subst h
      exact .nil
    | cons b rest => simp [lexFrom] at h
  | succ fuel ih =>
    cases bytes with
    | nil =>
      simp only [lexFrom, some.injEq] at h
      subst h
      exact .nil
    | cons b rest =>
      unfold lexFrom at h
      split at h
      . next hb => exact .space hb (ih h)
      . split at h
        . next m hm =>
          rcases map_eq_some_iff.mp h with ⟨ts, hts, rfl⟩
          rw [mark_eq_some_iff] at hm
          subst hm
          exact .mark m (ih hts)
        . split at h
          . next hb =>
            subst hb
            rcases Option.bind_eq_some_iff.mp h with ⟨⟨gs, _⟩, hgs, hmap⟩
            rcases map_eq_some_iff.mp hmap with ⟨ts, hts, rfl⟩
            rcases (readString_eq_some_iff (Nat.le_refl _)).mp hgs with ⟨rfl, hvalid⟩
            exact .string hvalid (ih hts)
          . dsimp only at h
            split at h
            . next hword =>
              rcases map_eq_some_iff.mp h with ⟨ts, hts, rfl⟩
              rw [drop_length_takeWhile] at hts
              have := Lexes.scalar hword (head?_dropWhile_isWordByte _) (ih hts)
              rwa [takeWhile_append_dropWhile] at this
            . simp at h

theorem Lexes.lexFrom_eq (h : Lexes bytes ts) {fuel : Nat} (hfuel : bytes.length ≤ fuel)
    : lexFrom fuel bytes = some ts := by
  induction h generalizing fuel with
  | nil => cases fuel <;> rfl
  | space hb h ih =>
    cases fuel with
    | zero => simp at hfuel
    | succ fuel =>
      unfold lexFrom
      rw [if_pos hb]
      apply ih
      simpa using hfuel
  | mark m h ih =>
    cases fuel with
    | zero => simp at hfuel
    | succ fuel =>
      unfold lexFrom
      rw [isSpace_byte, if_neg (by simp), mark_eq_some_iff.mpr rfl]
      rw [ih (by simpa using hfuel)]
      rfl
  | @string gs hgs rest ts h ih =>
    cases fuel with
    | zero => simp at hfuel
    | succ fuel =>
      have hread : readString (rawText gs ++ 34 :: rest).length (rawText gs ++ 34 :: rest)
          = some (gs, rest) :=
        (readString_eq_some_iff (Nat.le_refl _)).mpr ⟨rfl, hgs⟩
      have hrest : lexFrom fuel rest = some ts := by
        apply ih
        simp only [length_cons, length_append] at hfuel
        omega
      unfold lexFrom
      rw [if_pos rfl, hread, bind_some]
      dsimp only
      rw [hrest]
      rfl
  | @scalar word hword rest hrest ts h ih =>
    cases word with
    | nil => exact absurd rfl (isScalar_ne_nil hword)
    | cons b word =>
      cases fuel with
      | zero => simp at hfuel
      | succ fuel =>
        have hbytes : ∀ x ∈ b :: word, isWordByte x = true := by
          rw [isScalar, Bool.and_eq_true, all_eq_true] at hword
          exact hword.1
        have htake : ((b :: word) ++ rest).takeWhile isWordByte = b :: word := by
          rw [takeWhile_append_of_pos hbytes]
          cases rest with
          | nil => simp
          | cons x rest =>
            rw [takeWhile_cons_of_neg (by simp [hrest x (by simp)]), append_nil]
        have hlex : lexFrom fuel rest = some ts := by
          apply ih
          simp only [length_cons, length_append] at hfuel
          omega
        rcases wordByte (hbytes b (by simp)) with ⟨hspace, hmark, hquote⟩
        rw [cons_append] at htake ⊢
        unfold lexFrom
        rw [hspace, if_neg (by simp), hmark]
        rw [if_neg hquote, htake, if_pos hword, ← cons_append, drop_left, hlex]
        rfl

theorem lex_eq_some_iff
    : lex bytes = some ts ↔ Lexes bytes ts :=
  ⟨.of_lexFrom, fun h => h.lexFrom_eq (Nat.le_refl _)⟩

theorem Lexes.cons_cases {rest : List UInt8} (h : Lexes (b :: rest) ts)
    : isSpace b = true ∨ (∃ m : Mark, b = m.byte ∧ ∃ ts', Lexes rest ts') ∨ b = 34 ∨
        ∃ word, isScalar (b :: word) = true := by
  generalize hbytes : b :: rest = bytes at h
  cases h with
  | nil => simp at hbytes
  | space hb h =>
    rw [List.cons.injEq] at hbytes
    rw [hbytes.1]
    exact .inl hb
  | mark m h =>
    rw [List.cons.injEq] at hbytes
    rw [hbytes.2]
    exact .inr (.inl ⟨m, hbytes.1, _, h⟩)
  | string hgs h =>
    rw [List.cons.injEq] at hbytes
    exact .inr (.inr (.inl hbytes.1))
  | @scalar word hword rest hrest ts h =>
    cases word with
    | nil => exact absurd rfl (isScalar_ne_nil hword)
    | cons x word =>
      rw [cons_append, List.cons.injEq] at hbytes
      rw [hbytes.1]
      exact .inr (.inr (.inr ⟨word, hword⟩))

end

end Json
