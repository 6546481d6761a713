import ModelGateway.Net.Netip
import ModelGateway.Lib.Fold

namespace ModelGateway.Netip

open List
open Option (some)

open AddressText

variable {input : Str}

variable {s : Str}

theorem parseIPv4Fields_go_digits {ds : List Nat} (hs : Digits s ds) (rest : Str)
    (done fields : List Nat) (hdone : 0 < value 10 done) (hle : value 10 (done ++ ds) ≤ 255)
    : parseIPv4Fields.go input (value 10 done) done.length fields (s ++ rest)
        =
      parseIPv4Fields.go input (value 10 (done ++ ds)) (done.length + s.length) fields rest := by
  induction hs generalizing done with
  | nil => simp
  | @cons b d s ds hd _ ih =>
    have happend : done ++ d :: ds = (done ++ [d]) ++ ds := by simp
    have hprefix : value 10 (done ++ [d]) ≤ value 10 (done ++ d :: ds) := by
      rw [happend]
      apply value_le_append (by decide)
    rw [cons_append, parseIPv4Fields.go]
    simp only [hd]
    rw [value_concat] at hprefix
    rw [if_neg (by omega), if_neg (by omega), ← value_concat]
    rw [happend] at hle ⊢
    have hlength : done.length + 1 = (done ++ [d]).length := by simp
    have hlength' : (done ++ [d]).length + s.length = done.length + (b :: s).length := by
      simp
      omega
    rw [hlength, ih _ (by rw [value_concat]; omega) hle, hlength']

variable {n : Nat}

theorem parseIPv4Fields_go_octet (hs : Octet s n) (rest : Str) (fields : List Nat)
    : parseIPv4Fields.go input 0 0 fields (s ++ rest)
        =
      parseIPv4Fields.go input n s.length fields rest := by
  rcases hs with ⟨⟨ds, hds, rfl⟩, hne, _, hcanonical, hle⟩
  cases hds with
  | nil => simp at hne
  | @cons b d s ds hd hds =>
    have hfirst : parseIPv4Fields.go input 0 0 fields (b :: s ++ rest)
        = parseIPv4Fields.go input (value 10 [d]) [d].length fields (s ++ rest) := by
      rw [cons_append, parseIPv4Fields.go]
      have := digit?_lt hd
      simp only [hd]
      rw [if_neg (by omega), if_neg (by omega), value_singleton]
      simp
    rw [hfirst]
    by_cases hzero : d = 0
    . -- a leading zero is the only digit
      have hb : b = 48 := by
        unfold digit? at hd
        rw [Option.ite_none_right_eq_some, some.injEq] at hd
        rcases hd with ⟨⟨hlow, -⟩, hval⟩
        apply UInt8.toNat.inj
        rw [UInt8.le_iff_toNat_le] at hlow
        simp only [UInt8.reduceToNat] at hlow ⊢
        omega
      have hs : s = [] := by simpa [hb] using hcanonical (by simp [hb])
      subst hs
      cases hds with
      | nil => rfl
    . rw [parseIPv4Fields_go_digits hds rest [d] fields (by rw [value_singleton]; omega) hle]
      simp [Nat.add_comm]

variable {fields : List Nat} {rest : Str}

theorem parseIPv4Fields_go_dot {n digLen : Nat}
    (hdigLen : digLen ≠ 0) (hrest : rest ≠ []) (hfields : fields.length ≠ 3)
    : parseIPv4Fields.go input n digLen fields (46 :: rest)
        =
      parseIPv4Fields.go input 0 0 (fields ++ [n]) rest := by
  rw [parseIPv4Fields.go]
  have hdot : digit? 46 = none := by decide
  simp [hdot, hdigLen, hrest, hfields]

variable {ns : List Nat}

theorem parseIPv4Fields_of_dottedQuad (h : DottedQuad s ns) : parseIPv4Fields input s = .ok ns := by
  cases h with
  | @mk s₁ s₂ s₃ s₄ _ _ _ _ h₁ h₂ h₃ h₄ =>
    have hlast : s₄ = s₄ ++ [] := by simp
    unfold parseIPv4Fields
    rw [parseIPv4Fields_go_octet h₁, parseIPv4Fields_go_dot (by simp [h₁.nonempty]) (by simp) (by simp)]
    rw [parseIPv4Fields_go_octet h₂, parseIPv4Fields_go_dot (by simp [h₂.nonempty]) (by simp) (by simp)]
    rw [parseIPv4Fields_go_octet h₃,
      parseIPv4Fields_go_dot (by simp [h₃.nonempty]) h₄.nonempty (by simp)]
    rw [hlast, parseIPv4Fields_go_octet h₄]
    simp [parseIPv4Fields.go]

theorem scanHex_go_digits {s' s : Str} {ds : List Nat} (hs : HexDigits s ds)
    (hrest : ∀ b ∈ rest.head?, hexDigit? b = none) (done : List Nat)
    (hdone : ∀ d ∈ done, d < 16) (hlength : done.length + s.length ≤ 4)
    : scanHex.go input s' done.length (value 16 done) (s ++ rest)
        =
      .ok (done.length + s.length, value 16 (done ++ ds), rest) := by
  induction hs generalizing done with
  | nil =>
    cases rest with
    | nil => simp [scanHex.go]
    | cons b rest =>
      have hb : hexDigit? b = none := hrest b (by simp)
      rw [nil_append, scanHex.go]
      simp [hb]
  | @cons b d s ds hd _ ih =>
    have hd' : ∀ e ∈ done ++ [d], e < 16 := by
      intro e he
      rw [mem_append, mem_singleton] at he
      rcases he with he | rfl
      . exact hdone e he
      . exact hexDigit?_lt hd
    rw [length_cons] at hlength
    have hlt : value 16 (done ++ [d]) < 16 ^ 4 := by
      apply Nat.lt_of_lt_of_le (value_lt (by decide) hd')
      apply Nat.pow_le_pow_right (by decide)
      simp
      omega
    rw [value_concat] at hlt
    rw [cons_append, scanHex.go]
    simp only [hd]
    rw [if_neg (by omega), if_neg (by omega), ← value_concat]
    have hlen : done.length + 1 = (done ++ [d]).length := by simp
    have hlen' : (done ++ [d]).length + s.length = done.length + (b :: s).length := by
      simp
      omega
    rw [hlen, ih (done ++ [d]) hd' (by simp; omega), hlen']
    simp

theorem scanHex_of_hextet (hs : Hextet s n) (hrest : ∀ b ∈ rest.head?, hexDigit? b = none)
    : scanHex input (s ++ rest) = .ok (s.length, n, rest) := by
  rcases hs with ⟨⟨ds, hds, rfl⟩, _, hlength⟩
  unfold scanHex
  have hscan : scanHex.go input (s ++ rest) [].length (value 16 []) (s ++ rest)
      = .ok ([].length + s.length, value 16 ([] ++ ds), rest) :=
    scanHex_go_digits hds hrest [] (by simp) (by simpa)
  simpa using hscan

theorem hexDigit?_colon : hexDigit? 58 = none := by
  decide

theorem hexDigit?_dot : hexDigit? 46 = none := by
  decide

theorem parseGroups_last (hs : Hextet s n) (room : Nat) (ellipsis : Option Nat) (fields : List Nat)
    : parseGroups input (room + 1) ellipsis fields s = .ok (ellipsis, fields ++ [n], []) := by
  have hscan : scanHex input s = .ok (s.length, n, []) := by
    rw [← append_nil s, scanHex_of_hextet hs (by simp), append_nil]
  rw [parseGroups, hscan]
  simp [bind, Except.bind, hs.nonempty]

variable {b : UInt8}

theorem parseGroups_colon (hs : Hextet s n)
    (hb : b ≠ 58) (room : Nat) (ellipsis : Option Nat) (fields : List Nat)
    : parseGroups input (room + 1) ellipsis fields (s ++ 58 :: b :: rest)
        =
      parseGroups input room ellipsis (fields ++ [n]) (b :: rest) := by
  have hscan : scanHex input (s ++ 58 :: b :: rest) = .ok (s.length, n, 58 :: b :: rest) :=
    scanHex_of_hextet hs (by simp [hexDigit?_colon])
  rw [parseGroups, hscan]
  simp [bind, Except.bind, hs.nonempty, hb]

theorem parseGroups_elision (hs : Hextet s n) (rest : Str) (room : Nat) (fields : List Nat)
    : parseGroups input (room + 1) none fields (s ++ 58 :: 58 :: rest) = if rest = [] then
        .ok (some (fields.length + 1), fields ++ [n], [])
      else
        parseGroups input room (some (fields.length + 1)) (fields ++ [n]) rest := by
  have hscan : scanHex input (s ++ 58 :: 58 :: rest) = .ok (s.length, n, 58 :: 58 :: rest) :=
    scanHex_of_hextet hs (by simp [hexDigit?_colon])
  rw [parseGroups, hscan]
  simp [bind, Except.bind, hs.nonempty]

theorem parseGroups_quad {n₁ n₂ n₃ n₄ : Nat} (hs : DottedQuad s [n₁, n₂, n₃, n₄])
    {room : Nat} {ellipsis : Option Nat} (hfields : fields.length ≤ 6)
    (hplace : ellipsis = none → fields.length = 6)
    : parseGroups input (room + 1) ellipsis fields s
        =
      .ok (ellipsis, fields ++ [n₁ * 256 + n₂, n₃ * 256 + n₄], []) := by
  have hquad : parseIPv4Fields input s = .ok [n₁, n₂, n₃, n₄] := parseIPv4Fields_of_dottedQuad hs
  have hscan : ∃ off m rest, scanHex input s = .ok (off, m, 46 :: rest) ∧ off ≠ 0 := by
    cases hs with
    | @mk s₁ _ _ _ _ _ _ _ h₁ =>
      rcases h₁.hextet with ⟨m, hm⟩
      exact ⟨_, m, _, scanHex_of_hextet hm (by simp [hexDigit?_dot]), by simp [hm.nonempty]⟩
  rcases hscan with ⟨off, m, rest, hscan, hoff⟩
  have hvalue : ∀ a b : Nat, value 256 [a, b] = a * 256 + b := by
    intro a b
    rw [← singleton_append, value_concat, value_singleton]
  rw [parseGroups, hscan]
  simp only [bind, Except.bind, hoff, hquad]
  rw [if_neg (by simp), if_pos (by simp), if_neg (by tauto), if_neg (by omega)]
  simp [hvalue]

theorem head_ne_colon (h : hexDigit? b ≠ none) : b ≠ 58 := by
  rintro rfl
  exact h hexDigit?_colon

theorem parseGroups_of_groups (hs : Groups true s ns) {room : Nat}
    {ellipsis : Option Nat} (hroom : fields.length + room = 8)
    (hfits : fields.length + ns.length ≤ 8)
    (hplace : ellipsis = none → fields.length + ns.length = 8)
    : parseGroups input room ellipsis fields s = .ok (ellipsis, fields ++ ns, []) := by
  induction hs generalizing room fields with
  | last h =>
    cases room with
    | zero => simp at hfits; omega
    | succ room => exact parseGroups_last h room ellipsis fields
  | quad _ h =>
    simp only [length_cons, length_nil] at hfits hplace
    cases room with
    | zero => omega
    | succ room => exact parseGroups_quad h (by omega) (fun h => by have := hplace h; omega)
  | @cons s rest n ns h hrest ih =>
    rw [length_cons] at hfits hplace
    cases room with
    | zero => omega
    | succ room =>
      rcases hrest.head with ⟨b, t, rfl, hb⟩
      rw [parseGroups_colon h (head_ne_colon hb), ih (by simp; omega) (by simp; omega)
        (fun h => by have := hplace h; simp; omega)]
      simp

theorem parseGroups_of_elision {s : Str} {hi : List Nat} (hs : Groups false s hi) (rest : Str)
    {room : Nat} {fields : List Nat} (hroom : hi.length ≤ room)
    : parseGroups input room none fields (s ++ 58 :: 58 :: rest) = if rest = [] then
        .ok (some (fields ++ hi).length, fields ++ hi, [])
      else
        parseGroups input (room - hi.length) (some (fields ++ hi).length) (fields ++ hi) rest := by
  induction hs generalizing room fields with
  | last h =>
    cases room with
    | zero => simp at hroom
    | succ room => simp [parseGroups_elision h]
  | quad hquad => simp at hquad
  | @cons s t n ns h ht ih =>
    rw [length_cons] at hroom
    cases room with
    | zero => omega
    | succ room =>
      rcases ht.head with ⟨b, t, rfl, hb⟩
      have hassoc : s ++ 58 :: (b :: t) ++ 58 :: 58 :: rest = s ++ 58 :: b :: (t ++ 58 :: 58 :: rest) := by
        simp
      rw [hassoc, parseGroups_colon h (head_ne_colon hb), ← cons_append, ih (by omega)]
      simp

theorem expandEllipsis_full (h : ns.length = 8)
    : expandEllipsis input (none, ns, []) = .ok (value 65536 ns) := by
  simp [expandEllipsis, h]

theorem expandEllipsis_elided {hi lo : List Nat} (h : hi.length + lo.length < 8)
    : expandEllipsis input (some hi.length, hi ++ lo, [])
        =
      .ok (value 65536 (hi ++ replicate (8 - (hi.length + lo.length)) 0 ++ lo)) := by
  simp [expandEllipsis, h]

theorem parseIPv6Fields_of_ne_colon (hb : b ≠ 58)
    : parseIPv6Fields input (b :: s) = parseGroups input 8 none [] (b :: s) >>= expandEllipsis input
    := by
  unfold parseIPv6Fields
  split
  . next h => simp [hb] at h
  . next h => simp [hb] at h
  . rfl

theorem parseIPv6Fields_of_colons (hs : s ≠ [])
    : parseIPv6Fields input (58 :: 58 :: s)
        =
      parseGroups input 8 (some 0) [] s >>= expandEllipsis input := by
  unfold parseIPv6Fields
  split
  . next h => simp [hs] at h
  . next h =>
    simp only [List.cons.injEq, true_and] at h
    rw [h]
  . next h => exact absurd rfl (h s)

theorem parseIPv6Fields_of_iPv6 (hs : IPv6 s n) : parseIPv6Fields input s = .ok n := by
  cases hs with
  | full h hlength =>
    have hgroups : parseGroups input 8 none [] s = .ok (none, [] ++ _, []) :=
      parseGroups_of_groups h (by simp) (by simp [hlength]) (by simp [hlength])
    rcases h.head with ⟨b, t, rfl, hb⟩
    rw [parseIPv6Fields_of_ne_colon (head_ne_colon hb), hgroups]
    exact expandEllipsis_full hlength
  | @elided s t hi lo hhi hlo hlength =>
    rcases hhi with ⟨rfl, rfl⟩ | hhi
    . rcases hlo with ⟨rfl, rfl⟩ | hlo
      . rfl
      . have hgroups : parseGroups input 8 (some 0) [] t = .ok (some 0, [] ++ lo, []) :=
          parseGroups_of_groups hlo (by simp) (by simp at hlength ⊢; omega) (by simp)
        rw [nil_append, parseIPv6Fields_of_colons hlo.ne_nil, hgroups]
        exact expandEllipsis_elided hlength
    . have hgroups := @parseGroups_of_elision input s hi hhi t 8 [] (by omega)
      rcases hhi.head with ⟨b, s, rfl, hb⟩
      rw [cons_append] at hgroups ⊢
      rw [parseIPv6Fields_of_ne_colon (head_ne_colon hb), hgroups]
      rcases hlo with ⟨rfl, rfl⟩ | hlo
      . have hexpand := @expandEllipsis_elided input hi [] hlength
        rw [append_nil] at hexpand
        exact hexpand
      . rw [if_neg hlo.ne_nil, parseGroups_of_groups hlo (by simp; omega) (by simp; omega) (by simp)]
        exact expandEllipsis_elided hlength

def separator (b : UInt8) : Bool :=
  b = 46 || b = 58 || b = 37

theorem separator_eq_false (h : hexDigit? b ≠ none) : separator b = false := by
  unfold separator
  by_contra hb
  simp only [Bool.not_eq_false, Bool.or_eq_true, decide_eq_true_eq] at hb
  rcases hb with (rfl | rfl) | rfl
  . exact h hexDigit?_dot
  . exact h hexDigit?_colon
  . exact h (by decide)

theorem find?_separator_of_hextet (hs : Hextet s n) (rest : Str)
    : (s ++ rest).find? separator = rest.find? separator := by
  rcases hs with ⟨⟨ds, hds, hn⟩, hne, hlength⟩
  clear hn hne hlength
  induction hds with
  | nil => rfl
  | cons hd _ ih =>
    rw [cons_append, find?_cons_of_neg (by simp [separator_eq_false, hd])]
    exact ih

theorem parseAddr_of_dottedQuad (hs : DottedQuad s ns)
    : parseAddr s = .ok (.v4 (BitVec.ofNat 32 (value 256 ns))) := by
  have hparse : parseIPv4 s = .ok (.v4 (BitVec.ofNat 32 (value 256 ns))) := by
    unfold parseIPv4
    rw [parseIPv4Fields_of_dottedQuad hs]
    rfl
  have hfind : s.find? separator = some 46 := by
    cases hs with
    | mk h₁ =>
      rcases h₁.hextet with ⟨m, hm⟩
      rw [find?_separator_of_hextet hm]
      simp [separator]
  unfold separator at hfind
  unfold parseAddr
  rw [hfind]
  exact hparse

theorem find?_separator_of_iPv6 (hs : IPv6 s n) : s.find? separator = some 58 := by
  have hcolon : ∀ rest : Str, (58 :: rest).find? separator = some 58 := by
    intro rest
    simp [separator]
  cases hs with
  | full h hlength =>
    cases h with
    | last => simp at hlength
    | quad => simp at hlength
    | cons h => rw [find?_separator_of_hextet h, hcolon]
  | @elided s t hi lo hhi =>
    rcases hhi with ⟨rfl, rfl⟩ | hhi
    . apply hcolon
    . cases hhi with
      | last h => rw [find?_separator_of_hextet h, hcolon]
      | quad h => simp at h
      | cons h =>
        rw [append_assoc, find?_separator_of_hextet h, cons_append, hcolon]

theorem parseAddr_of_iPv6 (hs : IPv6 s n) (hzone : 37 ∉ s)
    : parseAddr s = .ok (.v6 (BitVec.ofNat 128 n) []) := by
  have hparse : parseIPv6 s = .ok (.v6 (BitVec.ofNat 128 n) []) := by
    unfold parseIPv6
    rw [List.cut_eq_none_iff.mpr hzone]
    rw [parseIPv6Fields_of_iPv6 hs]
    rfl
  have hfind := find?_separator_of_iPv6 hs
  unfold separator at hfind
  unfold parseAddr
  rw [hfind]
  exact hparse

structure PrefixLength (s : Str) (n : Nat) : Prop where
  digits : ∃ ds, Digits s ds ∧ n = value 10 ds
  nonempty : s ≠ []
  canonical : s.head? = some 48 → s = [48]

theorem PrefixLength.slash_not_mem (h : PrefixLength s n) : 47 ∉ s := by
  rcases h.digits with ⟨ds, hds, _⟩
  intro hmem
  exact hds.digit?_ne_none hmem (by decide)

theorem atoi_eq_some_iff
    : atoi s = some n ↔ s ≠ [] ∧ (∃ ds, Digits s ds ∧ n = value 10 ds) ∧ n < 2 ^ 63 := by
  unfold atoi
  split
  . next hs => simp [hs]
  . next hs =>
    split
    . next hdigits =>
      simp only [reduceCtorEq, false_iff, not_and]
      rintro _ ⟨ds, hds, _⟩
      rw [List.mapM_eq_some_iff_forall₂.mpr hds] at hdigits
      simp at hdigits
    . next ds hdigits =>
      have hds := List.mapM_eq_some_iff_forall₂.mp hdigits
      rw [Option.ite_none_right_eq_some, some.injEq]
      constructor
      . rintro ⟨hlt, rfl⟩
        exact ⟨hs, ⟨ds, hds, rfl⟩, hlt⟩
      . rintro ⟨_, ⟨ds', hds', rfl⟩, hlt⟩
        have heq := List.mapM_eq_some_iff_forall₂.mpr hds'
        rw [hdigits, some.injEq] at heq
        subst heq
        exact ⟨hlt, rfl⟩

theorem canonical_iff (hdigits : ∃ ds, Digits s ds) (hne : s ≠ [])
    : ¬ (1 < s.length ∧ s.head?.all fun c => c < 49 ∨ 57 < c) ↔ (s.head? = some 48 → s = [48]) := by
  rcases hdigits with ⟨ds, hds⟩
  cases hds with
  | nil => exact absurd rfl hne
  | @cons b d s ds hd hds =>
    have hrange : 48 ≤ b.toNat ∧ b.toNat ≤ 57 := by
      unfold digit? at hd
      rw [Option.ite_none_right_eq_some] at hd
      exact hd.1
    have hb : b < 49 ∨ 57 < b ↔ b = 48 := by
      rw [UInt8.lt_iff_toNat_lt, UInt8.lt_iff_toNat_lt, ← UInt8.toNat_inj]
      simp only [UInt8.reduceToNat]
      omega
    simp only [head?_cons, Option.all_some, hb, decide_eq_true_eq, some.injEq,
      List.cons.injEq, length_cons]
    rw [← length_eq_zero_iff]
    constructor
    . intro h hb
      exact ⟨hb, by simp [hb] at h; simp [h]⟩
    . rintro h ⟨hlength, hb⟩
      have := (h hb).2
      omega

theorem parseBits_eq_ok_iff {s bitsStr : Str} {ip : Addr} {maxBits : Nat} {p : Prefix}
    (hmax : maxBits < 2 ^ 63)
    : parseBits s bitsStr ip maxBits = .ok p
        ↔
      ∃ n, PrefixLength bitsStr n ∧ n ≤ maxBits ∧ p = ⟨ip, n⟩ := by
  unfold parseBits
  split
  . next hbad =>
    simp only [reduceCtorEq, false_iff, not_exists, not_and]
    rintro n ⟨⟨ds, hds, _⟩, hne, hcanonical⟩
    exact absurd hbad ((canonical_iff ⟨ds, hds⟩ hne).mpr hcanonical)
  . next hgood =>
    split
    . next hatoi =>
      simp only [reduceCtorEq, false_iff, not_exists, not_and]
      rintro n ⟨hdigits, hne, _⟩ hle
      have := atoi_eq_some_iff.mpr ⟨hne, hdigits, by omega⟩
      rw [hatoi] at this
      simp at this
    . next bits hatoi =>
      rcases atoi_eq_some_iff.mp hatoi with ⟨hne, hdigits, hlt⟩
      have hlength : PrefixLength bitsStr bits :=
        ⟨hdigits, hne, (canonical_iff (hdigits.imp fun _ h => h.1) hne).mp hgood⟩
      have hunique : ∀ n, PrefixLength bitsStr n → n ≤ maxBits → n = bits := by
        rintro n ⟨hdigits, hne, _⟩ hle
        have := atoi_eq_some_iff.mpr ⟨hne, hdigits, by omega⟩
        rw [hatoi, some.injEq] at this
        exact this.symm
      split
      . next hrange =>
        simp only [reduceCtorEq, false_iff, not_exists, not_and]
        intro n hn hle
        have := hunique n hn hle
        omega
      . next hrange =>
        rw [Except.ok.injEq]
        constructor
        . rintro rfl
          exact ⟨bits, hlength, by omega, rfl⟩
        . rintro ⟨n, hn, hle, rfl⟩
          rw [hunique n hn hle]

theorem cutLastSlash_eq_some_iff {s addr bits : Str}
    : cutLastSlash s = some (addr, bits) ↔ 47 ∉ bits ∧ s = addr ++ 47 :: bits := by
  unfold cutLastSlash
  rw [Option.map_eq_some_iff]
  constructor
  . rintro ⟨⟨x, y⟩, hcut, heq⟩
    rcases heq with ⟨rfl, rfl⟩
    rcases List.cut_eq_some_iff.mp hcut with ⟨hx, hs⟩
    refine ⟨by simpa using hx, ?_⟩
    rw [← reverse_reverse s, hs]
    simp
  . rintro ⟨hbits, rfl⟩
    refine ⟨(bits.reverse, addr.reverse), ?_, by simp⟩
    apply List.cut_eq_some_iff.mpr
    exact ⟨by simpa using hbits, by simp⟩

theorem percent_not_mem_of_parseIPv4Fields {val digLen : Nat} {fields fields' : List Nat}
    (h : parseIPv4Fields.go input val digLen fields s = .ok fields')
    : 37 ∉ s := by
  induction s generalizing val digLen fields with
  | nil => simp
  | cons c rest ih =>
    rw [parseIPv4Fields.go] at h
    have hne : c ≠ 37 := by
      rintro rfl
      have hnone : digit? 37 = none := by decide
      simp [hnone] at h
    have hrest : 37 ∉ rest := by
      split at h
      . split at h
        . simp at h
        . split at h
          . simp at h
          . exact ih h
      . split at h
        . split at h
          . simp at h
          . split at h
            . simp at h
            . exact ih h
        . simp at h
    simp [Ne.symm hne, hrest]

theorem percent_not_mem_of_parseIPv4 {ip : Addr} (h : parseIPv4 s = .ok ip) : 37 ∉ s := by
  unfold parseIPv4 at h
  rw [Except.bind_eq_ok_iff] at h
  rcases h with ⟨_, hfields, _⟩
  exact percent_not_mem_of_parseIPv4Fields hfields

theorem percent_not_mem_of_parseAddr {ip : Addr} (h : parseAddr s = .ok ip)
    (hzone : ∀ n zone, ip = .v6 n zone → zone = [])
    : 37 ∉ s := by
  unfold parseAddr at h
  split at h
  . exact percent_not_mem_of_parseIPv4 h
  . unfold parseIPv6 at h
    split at h
    . next hcut => exact List.cut_eq_none_iff.mp hcut
    . simp at h
    . next t zone hne _ =>
      rw [Except.bind_eq_ok_iff] at h
      rcases h with ⟨n, _, h⟩
      exact absurd (hzone _ _ (Except.ok.inj h).symm) hne
  . simp at h
  . simp at h

theorem parsePrefix_eq_ok {p : Prefix} (h : parsePrefix s = .ok p)
    : ∃ addr bits n, s = addr ++ 47 :: bits ∧ 37 ∉ addr ∧ PrefixLength bits n := by
  unfold parsePrefix at h
  split at h
  . simp at h
  . next addr bits hcut =>
    refine ⟨addr, bits, ?_⟩
    rcases cutLastSlash_eq_some_iff.mp hcut with ⟨_, hs⟩
    split at h
    . simp at h
    . next ip haddr =>
      rcases (parseBits_eq_ok_iff (by decide)).mp h with ⟨n, hn, _⟩
      exact ⟨n, hs, percent_not_mem_of_parseAddr haddr (by simp), hn⟩
    . next ip haddr =>
      rcases (parseBits_eq_ok_iff (by decide)).mp h with ⟨n, hn, _⟩
      exact ⟨n, hs, percent_not_mem_of_parseAddr haddr (by simp), hn⟩
    . simp at h

theorem parsePrefix_of_v4 {addr bits : Str} {ip : BitVec 32}
    (haddr : parseAddr addr = .ok (.v4 ip)) (hbits : PrefixLength bits n) (hn : n ≤ 32)
    : parsePrefix (addr ++ 47 :: bits) = .ok ⟨.v4 ip, n⟩ := by
  unfold parsePrefix
  rw [cutLastSlash_eq_some_iff.mpr ⟨hbits.slash_not_mem, rfl⟩]
  simp only [haddr]
  exact (parseBits_eq_ok_iff (by decide)).mpr ⟨n, hbits, hn, rfl⟩

theorem parsePrefix_of_v6 {addr bits : Str} {ip : BitVec 128}
    (haddr : parseAddr addr = .ok (.v6 ip [])) (hbits : PrefixLength bits n) (hn : n ≤ 128)
    : parsePrefix (addr ++ 47 :: bits) = .ok ⟨.v6 ip [], n⟩ := by
  unfold parsePrefix
  rw [cutLastSlash_eq_some_iff.mpr ⟨hbits.slash_not_mem, rfl⟩]
  simp only [haddr]
  exact (parseBits_eq_ok_iff (by decide)).mpr ⟨n, hbits, hn, rfl⟩

end ModelGateway.Netip
