import ModelGateway.Net.Ipaddress
import ModelGateway.Lib.Fold

namespace ModelGateway.Ipaddress

open List
open Option (bind_eq_some_iff ite_none_left_eq_some some)

open AddressText

variable {s : Str} {n : Nat}

theorem parseOctet_eq_some (h : parseOctet s = some n) : Octet s n := by
  unfold parseOctet at h
  split at h
  . simp at h
  . next hne =>
    split at h
    . simp at h
    . next ds hds =>
      split at h
      . simp at h
      . split at h
        . simp at h
        . next hcanonical =>
          split at h
          . simp at h
          . rw [some.injEq] at h
            refine ⟨⟨ds, List.mapM_eq_some_iff_forall₂.mp hds, h.symm⟩, hne, by omega, ?_, by omega⟩
            intro hhead
            by_contra hs
            exact hcanonical ⟨hs, hhead⟩

theorem parseHextet_eq_some (h : parseHextet s = some n) : Hextet s n := by
  unfold parseHextet at h
  split at h
  . simp at h
  . next ds hds =>
    split at h
    . simp at h
    . split at h
      . simp at h
      . next hne =>
        rw [some.injEq] at h
        exact ⟨⟨ds, List.mapM_eq_some_iff_forall₂.mp hds, h.symm⟩, hne, by omega⟩

theorem intercalate_parts (sep : UInt8) (s : Str) : [sep].intercalate (s.splitOn sep) = s :=
  intercalate_splitOn sep

theorem ipv4IntFromString_eq_some (h : ipv4IntFromString s = some n)
    : ∃ ns, DottedQuad s ns ∧ n = value 256 ns := by
  unfold ipv4IntFromString at h
  split at h
  . simp at h
  . dsimp only at h
    split at h
    . simp at h
    . next hlength =>
      rw [Option.map_eq_some_iff] at h
      rcases h with ⟨ns, hns, rfl⟩
      refine ⟨ns, ?_, rfl⟩
      rw [← intercalate_parts 46 s]
      generalize s.splitOn 46 = parts at hlength hns
      rw [List.mapM_eq_some_iff_forall₂] at hns
      simp only [ne_eq, Decidable.not_not] at hlength
      match parts, hns, hlength with
      | [s₁, s₂, s₃, s₄], .cons h₁ (.cons h₂ (.cons h₃ (.cons h₄ .nil))), _ =>
        have hquad := DottedQuad.mk (parseOctet_eq_some h₁) (parseOctet_eq_some h₂)
          (parseOctet_eq_some h₃) (parseOctet_eq_some h₄)
        simpa using hquad

theorem ipv4Address_eq_some (h : ipv4Address s = some n)
    : ∃ ns, DottedQuad s ns ∧ n = value 256 ns := by
  unfold ipv4Address at h
  split at h
  . simp at h
  . exact ipv4IntFromString_eq_some h

theorem hexDigit?_hexDigit {d : Nat} (hd : d < 16)
    : hexDigit? (Str.quoteByte.hexDigit (UInt8.ofNat d)) = some d := by
  revert d
  decide

theorem hextet_hexText (hn : n < 65536) : Hextet (hexText n) n := by
  unfold hexText
  split
  . next hzero =>
    subst hzero
    exact ⟨⟨[0], .cons (by decide) .nil, by simp [value]⟩, by simp, by simp⟩
  . next hpos =>
    refine ⟨⟨(Nat.digits 16 n).reverse, ?_, ?_⟩, ?_, ?_⟩
    . unfold HexDigits
      rw [forall₂_map_left_iff, forall₂_same]
      intro d hd
      apply hexDigit?_hexDigit
      exact Nat.digits_lt_base (by decide) (mem_reverse.mp hd)
    . simp [value, Nat.ofDigits_digits]
    . simpa using Nat.digits_ne_nil_iff_ne_zero.mpr hpos
    . rw [length_map, length_reverse, Nat.digits_length_le_iff (by decide)]
      exact hn

inductive Embeds : List Str → List Str → Prop where
  | plain (parts : List Str) : Embeds parts parts
  | quad {init : List Str} {last x y : Str} {n₁ n₂ n₃ n₄ : Nat}
      (hlast : DottedQuad last [n₁, n₂, n₃, n₄]) (hx : Hextet x (n₁ * 256 + n₂))
      (hy : Hextet y (n₃ * 256 + n₄))
      : Embeds (init ++ [last]) (init ++ [x, y])

variable {ns : List Nat}

theorem dottedQuad_halves (h : DottedQuad s ns)
    : ∃ n₁ n₂ n₃ n₄, ns = [n₁, n₂, n₃, n₄] ∧ value 256 ns / 65536 % 65536 = n₁ * 256 + n₂ ∧
        value 256 ns % 65536 = n₃ * 256 + n₄ := by
  cases h with
  | @mk _ _ _ _ n₁ n₂ n₃ n₄ h₁ h₂ h₃ h₄ =>
    have hvalue : value 256 [n₁, n₂, n₃, n₄] = ((n₁ * 256 + n₂) * 256 + n₃) * 256 + n₄ := by
      simp [value, Nat.ofDigits_cons]
      ring
    have := h₁.le
    have := h₂.le
    have := h₃.le
    have := h₄.le
    refine ⟨n₁, n₂, n₃, n₄, rfl, ?_, ?_⟩
    . omega
    . omega

variable {parts parts' : List Str}

theorem embedQuad_eq_some (h : embedQuad parts = some parts') : Embeds parts parts' := by
  unfold embedQuad at h
  split at h
  . rw [← some.inj h]
    exact .plain parts
  . next last hlast =>
    split at h
    . rw [Option.map_eq_some_iff] at h
      rcases h with ⟨n, hn, rfl⟩
      rcases ipv4Address_eq_some hn with ⟨ns, hns, rfl⟩
      rcases dottedQuad_halves hns with ⟨n₁, n₂, n₃, n₄, rfl, hhi, hlo⟩
      have hx := hextet_hexText (Nat.mod_lt (value 256 [n₁, n₂, n₃, n₄] / 65536) (by decide))
      have hy := hextet_hexText (Nat.mod_lt (value 256 [n₁, n₂, n₃, n₄]) (by decide))
      have hparts : parts.dropLast ++ [last] = parts := dropLast_append_getLast? last hlast
      rw [hhi] at hx
      rw [hlo] at hy
      rw [hhi, hlo]
      have hembeds : Embeds (parts.dropLast ++ [last]) (parts.dropLast ++ [_, _]) := .quad hns hx hy
      rwa [hparts] at hembeds
    . rw [← some.inj h]
      exact .plain parts

theorem groups_of_hextets {quad : Bool} (h : List.Forall₂ Hextet parts ns) (hne : parts ≠ [])
    : Groups quad ([58].intercalate parts) ns := by
  induction h with
  | nil => exact absurd rfl hne
  | @cons s n parts ns hs hparts ih =>
    cases hparts with
    | nil =>
      rw [intercalate_singleton]
      exact .last hs
    | cons h hparts =>
      exact .cons hs (ih (by simp))

theorem groups_of_quad {init : List Str} {last x y : Str} {n₁ n₂ n₃ n₄ : Nat}
    (hns : List.Forall₂ Hextet (init ++ [x, y]) ns) (hlast : DottedQuad last [n₁, n₂, n₃, n₄])
    (hx : Hextet x (n₁ * 256 + n₂)) (hy : Hextet y (n₃ * 256 + n₄))
    : Groups true ([58].intercalate (init ++ [last])) ns := by
  induction init generalizing ns with
  | nil =>
    match ns, hns with
    | [m, n], .cons hm (.cons hn .nil) =>
      rw [hm.unique hx, hn.unique hy, nil_append, intercalate_singleton]
      exact .quad rfl hlast
  | cons s init ih =>
    rw [cons_append] at hns ⊢
    cases hns with
    | cons hs hinit =>
      cases hparts : init ++ [last] with
      | nil => simp at hparts
      | cons t rest =>
        rw [intercalate_cons_cons, append_assoc, ← hparts]
        exact .cons hs (ih hinit)

theorem Embeds.groups (h : Embeds parts parts') (hns : List.Forall₂ Hextet parts' ns) (hne : parts ≠ [])
    : Groups true ([58].intercalate parts) ns := by
  cases h with
  | plain => exact groups_of_hextets hns hne
  | quad hlast hx hy => exact groups_of_quad hns hlast hx hy

variable {hi lo : List Str}

theorem Embeds.split (h : Embeds parts (hi ++ [] :: lo)) (hlo : lo ≠ [])
    : ∃ lo', parts = hi ++ [] :: lo' ∧ Embeds lo' lo ∧ lo' ≠ [] := by
  generalize hparts : hi ++ [] :: lo = parts' at h
  cases h with
  | plain => exact ⟨lo, hparts.symm, .plain lo, hlo⟩
  | @quad init last x y n₁ n₂ n₃ n₄ hlast hx hy =>
    -- the two groups of the quad are not empty, so they come after the empty part
    have hlength : hi.length < init.length := by
      by_contra hle
      have hget := congrArg (·[hi.length]?) hparts
      simp only [getElem?_append_right (Nat.le_refl _), Nat.sub_self, getElem?_cons_zero,
        getElem?_append_right (Nat.not_lt.mp hle)] at hget
      have hcount := congrArg List.length hparts
      have := length_pos_iff.mpr hlo
      simp only [length_append, length_cons, length_nil] at hcount
      have hindex : hi.length - init.length = 0 := by omega
      rw [hindex, getElem?_cons_zero, some.injEq] at hget
      exact hx.nonempty hget.symm
    rcases append_eq_append_iff.mp hparts with ⟨mid, rfl, hmid⟩ | ⟨mid, rfl, hmid⟩
    . cases mid with
      | nil => simp at hlength
      | cons t mid =>
        rcases hmid with ⟨rfl, rfl⟩
        exact ⟨mid ++ [last], by simp, .quad hlast hx hy, by simp⟩
    . simp at hlength

theorem skipIndex_eq_some {i : Nat} (h : skipIndex parts = some (some i))
    : 1 ≤ i ∧ i + 1 < parts.length ∧ parts[i]? = some [] := by
  have hloop : ∀ (l : List Nat) (skip : Option Nat),
      l.foldlM (fun skip i => if parts[i]? = some [] then if skip.isSome then none else some (some i)
        else some skip) skip = some (some i) →
      skip = some i ∨ i ∈ l ∧ parts[i]? = some [] := by
    intro l
    induction l with
    | nil =>
      intro skip h
      exact .inl (some.inj h)
    | cons j l ih =>
      intro skip h
      rw [foldlM_cons] at h
      split at h
      . next hj =>
        split at h
        . simp at h
        . rcases ih _ h with hi | hi
          . rw [some.injEq] at hi
            subst hi
            exact .inr ⟨mem_cons_self, hj⟩
          . exact .inr ⟨mem_cons_of_mem _ hi.1, hi.2⟩
      . rcases ih _ h with hi | hi
        . exact .inl hi
        . exact .inr ⟨mem_cons_of_mem _ hi.1, hi.2⟩
  rcases hloop _ _ h with hi | ⟨hi, hempty⟩
  . simp at hi
  . rw [mem_range'_1] at hi
    exact ⟨hi.1, by omega, hempty⟩

theorem joinHextets_eq_some {skipped : Nat} (h : joinHextets hi skipped lo = some n)
    : ∃ hs ls, List.Forall₂ Hextet hi hs ∧ List.Forall₂ Hextet lo ls ∧
        n = value 65536 (hs ++ replicate skipped 0 ++ ls) := by
  unfold joinHextets at h
  simp only [bind, bind_eq_some_iff, pure, some.injEq] at h
  rcases h with ⟨hs, hhs, ls, hls, rfl⟩
  rw [List.mapM_eq_some_iff_forall₂] at hhs hls
  exact ⟨hs, ls, hhs.imp fun _ _ => parseHextet_eq_some, hls.imp fun _ _ => parseHextet_eq_some, rfl⟩

theorem intercalate_elided (hhi : hi ≠ []) (hlo : lo ≠ [])
    : [58].intercalate (hi ++ [] :: lo)
        =
      [58].intercalate hi ++ 58 :: 58 :: [58].intercalate lo := by
  have hempty : [58].intercalate ([] :: lo) = 58 :: [58].intercalate lo := by
    have hcons : [] :: lo = [([] : Str)] ++ lo := rfl
    rw [hcons, List.intercalate_append (by simp) hlo]
    rfl
  rw [List.intercalate_append hhi (by simp), hempty]
  simp

theorem coverEndpoint_eq_some {endpoint : Option Str} {parts : Nat} (hparts : parts ≠ 0)
    (h : coverEndpoint endpoint parts = some n)
    : endpoint = some [] ∧ parts = 1 ∧ n = 0 ∨ endpoint ≠ some [] ∧ n = parts := by
  unfold coverEndpoint at h
  split at h
  . next hendpoint =>
    rw [ite_none_left_eq_some, some.injEq] at h
    exact .inl ⟨hendpoint, by omega, by omega⟩
  . next hendpoint => exact .inr ⟨hendpoint, (some.inj h).symm⟩

theorem coverEndpoint_le {endpoint : Option Str} {parts : Nat}
    (h : coverEndpoint endpoint parts = some n)
    : n ≤ parts := by
  unfold coverEndpoint at h
  split at h
  . rw [ite_none_left_eq_some, some.injEq] at h
    omega
  . rw [some.injEq] at h
    omega

theorem optGroups_above (hhi : hi ≠ []) {partsHi : Nat}
    (hparts : coverEndpoint hi.head? hi.length = some partsHi) {hs : List Nat}
    (hhs : List.Forall₂ Hextet (hi.take partsHi) hs)
    : OptGroups false ([58].intercalate hi) hs ∧ hs.length = partsHi := by
  rcases coverEndpoint_eq_some (by simpa using hhi) hparts with ⟨hhead, hlength, rfl⟩ | ⟨_, rfl⟩
  . rcases length_eq_one_iff.mp hlength with ⟨s, rfl⟩
    simp only [head?_cons, some.injEq] at hhead
    subst hhead
    cases hhs with
    | nil => exact ⟨.inl ⟨rfl, rfl⟩, rfl⟩
  . rw [take_length] at hhs
    exact ⟨.inr (groups_of_hextets hhs hhi), hhs.length_eq.symm⟩

theorem Embeds.eq_of_singleton (h : Embeds parts [s]) : parts = [s] := by
  generalize hsingle : [s] = single at h
  cases h with
  | plain => rfl
  | quad =>
    have := congrArg List.length hsingle
    simp at this

theorem optGroups_below {lo' : List Str} (hembeds : Embeds lo' lo) (hlo : lo ≠ []) (hlo' : lo' ≠ [])
    {partsLo : Nat} (hparts : coverEndpoint lo.getLast? lo.length = some partsLo) {ls : List Nat}
    (hls : List.Forall₂ Hextet (lo.drop (lo.length - partsLo)) ls)
    : OptGroups true ([58].intercalate lo') ls ∧ ls.length = partsLo := by
  rcases coverEndpoint_eq_some (by simpa using hlo) hparts with ⟨hlast, hlength, rfl⟩ | ⟨_, rfl⟩
  . rcases length_eq_one_iff.mp hlength with ⟨s, rfl⟩
    simp only [getLast?_singleton, some.injEq] at hlast
    subst hlast
    rw [hembeds.eq_of_singleton]
    cases hls with
    | nil => exact ⟨.inl ⟨rfl, rfl⟩, rfl⟩
  . rw [Nat.sub_self, drop_zero] at hls
    exact ⟨.inr (hembeds.groups hls hlo'), hls.length_eq.symm⟩

theorem ipv6IntFromParts_eq_some (h : ipv6IntFromParts parts' = some n) (hembeds : Embeds parts parts')
    (hne : parts ≠ [])
    : IPv6 ([58].intercalate parts) n := by
  unfold ipv6IntFromParts at h
  simp only [bind, bind_eq_some_iff] at h
  rcases h with ⟨skip, hskip, h⟩
  cases skip with
  | none =>
    rw [ite_none_left_eq_some] at h
    rcases h with ⟨hlength, h⟩
    rw [ite_none_left_eq_some] at h
    rcases h with ⟨_, h⟩
    rw [ite_none_left_eq_some] at h
    rcases joinHextets_eq_some h.2 with ⟨hs, ls, hhs, hls, rfl⟩
    cases hls with
    | nil =>
      rw [replicate_zero, append_nil, append_nil]
      apply IPv6.full (hembeds.groups hhs hne)
      rw [← hhs.length_eq]
      simpa using hlength
  | some skip =>
    simp only [bind_eq_some_iff] at h
    rcases h with ⟨_, hpartsHi, partsLo, hpartsLo, h⟩
    rw [ite_none_left_eq_some] at h
    rcases h with ⟨hskipped, h⟩
    rcases joinHextets_eq_some h with ⟨hs, ls, hhs, hls, rfl⟩
    rcases skipIndex_eq_some hskip with ⟨hpos, hlt, hempty⟩
    -- the parts are those above the empty one, the empty one, and those below it
    have hsplit : ∃ hi lo, parts' = hi ++ [] :: lo ∧ hi.length = skip := by
      rcases List.getElem?_eq_some_iff.mp hempty with ⟨hlt', hget⟩
      refine ⟨parts'.take skip, parts'.drop (skip + 1), ?_, by simp; omega⟩
      rw [← hget, getElem_cons_drop, take_append_drop]
    rcases hsplit with ⟨hi, lo, rfl, rfl⟩
    have hhi : hi ≠ [] := by
      rintro rfl
      simp at hpos
    have hlo : lo ≠ [] := by
      rintro rfl
      simp at hlt
    rcases hembeds.split hlo with ⟨lo', rfl, hembeds, hlo'⟩
    have hbelow : (hi ++ [] :: lo).length - hi.length - 1 = lo.length := by
      simp
    rw [head?_append_of_ne_nil _ hhi] at hpartsHi
    rw [getLast?_append_of_ne_nil _ (by simp), getLast?_cons_of_ne_nil hlo, hbelow]
      at hpartsLo
    have hleHi := coverEndpoint_le hpartsHi
    have hleLo := coverEndpoint_le hpartsLo
    have hdrop : (hi ++ [] :: lo).length - partsLo = hi.length + (lo.length - partsLo + 1) := by
      omega
    rw [take_append_of_le_length hleHi] at hhs
    rw [hdrop, drop_length_add_append, drop_succ_cons] at hls
    rcases optGroups_above hhi hpartsHi hhs with ⟨habove, rfl⟩
    rcases optGroups_below hembeds hlo hlo' hpartsLo hls with ⟨hbelow, rfl⟩
    rw [intercalate_elided hhi hlo']
    exact .elided habove hbelow (by omega)

theorem ipv6IntFromString_eq_some (h : ipv6IntFromString s = some n) : IPv6 s n := by
  unfold ipv6IntFromString at h
  rw [ite_none_left_eq_some] at h
  rw [ite_none_left_eq_some] at h
  rcases h with ⟨_, _, h⟩
  simp only [bind, bind_eq_some_iff] at h
  rcases h with ⟨_, hparts, h⟩
  rw [ite_none_left_eq_some] at h
  rw [← intercalate_parts 58 s]
  exact ipv6IntFromParts_eq_some h.2 (embedQuad_eq_some hparts) (splitOn_ne_nil 58 s)

end ModelGateway.Ipaddress
