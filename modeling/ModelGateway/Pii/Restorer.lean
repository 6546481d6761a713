import ModelGateway.Pii.Shapes

/-!
This module contains the restorer of a stream: placeholders are replaced although chunks cut through them.
-/

namespace ModelGateway.Pii

open List

def maxPlaceholderLen : Nat := 64

def lastIndex (s sep : Str) : Option Nat :=
  match s with
  | [] => if sep = [] then some 0 else none
  | b :: rest =>
    match lastIndex rest sep with
    | some i => some (i + 1)
    | none => if sep.isPrefixOf (b :: rest) then some 0 else none

def contains (s sep : Str) : Bool :=
  (lastIndex s sep).isSome

structure Restorer where
  replacements : Replacements
  held : Str
  misses : Nat

namespace Restorer

def new (replacements : Replacements) : Restorer :=
  ⟨replacements, [], 0⟩

def active (r : Restorer) : Bool :=
  0 < r.replacements.entries.length

def substitute (r : Restorer) (text : Str) : Str × Nat :=
  let unknown := fun span : Nat × Nat =>
    (r.replacements.lookup ((text.take span.2).drop span.1)).isNone
  (placeholderPattern.replaceAllFunc text (original r.replacements),
    (placeholderPattern.findAllIndex text).countP unknown)

def pendingTail (text : Str) : Nat :=
  let window := if text.length < maxPlaceholderLen then text.length else maxPlaceholderLen
  let tail := text.drop (text.length - window)
  -- A single trailing bracket could become an opening with the next chunk.
  let trailing := if (str "[").isSuffixOf text then 1 else 0
  match lastIndex tail placeholderOpen with
  | some start => if contains (tail.drop start) placeholderClose then trailing else window - start
  | none => trailing

def push (r : Restorer) (chunk : Str) : Str × Restorer :=
  if !r.active then
    (chunk, r)
  else
    let text := r.held ++ chunk
    let pending := pendingTail text
    if text.length ≤ pending then
      ([], { r with held := text })
    else
      let safe := text.length - pending
      let (emitted, missed) := r.substitute (text.take safe)
      (emitted, { r with held := text.drop safe, misses := r.misses + missed })

def flush (r : Restorer) : Str × Restorer :=
  if !r.active then
    ([], r)
  else if r.held = [] then
    ([], r)
  else
    let (emitted, missed) := r.substitute r.held
    (emitted, { r with held := [], misses := r.misses + missed })

def pushAll (r : Restorer) (chunks : List Str) : Str × Restorer :=
  chunks.foldl (fun (out, r) chunk => ((out ++ (r.push chunk).1), (r.push chunk).2)) ([], r)

end Restorer

section

variable {s sep : Str}

theorem lastIndex_eq_none (h : lastIndex s sep = none) (j : Nat) : ¬ sep <+: s.drop j := by
  induction s generalizing j with
  | nil =>
    unfold lastIndex at h
    split at h
    . simp at h
    . next hne => simpa using hne
  | cons b rest ih =>
    unfold lastIndex at h
    split at h
    . simp at h
    . next hnone =>
      split at h
      . simp at h
      . next hleads =>
        cases j with
        | zero => simpa using hleads
        | succ j => exact ih hnone j

theorem lastIndex_eq_some {i : Nat} (h : lastIndex s sep = some i)
    : sep <+: s.drop i ∧ ∀ j, j ≤ s.length → sep <+: s.drop j → j ≤ i := by
  induction s generalizing i with
  | nil =>
    unfold lastIndex at h
    split at h
    . next hnil =>
      simp_all
    . simp at h
  | cons b rest ih =>
    unfold lastIndex at h
    split at h
    . next i' hsome =>
      cases h
      rcases ih hsome with ⟨hstarts, hlast⟩
      refine ⟨hstarts, ?_⟩
      intro j hj hleads
      cases j with
      | zero => omega
      | succ j =>
        have := hlast j (by simpa using hj) hleads
        omega
    . next hnone =>
      split at h
      . next hleads =>
        cases h
        refine ⟨by simpa using hleads, ?_⟩
        intro j _ hstarts
        cases j with
        | zero => omega
        | succ j => exact absurd hstarts (lastIndex_eq_none hnone j)
      . simp at h

theorem pair_prefix_drop_iff {x y : UInt8} {i : Nat}
    : [x, y] <+: s.drop i ↔ s[i]? = some x ∧ s[i + 1]? = some y := by
  constructor
  . rintro ⟨rest, hrest⟩
    have h₀ := congrArg (·[0]?) hrest
    have h₁ := congrArg (·[1]?) hrest
    simp only [getElem?_drop] at h₀ h₁
    exact ⟨h₀.symm, h₁.symm⟩
  . rintro ⟨hx, hy⟩
    rcases List.getElem?_eq_some_iff.mp hx with ⟨hi, rfl⟩
    rcases List.getElem?_eq_some_iff.mp hy with ⟨hi', rfl⟩
    refine ⟨s.drop (i + 2), ?_⟩
    rw [drop_eq_getElem_cons hi, drop_eq_getElem_cons hi']
    rfl

end

namespace Shaped

variable {w : Str}

theorem length_gt (h : Shaped w) : 2 < w.length := by
  rcases h.body with ⟨body, rfl, hne, _⟩
  have := length_pos_of_ne_nil hne
  simp only [length_cons]
  omega

theorem getElem?_open (h : Shaped w) : w[0]? = some 91 ∧ w[1]? = some 91 := by
  rcases h.body with ⟨body, rfl, _⟩
  simp

theorem getElem?_ne_open (h : Shaped w) {i : Nat} (hi : 2 ≤ i) : w[i]? ≠ some 91 := by
  rcases h.body with ⟨body, rfl, _, hbody⟩
  rcases i with _ | _ | i
  . omega
  . omega
  . intro hget
    apply hbody
    apply mem_of_getElem? (i := i)
    simpa using hget

theorem getElem?_ne_close (h : Shaped w) {i : Nat} (hi : i + 2 < w.length) : w[i]? ≠ some 93 := by
  rcases h with ⟨kind, digits, _, hkind, _, hdigits, rfl⟩
  intro hget
  have hfront : [91, 91] ++ (kind ++ ([95] ++ (digits ++ [93, 93])))
      = ([91, 91] ++ (kind ++ ([95] ++ digits))) ++ [93, 93] := by
    simp
  rw [hfront] at hget hi
  rw [length_append, length_cons, length_singleton] at hi
  rw [getElem?_append_left (by omega)] at hget
  have hmem := mem_of_getElem? hget
  simp only [mem_append, mem_singleton] at hmem
  rcases hmem with hmem | hmem | hmem | hmem
  . simp at hmem
  . have := hkind _ hmem
    revert this
    decide
  . simp at hmem
  . have := hdigits _ hmem
    revert this
    decide

end Shaped

theorem getElem?_of_prefix_drop {w text : Str} {k i : Nat} (h : w <+: text.drop k)
    (hi : i < w.length)
    : text[k + i]? = w[i]? := by
  rcases h with ⟨rest, hrest⟩
  rw [← getElem?_drop, ← hrest, getElem?_append_left hi]

namespace Restorer

def Closed (text : Str) : Prop :=
  ∀ k, text.length ≤ k + maxPlaceholderLen → text[k]? = some 91 → text[k + 1]? = some 91 →
    (∀ j, k < j → text[j]? = some 91 → text[j + 1]? ≠ some 91) →
      ∃ j, k ≤ j ∧ text[j]? = some 93 ∧ text[j + 1]? = some 93

theorem isSuffixOf_bracket_iff {text : Str}
    : (str "[").isSuffixOf text = true ↔ text[text.length - 1]? = some 91 := by
  have hbracket : str "[" = [91] := by decide
  rw [hbracket, isSuffixOf_iff_suffix, ← getLast?_eq_getElem?]
  constructor
  . rintro ⟨rest, rfl⟩
    simp
  . intro h
    rcases getLast?_eq_some_iff.mp h with ⟨rest, rfl⟩
    simp

theorem pendingTail_cases (text : Str)
    : (∃ start, start ≤ text.length ∧ text.length ≤ start + maxPlaceholderLen ∧
        pendingTail text = text.length - start ∧ text[start]? = some 91 ∧
        text[start + 1]? = some 91) ∨
      (Closed text ∧ pendingTail text = 1 ∧ text[text.length - 1]? = some 91) ∨
      (Closed text ∧ pendingTail text = 0 ∧ text[text.length - 1]? ≠ some 91) := by
  have hopen : placeholderOpen = [91, 91] := by decide
  have hclose : placeholderClose = [93, 93] := by decide
  have htrailing : Closed text → pendingTail text = (if (str "[").isSuffixOf text then 1 else 0) →
      (Closed text ∧ pendingTail text = 1 ∧ text[text.length - 1]? = some 91) ∨
      (Closed text ∧ pendingTail text = 0 ∧ text[text.length - 1]? ≠ some 91) := by
    intro hclosed hpending
    rw [hpending]
    by_cases hsuffix : (str "[").isSuffixOf text = true
    . exact .inl ⟨hclosed, by simp [hsuffix], isSuffixOf_bracket_iff.mp hsuffix⟩
    . exact .inr ⟨hclosed, by simp [hsuffix], fun h => hsuffix (isSuffixOf_bracket_iff.mpr h)⟩
  generalize hwindow
    : (if text.length < maxPlaceholderLen then text.length else maxPlaceholderLen) = window
  have hle : window ≤ text.length ∧ window ≤ maxPlaceholderLen ∧
      (text.length ≤ window ∨ maxPlaceholderLen ≤ window) := by
    split at hwindow <;> omega
  have htail : ∀ i, (text.drop (text.length - window))[i]? = text[text.length - window + i]? := by
    intro i
    rw [getElem?_drop]
  cases hindex : lastIndex (text.drop (text.length - window)) placeholderOpen with
  | none =>
    right
    apply htrailing
    . intro k hk h₀ h₁
      have := lastIndex_eq_none hindex (k - (text.length - window))
      rw [hopen, pair_prefix_drop_iff, htail, htail,
        show text.length - window + (k - (text.length - window)) = k by omega,
        show text.length - window + (k - (text.length - window) + 1) = k + 1 by omega] at this
      exact absurd ⟨h₀, h₁⟩ this
    . unfold pendingTail
      dsimp only
      rw [hwindow, hindex]
  | some start =>
    rcases lastIndex_eq_some hindex with ⟨hstarts, hlast⟩
    rw [hopen, pair_prefix_drop_iff, htail, htail] at hstarts
    have hlt := (List.getElem?_eq_some_iff.mp hstarts.2).1
    cases hcontains : contains ((text.drop (text.length - window)).drop start) placeholderClose with
    | false =>
      left
      refine ⟨text.length - window + start, by omega, by omega, ?_, hstarts⟩
      unfold pendingTail
      dsimp only
      rw [hwindow, hindex]
      dsimp only
      rw [hcontains, if_neg (by simp)]
      omega
    | true =>
      right
      apply htrailing
      . intro k hk h₀ h₁ hnone
        have hklt := (List.getElem?_eq_some_iff.mp h₀).1
        have hk' : k - (text.length - window) ≤ start := by
          apply hlast
          . rw [length_drop]
            omega
          . rw [hopen, pair_prefix_drop_iff, htail, htail,
              show text.length - window + (k - (text.length - window)) = k by omega,
              show text.length - window + (k - (text.length - window) + 1) = k + 1 by omega]
            exact ⟨h₀, h₁⟩
        have hstart : text.length - window + start = k := by
          by_contra hne
          apply hnone (text.length - window + start) (by omega) hstarts.1 hstarts.2
        rcases Option.isSome_iff_exists.mp hcontains with ⟨j, hj⟩
        have hclosing := (lastIndex_eq_some hj).1
        rw [drop_drop, drop_drop, ← Nat.add_assoc, hstart, hclose, pair_prefix_drop_iff]
          at hclosing
        exact ⟨k + j, by omega, hclosing⟩
      . unfold pendingTail
        dsimp only
        rw [hwindow, hindex]
        dsimp only
        rw [if_pos hcontains]

theorem pendingTail_eq_zero {text : Str} (hclosed : Closed text)
    (hlast : text[text.length - 1]? ≠ some 91)
    : pendingTail text = 0 := by
  have hopen : placeholderOpen = [91, 91] := by decide
  have hclose : placeholderClose = [93, 93] := by decide
  have htrailing : (if (str "[").isSuffixOf text then 1 else 0) = 0 := by
    rw [if_neg]
    intro hsuffix
    exact hlast (isSuffixOf_bracket_iff.mp hsuffix)
  unfold pendingTail
  dsimp only
  generalize hwindow
    : (if text.length < maxPlaceholderLen then text.length else maxPlaceholderLen) = window
  rw [htrailing]
  split
  . next start hindex =>
    rw [if_pos]
    rcases lastIndex_eq_some hindex with ⟨hstarts, hlater⟩
    rw [hopen, drop_drop, pair_prefix_drop_iff] at hstarts
    have hnone : ∀ j, text.length - window + start < j → text[j]? = some 91 →
        text[j + 1]? ≠ some 91 := by
      intro j hj h₀ h₁
      have hlt := (List.getElem?_eq_some_iff.mp h₀).1
      have := hlater (j - (text.length - window)) (by rw [length_drop]; omega) (by
        rw [hopen, drop_drop, pair_prefix_drop_iff,
          show text.length - window + (j - (text.length - window)) = j by omega]
        exact ⟨h₀, h₁⟩)
      omega
    rcases hclosed _ (by split at hwindow <;> omega) hstarts.1 hstarts.2 hnone
      with ⟨j, hj, h₀, h₁⟩
    unfold contains
    rw [Option.isSome_iff_ne_none]
    intro hnot
    apply lastIndex_eq_none hnot (j - (text.length - window + start))
    rw [hclose, drop_drop, drop_drop, pair_prefix_drop_iff,
      show text.length - window + (start + (j - (text.length - window + start))) = j by omega]
    exact ⟨h₀, h₁⟩
  . rfl

theorem closed_of_pendingTail {text : Str} (h : pendingTail text = 0) : Closed text := by
  rcases pendingTail_cases text with ⟨_, _, _, hpending, _, h₁⟩ | ⟨_, hpending, _⟩ | ⟨hclosed, _⟩
  . have := (List.getElem?_eq_some_iff.mp h₁).1
    omega
  . omega
  . exact hclosed

theorem pendingTail_le (text : Str)
    : pendingTail text ≤ text.length ∧ pendingTail text ≤ maxPlaceholderLen := by
  rcases pendingTail_cases text with ⟨_, hle, hwindow, hpending, _⟩ | ⟨_, hpending, h⟩ |
    ⟨_, hpending, _⟩
  . omega
  . have := (List.getElem?_eq_some_iff.mp h).1
    unfold maxPlaceholderLen
    omega
  . omega

theorem not_across {text u w : Str} (hw : Shaped w) (hlength : w.length ≤ maxPlaceholderLen) {k : Nat}
    (hoccurs : w <+: (text ++ u).drop k) (hk : k < text.length - pendingTail text)
    : k + w.length ≤ text.length - pendingTail text := by
  by_contra hlt
  -- The bytes of the placeholder that lie in the text seen so far.
  have hget : ∀ i, i < w.length → k + i < text.length → text[k + i]? = w[i]? := by
    intro i hi hlt
    rw [← getElem?_of_prefix_drop hoccurs hi, getElem?_append_left hlt]
  have hget' : ∀ j, k ≤ j → j < k + w.length → j < text.length → text[j]? = w[j - k]? := by
    intro j hj hlt hlt'
    rw [← hget (j - k) (by omega) (by omega), Nat.add_sub_cancel' hj]
  have hgt := hw.length_gt
  -- An opening after the first byte is not possible within it.
  have hopening : ∀ j, k < j → j + 1 < k + w.length → text[j]? = some 91 →
      text[j + 1]? ≠ some 91 := by
    intro j hj hlt h₀ h₁
    have := (List.getElem?_eq_some_iff.mp h₁).1
    rw [hget' (j + 1) (by omega) hlt (by omega)] at h₁
    exact hw.getElem?_ne_open (by omega) h₁
  rcases pendingTail_cases text with ⟨start, hle, hwindow, hpending, h₀, h₁⟩ |
    ⟨hclosed, hpending, hbracket⟩ | ⟨hclosed, hpending, hbracket⟩
  . have hstart := (List.getElem?_eq_some_iff.mp h₁).1
    by_cases hend : start + 1 < k + w.length
    . exact hopening start (by omega) hend h₀ h₁
    . rw [hget' start (by omega) (by omega) (by omega)] at h₀
      exact hw.getElem?_ne_open (by omega) h₀
  . -- The bracket at the end is its second byte, so the opening is not closed.
    have hsecond : k + 2 = text.length := by
      by_contra hne
      rw [hget' _ (by omega) (by omega) (by omega)] at hbracket
      exact hw.getElem?_ne_open (by omega) hbracket
    have h₀ : text[k]? = some 91 := by
      rw [← hw.getElem?_open.1]
      exact hget 0 (by omega) (by omega)
    have h₁ : text[k + 1]? = some 91 := by
      rw [← hw.getElem?_open.2]
      exact hget 1 (by omega) (by omega)
    have hlater : ∀ j, k < j → text[j]? = some 91 → text[j + 1]? ≠ some 91 := by
      intro j hj _ hj₁
      have := (List.getElem?_eq_some_iff.mp hj₁).1
      omega
    rcases hclosed k (by unfold maxPlaceholderLen; omega) h₀ h₁ hlater with ⟨j, hj, hj₀, hj₁⟩
    have := (List.getElem?_eq_some_iff.mp hj₁).1
    have hjk : j = k := by omega
    subst hjk
    rw [h₀] at hj₀
    simp at hj₀
  . have h₀ : text[k]? = some 91 := by
      rw [← hw.getElem?_open.1]
      exact hget 0 (by omega) (by omega)
    have hlt' : k + 1 < text.length := by
      by_contra hge
      rw [show text.length - 1 = k by omega] at hbracket
      exact hbracket h₀
    have h₁ : text[k + 1]? = some 91 := by
      rw [← hw.getElem?_open.2]
      exact hget 1 (by omega) (by omega)
    have hlater : ∀ j, k < j → text[j]? = some 91 → text[j + 1]? ≠ some 91 := by
      intro j hj hj₀ hj₁
      have := (List.getElem?_eq_some_iff.mp hj₁).1
      exact hopening j hj (by omega) hj₀ hj₁
    rcases hclosed k (by omega) h₀ h₁ hlater with ⟨j, hj, hj₀, hj₁⟩
    have := (List.getElem?_eq_some_iff.mp hj₁).1
    rw [hget' j (by omega) (by omega) (by omega)] at hj₀
    exact hw.getElem?_ne_close (by omega) hj₀

theorem replace_cut {replacements : Replacements}
    (hkeys : ∀ key ∈ replacements, key.length ≤ maxPlaceholderLen) (text u : Str)
    : placeholders.replace (original replacements) (text ++ u)
        =
      placeholders.replace (original replacements) (text.take (text.length - pendingTail text)) ++
        placeholders.replace (original replacements)
          (text.drop (text.length - pendingTail text) ++ u) := by
  have hsplit : text.take (text.length - pendingTail text) ++
      (text.drop (text.length - pendingTail text) ++ u) = text ++ u := by
    rw [← append_assoc, take_append_drop]
  have htake : (text.take (text.length - pendingTail text)).length
      = text.length - pendingTail text := by
    rw [length_take]
    omega
  nth_rewrite 1 [← hsplit]
  apply Scanner.replace_append
  intro k hk w hw hacross
  rw [htake] at hk hacross
  rw [← drop_append_of_le_length (by omega), hsplit, placeholders_token_eq_some_iff] at hw
  unfold original
  cases hlookup : replacements.lookup w with
  | none => rfl
  | some value =>
    have hmem : w ∈ replacements := by
      rw [← AList.lookup_isSome, hlookup]
      rfl
    have := not_across hw.1 (hkeys w hmem) hw.2 hk
    omega

/-- What has come out, and what the bytes held back turn into, is everything restored. -/
structure Follows (replacements : Replacements) (seen out : Str) (r : Restorer) : Prop where
  replacements_eq : r.replacements = replacements
  held_le : r.held.length ≤ maxPlaceholderLen
  out_eq (u : Str)
    : placeholders.replace (original replacements) (seen ++ u)
        =
      out ++ placeholders.replace (original replacements) (r.held ++ u)

theorem push_follows {replacements : Replacements} (hactive : replacements.entries ≠ [])
    (hkeys : ∀ key ∈ replacements, key.length ≤ maxPlaceholderLen) {seen out : Str} {r : Restorer}
    (h : Follows replacements seen out r) (chunk : Str)
    : Follows replacements (seen ++ chunk) (out ++ (r.push chunk).1) (r.push chunk).2 := by
  have hr : (!r.active) = false := by
    simpa [active, h.replacements_eq, length_pos_iff] using hactive
  have hle := pendingTail_le (r.held ++ chunk)
  unfold push
  rw [hr, if_neg (by simp)]
  dsimp only
  split
  . refine ⟨h.replacements_eq, ?_, ?_⟩
    . dsimp only
      omega
    . intro u
      rw [append_assoc, h.out_eq, append_nil, append_assoc]
  . refine ⟨h.replacements_eq, ?_, ?_⟩
    . rw [length_drop]
      omega
    . intro u
      unfold substitute
      rw [h.replacements_eq, replaceAllFunc_placeholderPattern, append_assoc, h.out_eq,
        ← append_assoc r.held, replace_cut hkeys, ← append_assoc]

theorem pushAll_follows {replacements : Replacements} (hactive : replacements.entries ≠ [])
    (hkeys : ∀ key ∈ replacements, key.length ≤ maxPlaceholderLen) (chunks : List Str)
    : Follows replacements chunks.flatten ((new replacements).pushAll chunks).1
        ((new replacements).pushAll chunks).2 := by
  unfold pushAll
  induction chunks using reverseRecOn with
  | nil => exact ⟨rfl, by simp [new], fun u => rfl⟩
  | append_singleton chunks chunk ih =>
    rw [foldl_concat, flatten_concat]
    exact push_follows hactive hkeys ih chunk

theorem flush_of_follows {replacements : Replacements} (hactive : replacements.entries ≠ [])
    {seen out : Str} {r : Restorer} (h : Follows replacements seen out r)
    : out ++ r.flush.1 = restore seen replacements := by
  have hr : (!r.active) = false := by
    simpa [active, h.replacements_eq, length_pos_iff] using hactive
  have hout := h.out_eq []
  rw [append_nil, append_nil] at hout
  unfold flush
  rw [restore_of_ne_nil hactive, hout, hr, if_neg (by simp)]
  split
  . next hheld => simp [hheld]
  . unfold substitute
    rw [h.replacements_eq, replaceAllFunc_placeholderPattern]

theorem pushAll_inactive {replacements : Replacements} (hactive : replacements.entries = [])
    (chunks : List Str)
    : (new replacements).pushAll chunks = (chunks.flatten, new replacements) := by
  unfold pushAll
  induction chunks using reverseRecOn with
  | nil => rfl
  | append_singleton chunks chunk ih =>
    rw [foldl_concat, flatten_concat, ih]
    simp [push, active, new, hactive]

theorem restorer_restores (replacements : Replacements)
    (hkeys : ∀ key ∈ replacements, key.length ≤ maxPlaceholderLen) (chunks : List Str)
    : ((new replacements).pushAll chunks).1 ++ ((new replacements).pushAll chunks).2.flush.1
        =
      restore chunks.flatten replacements ∧
      ∀ pushed, pushed <+: chunks →
        ((new replacements).pushAll pushed).2.held.length ≤ maxPlaceholderLen := by
  by_cases hactive : replacements.entries = []
  . constructor
    . rw [pushAll_inactive hactive]
      simp [flush, active, new, hactive, restore]
    . intro pushed _
      rw [pushAll_inactive hactive]
      simp [new]
  . constructor
    . exact flush_of_follows hactive (pushAll_follows hactive hkeys chunks)
    . intro pushed _
      exact (pushAll_follows hactive hkeys pushed).held_le

def Sample.replacements : Replacements :=
  AList.singleton (str "[[EMAIL_1]]") (str "a@b.co")

def Sample.chunks : List Str :=
  [str "[[X_9]] [[[", [], str "EMA", str "IL_1]]", str "!"]

open Restorer.Sample

theorem restorer_restores_cut
    : ((new Sample.replacements).pushAll chunks).1 ++
        ((new Sample.replacements).pushAll chunks).2.flush.1 = str "[[X_9]] [a@b.co!" := by
  have hrestore : restore chunks.flatten Sample.replacements = str "[[X_9]] [a@b.co!" := by
    decide +kernel
  apply (restorer_restores Sample.replacements _ chunks).1
  decide

end Restorer

end ModelGateway.Pii
