import ModelGateway.Pii.Pieces
import ModelGateway.Pii.Shapes

namespace ModelGateway.Pii

open List

variable {hmac : Str → Str → Str} {pepper payload : Str}

section

theorem replaced_mem_piecesFrom {counters : GoMap Str Nat} {last : Nat} {ms : List Match} {m : Match}
    {issued : Str}
    (h : Piece.replaced m issued ∈ piecesFrom hmac pepper payload .tokenize counters last ms)
    : m ∈ ms ∧ ∃ n, (counters.lookup m.kind).getD 0 < n ∧ issued = placeholder m.kind n := by
  induction ms generalizing counters last with
  | nil => simp [piecesFrom] at h
  | cons m' ms ih =>
    rw [piecesFrom_cons] at h
    simp only [mem_cons, Piece.replaced.injEq, reduceCtorEq, false_or] at h
    rcases h with ⟨rfl, rfl⟩ | h
    . exact ⟨by simp, _, Nat.lt_succ_self _, rfl⟩
    . rcases ih h with ⟨hm, n, hlt, hissued⟩
      refine ⟨by simp [hm], n, ?_, hissued⟩
      dsimp only [standIn] at hlt
      by_cases hkind : m.kind = m'.kind
      . rw [hkind, AList.lookup_insert] at hlt
        rw [hkind]
        dsimp only [Option.getD_some] at hlt
        omega
      . rw [AList.lookup_insert_ne hkind] at hlt
        exact hlt

theorem foldl_tokenize_lookup {st : TransformState} (h : Numbered st) (ms : List Match)
    {w value : Str}
    : (ms.foldl (transformStep hmac pepper payload .tokenize) st).replacements.lookup w = some value
        ↔
      (∃ m, Piece.replaced m w ∈ piecesFrom hmac pepper payload .tokenize st.counters st.last ms ∧
        m.value = value) ∨ st.replacements.lookup w = some value := by
  induction ms generalizing st with
  | nil => simp [piecesFrom]
  | cons m ms ih =>
    have hfresh := h.fresh m.kind
    have hnext := (transformStep_tokenize hmac pepper payload h m).1
    rcases @transformStep_eq hmac pepper payload .tokenize st m with ⟨_, hcounters, hlast⟩
    have hreplacements : (transformStep hmac pepper payload .tokenize st m).replacements
        = st.replacements.insert (standIn hmac pepper .tokenize st.counters m).1 m.value := by
      simp [transformStep, transformStep.numbered, standIn]
    rw [foldl_cons, ih hnext, hcounters, hlast, hreplacements, piecesFrom_cons]
    by_cases hw : w = (standIn hmac pepper .tokenize st.counters m).1
    . -- Placeholders issued later carry a higher number.
      have hlater : ∀ m', Piece.replaced m' w ∉ piecesFrom hmac pepper payload .tokenize
          (standIn hmac pepper .tokenize st.counters m).2 m.finish ms := by
        intro m' hm'
        rcases (replaced_mem_piecesFrom hm').2 with ⟨n, hlt, hissued⟩
        rw [hw] at hissued
        rcases placeholder_inj hissued with ⟨hkind, hn⟩
        dsimp only [standIn] at hlt
        rw [← hkind, AList.lookup_insert, Option.getD_some] at hlt
        omega
      have hnone : st.replacements.lookup w = none := by
        rw [hw]
        exact AList.lookup_eq_none.mpr hfresh
      rw [hnone, hw, AList.lookup_insert]
      rw [hw] at hlater
      simp [hlater]
    . simp [hw]

theorem tokenize_lookup (ms : List Match) {w value : Str}
    : (transformMatches hmac pepper payload ms .tokenize).replacements.lookup w = some value
        ↔
      ∃ m, Piece.replaced m w ∈ pieces hmac pepper payload .tokenize ms ∧ m.value = value := by
  unfold transformMatches pieces
  split
  . next h => simp at h
  . split
    . next hnil =>
      subst hnil
      simp [piecesFrom]
    . have hempty : Numbered ⟨[], ∅, ∅, 0⟩ := by simp [Numbered]
      rw [foldl_tokenize_lookup hempty]
      simp

theorem original_eq_iff {replacements : Replacements} {w : Str}
    : original replacements w = w ↔ ∀ value, replacements.lookup w = some value → w = value := by
  unfold original
  cases replacements.lookup w with
  | none => simp
  | some value =>
    simp [eq_comm]

end

def Restorable (kind : Str) : Prop :=
  kind ≠ [] ∧ ∀ b ∈ kind, isKindByte b = true

theorem shaped_placeholder {kind : Str} (h : Restorable kind) (n : Nat)
    : Shaped (placeholder kind n) := by
  have hopen : placeholderOpen = [91, 91] := by decide
  have hclose : placeholderClose = [93, 93] := by decide
  have hunderscore : str "_" = [95] := by decide
  refine ⟨kind, Str.ofNat n, h.1, h.2, ?_, ?_, ?_⟩
  . rw [Str.ofNat_eq]
    have hdigits := Nat.toDigits_ne_nil (b := 10) (n := n)
    cases hn : Nat.toDigits 10 n with
    | nil => simp [hn] at hdigits
    | cons c cs =>
      rw [flatMap_cons]
      have := String.length_utf8EncodeChar c
      have := c.utf8Size_pos
      intro hnil
      have := congrArg List.length hnil
      simp only [length_append, length_nil] at this
      omega
  . intro b hb
    have := Str.isDigit_of_mem_ofNat hb
    simpa [isDigit] using this
  . unfold placeholder
    rw [hopen, hclose, hunderscore]
    simp

def Piece.source (payload : Str) : Piece → Str
  | .copied start finish => (payload.take finish).drop start
  | .replaced m _ => m.value

variable {counters : GoMap Str Nat} {ms : List Match}

theorem source_piecesFrom {strategy : Strategy} {last : Nat} (h : Ordered payload last ms)
    : (piecesFrom hmac pepper payload strategy counters last ms).flatMap (·.source payload)
        =
      payload.drop last := by
  induction ms generalizing counters last with
  | nil => simp [piecesFrom, Piece.source]
  | cons m ms ih =>
    rcases h with ⟨hlast, hm, h⟩
    rw [piecesFrom_cons, flatMap_cons, flatMap_cons, ih h]
    dsimp only [Piece.source]
    have hvalue : m.value ++ payload.drop m.finish = payload.drop m.start := by
      rw [hm.value_eq, ← drop_append_of_le_length, take_append_drop]
      rw [length_take]
      have := hm.ordered
      have := hm.within
      omega
    rw [hvalue, ← drop_append_of_le_length, take_append_drop]
    rw [length_take]
    have := hm.ordered
    have := hm.within
    omega

theorem replace_piecesFrom {f : Str → Str} {last : Nat} (hkinds : ∀ m ∈ ms, Restorable m.kind)
    : placeholders.replace f
        ((piecesFrom hmac pepper payload .tokenize counters last ms).flatMap (·.text payload))
        =
      (piecesFrom hmac pepper payload .tokenize counters last ms).flatMap fun
        | .copied start finish => placeholders.replace f ((payload.take finish).drop start)
        | .replaced _ issued => f issued := by
  induction ms generalizing counters last with
  | nil => simp [piecesFrom, Piece.text]
  | cons m ms ih =>
    have htoken : placeholders.token (standIn hmac pepper .tokenize counters m).1
        = some (standIn hmac pepper .tokenize counters m).1 := by
      rw [placeholders_token_eq_some_iff]
      exact ⟨shaped_placeholder (hkinds m (by simp)) _, prefix_rfl⟩
    rw [piecesFrom_cons]
    simp only [flatMap_cons]
    rw [← ih (fun x hx => hkinds x (by simp [hx]))]
    dsimp only [Piece.text]
    rw [Scanner.replace_append_token htoken]

section

variable (hmac : Str → Str → Str) (pepper payload : Str)

def RoundTrips (ms : List Match) : Prop :=
  let result := transformMatches hmac pepper payload ms .tokenize
  restore result.payload result.replacements = payload ∧
    ∀ start finish, Piece.copied start finish ∈ pieces hmac pepper payload .tokenize ms →
      ∀ k w, Shaped w → w <+: ((payload.take finish).drop start).drop k →
        original result.replacements w = w

def Unmistakable (ms : List Match) : Prop :=
  ∀ start finish, Piece.copied start finish ∈ pieces hmac pepper payload .tokenize ms →
    ∀ m issued, Piece.replaced m issued ∈ pieces hmac pepper payload .tokenize ms →
      issued <:+: (payload.take finish).drop start → issued = m.value

end

theorem restore_pieces (hms : Ordered payload 0 ms) (hkinds : ∀ m ∈ ms, Restorable m.kind)
    (hcopied : ∀ start finish, Piece.copied start finish ∈ pieces hmac pepper payload .tokenize ms →
      ∀ k w, placeholders.token (((payload.take finish).drop start).drop k) = some w →
        original (transformMatches hmac pepper payload ms .tokenize).replacements w = w)
    : restore (transformMatches hmac pepper payload ms .tokenize).payload
        (transformMatches hmac pepper payload ms .tokenize).replacements = payload := by
  cases ms with
  | nil => simp [transformMatches, restore]
  | cons m ms =>
    have hactive : (transformMatches hmac pepper payload (m :: ms) .tokenize).replacements.entries
        ≠ [] := by
      intro hnil
      have hlength := @transformMatches_tokenize_keys_length hmac pepper payload (m :: ms)
      unfold AList.keys at hlength
      rw [hnil] at hlength
      simp at hlength
    rw [restore_of_ne_nil hactive, transformMatches_payload (by simp)]
    unfold pieces
    rw [replace_piecesFrom hkinds]
    calc
      _ = (pieces hmac pepper payload .tokenize (m :: ms)).flatMap (·.source payload) := by
        apply flatMap_congr
        intro piece hpiece
        cases piece with
        | copied start finish => exact Scanner.replace_eq_self (hcopied start finish hpiece)
        | replaced m' issued =>
          have hlookup := (tokenize_lookup (m :: ms)).mpr ⟨m', hpiece, rfl⟩
          simp only [original, hlookup, Piece.source]
      _ = payload := source_piecesFrom hms

theorem round_trips_iff (answers : List (Except GoError (List Match)))
    (hfound : ∀ found, .ok found ∈ answers → ∀ m ∈ found, m.Locates payload)
    (hkinds : ∀ m ∈ (detectAll answers).1, Restorable m.kind)
    : RoundTrips hmac pepper payload (detectAll answers).1
        ↔
      Unmistakable hmac pepper payload (detectAll answers).1 := by
  have hms : Ordered payload 0 (detectAll answers).1 := by
    apply withoutOverlaps_ordered
    intro m hm
    rcases mem_flatMap.mp hm with ⟨answer, hanswer, hm⟩
    cases answer with
    | error err => simp [detectAll.found] at hm
    | ok found => exact hfound found hanswer m hm
  generalize (detectAll answers).1 = ms at hms hkinds
  constructor
  . rintro ⟨_, hkept⟩ start finish hcopied m issued hissued ⟨before, _, happears⟩
    have hshaped : Shaped issued := by
      rcases replaced_mem_piecesFrom hissued with ⟨hm, n, _, rfl⟩
      exact shaped_placeholder (hkinds m hm) n
    have hsame := hkept start finish hcopied before.length issued hshaped (by
      rw [← happears, append_assoc, drop_left]
      exact prefix_append _ _)
    exact original_eq_iff.mp hsame m.value ((tokenize_lookup ms).mpr ⟨m, hissued, rfl⟩)
  . intro hunmistakable
    have hkept : ∀ start finish,
        Piece.copied start finish ∈ pieces hmac pepper payload .tokenize ms →
        ∀ k w, w <+: ((payload.take finish).drop start).drop k →
          original (transformMatches hmac pepper payload ms .tokenize).replacements w = w := by
      intro start finish hcopied k w hw
      apply original_eq_iff.mpr
      intro value hvalue
      rcases (tokenize_lookup ms).mp hvalue with ⟨m, hissued, rfl⟩
      apply hunmistakable start finish hcopied m w hissued
      exact hw.isInfix.trans (drop_suffix _ _).isInfix
    refine ⟨restore_pieces hms hkinds ?_, ?_⟩
    . intro start finish hcopied k w hw
      exact hkept start finish hcopied k w (placeholders_token_eq_some_iff.mp hw).2
    . intro start finish hcopied k w _ hw
      exact hkept start finish hcopied k w hw

namespace Sample

def digest (_ _ : Str) : Str := str "0123456789abcdef"

def greeting : Str := str "hi a@b.co"

def quoting : Str := str "[[EMAIL_1]] a@b.co"

end Sample

open Sample

theorem round_trips_greeting
    : RoundTrips digest [] greeting (detectAll [.ok (detect greeting)]).1 := by
  have hdetect : detect greeting = [⟨str "EMAIL", 3, 9, str "a@b.co"⟩] := by decide
  have hall : (detectAll [.ok (detect greeting)]).1
      = [⟨str "EMAIL", 3, 9, str "a@b.co"⟩] := by decide
  apply (round_trips_iff [.ok (detect greeting)] _ _).mpr
  . rw [hall]
    intro start finish hcopied m issued hissued happears
    simp only [pieces, piecesFrom, standIn, mem_cons, not_mem_nil, or_false, reduceCtorEq,
      false_or, Piece.copied.injEq, Piece.replaced.injEq] at hcopied hissued
    rcases hissued with ⟨rfl, rfl⟩
    rcases hcopied with ⟨rfl, rfl⟩ | ⟨rfl, rfl⟩
    . revert happears
      decide +kernel
    . revert happears
      decide +kernel
  . intro found hfound m hm
    rw [hdetect, mem_singleton, Except.ok.injEq] at hfound
    subst hfound
    rw [mem_singleton] at hm
    subst hm
    exact ⟨by decide, by decide, by decide⟩
  . rw [hall]
    intro m hm
    rw [mem_singleton] at hm
    subst hm
    exact ⟨by decide, by decide +kernel⟩

theorem quoted_placeholder_replaced
    : ¬ RoundTrips digest [] quoting (detectAll [.ok (detect quoting)]).1 := by
  intro h
  have hrestored : restore
      (transformMatches digest [] quoting
        (detectAll [.ok (detect quoting)]).1 .tokenize).payload
      (transformMatches digest [] quoting
        (detectAll [.ok (detect quoting)]).1 .tokenize).replacements = str "a@b.co a@b.co" := by
    decide +kernel
  have hsame := hrestored.symm.trans h.1
  revert hsame
  decide

end ModelGateway.Pii
