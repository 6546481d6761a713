import ModelGateway.Lib.Insertion
import ModelGateway.Lib.Intervals
import ModelGateway.Pii.Placeholders

namespace ModelGateway.Pii

open List

inductive Piece where
  | copied (start finish : Nat)
  | replaced (m : Match) (standIn : Str)

def Piece.text (payload : Str) : Piece → Str
  | .copied start finish => (payload.take finish).drop start
  | .replaced _ standIn => standIn

section

variable (hmac : Str → Str → Str) (pepper payload : Str) (strategy : Strategy)

def standIn (counters : GoMap Str Nat) (m : Match) : Str × GoMap Str Nat :=
  match strategy with
  | .hash => (hashValue hmac pepper m, counters)
  | .none => (m.value, counters)
  | .redact | .tokenize =>
    let n := (counters.lookup m.kind).getD 0 + 1
    (placeholder m.kind n, counters.insert m.kind n)

def piecesFrom (counters : GoMap Str Nat) (last : Nat) : List Match → List Piece
  | [] => [.copied last payload.length]
  | m :: ms =>
    let (issued, counters) := standIn hmac pepper strategy counters m
    .copied last m.start :: .replaced m issued :: piecesFrom counters m.finish ms

def pieces (ms : List Match) : List Piece :=
  piecesFrom hmac pepper payload strategy ∅ 0 ms

end

section

variable {hmac : Str → Str → Str} {pepper payload : Str} {strategy : Strategy}

theorem piecesFrom_cons (counters : GoMap Str Nat) (last : Nat) (m : Match) (ms : List Match)
    : piecesFrom hmac pepper payload strategy counters last (m :: ms)
        =
      .copied last m.start :: .replaced m (standIn hmac pepper strategy counters m).1 ::
        piecesFrom hmac pepper payload strategy (standIn hmac pepper strategy counters m).2 m.finish
          ms :=
  rfl

theorem transformStep_eq (st : TransformState) (m : Match)
    : (transformStep hmac pepper payload strategy st m).out
        =
      st.out ++ (payload.take m.start).drop st.last ++
        (standIn hmac pepper strategy st.counters m).1 ∧
      (transformStep hmac pepper payload strategy st m).counters
        =
      (standIn hmac pepper strategy st.counters m).2 ∧
      (transformStep hmac pepper payload strategy st m).last = m.finish := by
  cases strategy <;> simp [transformStep, transformStep.numbered, standIn]

theorem foldl_transformStep_out (st : TransformState) (ms : List Match)
    : (ms.foldl (transformStep hmac pepper payload strategy) st).out ++
        payload.drop (ms.foldl (transformStep hmac pepper payload strategy) st).last = st.out ++
        (piecesFrom hmac pepper payload strategy st.counters st.last ms).flatMap (·.text payload)
      := by
  induction ms generalizing st with
  | nil => simp [piecesFrom, Piece.text]
  | cons m ms ih =>
    rcases @transformStep_eq hmac pepper payload strategy st m with ⟨hout, hcounters, hlast⟩
    rw [foldl_cons, ih, hout, hcounters, hlast, piecesFrom_cons]
    simp [Piece.text]

theorem transformMatches_payload (hstrategy : strategy ≠ .none) (ms : List Match)
    : (transformMatches hmac pepper payload ms strategy).payload
        =
      (pieces hmac pepper payload strategy ms).flatMap (·.text payload) := by
  unfold transformMatches
  rw [if_neg hstrategy]
  split
  . next hnil =>
    subst hnil
    simp [pieces, piecesFrom, Piece.text]
  . dsimp only
    rw [foldl_transformStep_out]
    rfl

end

structure Match.Locates (payload : Str) (m : Match) : Prop where
  ordered : m.start ≤ m.finish
  within : m.finish ≤ payload.length
  value_eq : m.value = (payload.take m.finish).drop m.start

def Ordered (payload : Str) : Nat → List Match → Prop
  | last, [] => last ≤ payload.length
  | last, m :: ms => last ≤ m.start ∧ m.Locates payload ∧ Ordered payload m.finish ms

variable {ms : List Match}

theorem insertByStart_eq (m : Match) (ms : List Match)
    : insertByStart m ms = ms.orderedInsert (fun a b => a.start < b.start) m := by
  induction ms with
  | nil => rfl
  | cons x xs ih =>
    unfold insertByStart
    rw [orderedInsert_cons, ih]

@[simp]
theorem mem_sortByStart {x : Match} : x ∈ sortByStart ms ↔ x ∈ ms := by
  unfold sortByStart
  simp only [insertByStart_eq]
  exact Insertion.perm_foldl.mem_iff

theorem pairwise_sortByStart {Q : Match → Match → Prop} {ms : List Match}
    (h : ms.Pairwise (fun a b => a.start = b.start → Q a b))
    : (sortByStart ms).Pairwise (fun a b => a.start < b.start ∨ a.start = b.start ∧ Q a b) := by
  unfold sortByStart
  simp only [insertByStart_eq]
  apply Insertion.pairwise_foldl
  . exact fun _ _ => .inl
  . intro a b c hab hbc
    exact .inl (by omega)
  . apply h.imp
    intro a b hQ hle
    by_cases heq : a.start = b.start
    . exact .inr ⟨heq, hQ heq⟩
    . exact .inl (by omega)

theorem keep_eq_select (ms : List Match) (last : Option Nat)
    : withoutOverlaps.keep ms last = Intervals.select Match.start Match.finish ms last := by
  induction ms generalizing last with
  | nil => rfl
  | cons m ms ih =>
    unfold withoutOverlaps.keep Intervals.select
    rw [ih, ih]

theorem withoutOverlaps_eq_select (ms : List Match)
    : withoutOverlaps ms = Intervals.select Match.start Match.finish (sortByStart ms) none := by
  unfold withoutOverlaps
  split
  . next hlength =>
    rcases ms with _ | ⟨m, _ | ⟨m', ms⟩⟩
    . rfl
    . rfl
    . simp at hlength
  . rw [keep_eq_select]

theorem keep_ordered {payload : Str} (h : ∀ m ∈ ms, m.Locates payload) {last : Option Nat}
    (hlast : last.getD 0 ≤ payload.length)
    : Ordered payload (last.getD 0) (withoutOverlaps.keep ms last) := by
  induction ms generalizing last with
  | nil => exact hlast
  | cons m ms ih =>
    have hm := h m (by simp)
    have hms : ∀ m ∈ ms, m.Locates payload := fun x hx => h x (by simp [hx])
    unfold withoutOverlaps.keep
    split
    . exact ih hms hlast
    . next hskip =>
      refine ⟨?_, hm, @ih hms (some m.finish) hm.within⟩
      cases last with
      | none => simp
      | some last => simpa using hskip

theorem withoutOverlaps_ordered {payload : Str} (h : ∀ m ∈ ms, m.Locates payload)
    : Ordered payload 0 (withoutOverlaps ms) := by
  unfold withoutOverlaps
  split
  . next hlength =>
    rcases ms with _ | ⟨m, _ | ⟨m', ms⟩⟩
    . apply Nat.zero_le
    . have hm := h m (by simp)
      exact ⟨Nat.zero_le _, hm, hm.within⟩
    . simp at hlength
  . apply @keep_ordered _ _ _ none (Nat.zero_le _)
    intro m hm
    apply h m (mem_sortByStart.mp hm)

end ModelGateway.Pii
