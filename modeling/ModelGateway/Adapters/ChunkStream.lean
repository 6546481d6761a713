import ModelGateway.Core.Basic
import ModelGateway.Lib.Runes

namespace ModelGateway.Adapters

def isSpace (c : Char) : Bool :=
  let n := c.toNat
  (9 ≤ n && n ≤ 13) || n == 32 || n == 0x85 || n == 0xA0 || n == 0x1680 ||
    (0x2000 ≤ n && n ≤ 0x200A) || n == 0x2028 || n == 0x2029 || n == 0x202F || n == 0x205F ||
    n == 0x3000

def trimSpace (s : Str) : Str :=
  let blank := fun r : Rune => isSpace r.char
  ((((Rune.read s).dropWhile blank).reverse.dropWhile blank).reverse).flatMap Rune.raw

structure Chunk where
  body : Str
  usage : TokenUsage
  final : Bool
  deriving DecidableEq

def Chunk.zero : Chunk :=
  ⟨[], .zero, false⟩

inductive StreamErr where
  | eof
  | failed (err : GoError)
  deriving DecidableEq

structure Stream where
  lines : List Str
  readErr : Option GoError
  finished : Bool
  usage : TokenUsage

namespace Stream

def ssePrefix : Str := str "data: "

def sseDone : Str := str "[DONE]"

section

/-
The usage a payload reports, zero if it reports none.
-/
variable (usageFrom : Str → TokenUsage)

def scan (s : Stream) : List Str → (Chunk × Option StreamErr) × Stream
  | [] =>
    let err :=
      match s.readErr with
      | some cause => .wrap .upstreamError (str "reading the provider stream") false cause
      | none => .ofCode .upstreamError (str "provider stream ended without a terminator")
    ((.zero, some (.failed err)), { s with lines := [] })
  | line :: lines =>
    let line := trimSpace line
    -- Blank lines separate events, comments begin with a colon, and other fields are not payload.
    if line = [] || (str ":").isPrefixOf line then
      scan s lines
    else if !ssePrefix.isPrefixOf line then
      scan s lines
    else
      let payload := line.drop ssePrefix.length
      if payload = sseDone then
        ((⟨[], s.usage, true⟩, none), { s with lines := lines, finished := true })
      else
        let u := usageFrom payload
        let usage := if u.input ≠ 0 ∨ u.output ≠ 0 then u else s.usage
        ((⟨payload, .zero, false⟩, none), { s with lines := lines, usage := usage })

def next (ctxErr : Option GoError) (s : Stream) : (Chunk × Option StreamErr) × Stream :=
  match ctxErr with
  | some err => ((.zero, some (.failed err)), s)
  | none => if s.finished then ((.zero, some .eof), s) else scan usageFrom s s.lines

def results (ctxErr : Nat → Option GoError) : Nat → Stream → List (Chunk × Option StreamErr)
  | 0, _ => []
  | fuel + 1, s =>
    let (result, s) := next usageFrom (ctxErr fuel) s
    if result.2.isSome then [result] else result :: results ctxErr fuel s

def received (ctxErr : Nat → Option GoError) (s : Stream) : List (Chunk × Option StreamErr) :=
  results usageFrom ctxErr (s.lines.length + 2) s

variable {usageFrom}

theorem scan_cases (s : Stream) (lines : List Str)
    : (scan usageFrom s lines).1.2.isSome = true ∨ (scan usageFrom s lines).2.finished = true ∨
        (scan usageFrom s lines).2.lines.length < lines.length := by
  induction lines with
  | nil => exact .inl rfl
  | cons line lines ih =>
    have hmono : (scan usageFrom s lines).1.2.isSome = true ∨
        (scan usageFrom s lines).2.finished = true ∨
        (scan usageFrom s lines).2.lines.length < (line :: lines).length := by
      rcases ih with h | h | h
      . exact .inl h
      . exact .inr (.inl h)
      . exact .inr (.inr (Nat.lt_succ_of_lt h))
    unfold scan
    dsimp only
    split
    . exact hmono
    . split
      . exact hmono
      . split
        . exact .inr (.inl rfl)
        . exact .inr (.inr (Nat.lt_succ_self _))

theorem results_ends (ctxErr : Nat → Option GoError) {fuel : Nat} {s : Stream}
    (h : (if s.finished then 1 else s.lines.length + 2) ≤ fuel)
    : ∃ front chunk err, results usageFrom ctxErr fuel s = front ++ [(chunk, some err)] ∧
        ∀ result ∈ front, result.2 = none := by
  induction fuel generalizing s with
  | zero => split at h <;> omega
  | succ fuel ih =>
    unfold results
    dsimp only
    cases herr : (next usageFrom (ctxErr fuel) s).1.2 with
    | some err =>
      refine ⟨[], (next usageFrom (ctxErr fuel) s).1.1, err, ?_, by simp⟩
      rw [Option.isSome_some, if_pos rfl, ← herr]
      rfl
    | none =>
      have hnext : (if (next usageFrom (ctxErr fuel) s).2.finished then 1
          else (next usageFrom (ctxErr fuel) s).2.lines.length + 2) ≤ fuel := by
        unfold next at herr ⊢
        cases hctx : ctxErr fuel with
        | some err => simp [hctx] at herr
        | none =>
          rw [hctx] at herr
          dsimp only at herr ⊢
          cases hfinished : s.finished with
          | true => simp [hfinished] at herr
          | false =>
            rw [hfinished] at h herr
            simp only [Bool.false_eq_true, if_false] at h herr ⊢
            have := @scan_cases usageFrom s s.lines
            rw [herr] at this
            split
            . omega
            . next hnot =>
              rcases this with h | h | h
              . simp at h
              . contradiction
              . omega
      rcases ih hnext with ⟨front, chunk, err, heq, hfront⟩
      refine ⟨(next usageFrom (ctxErr fuel) s).1 :: front, chunk, err, ?_, ?_⟩
      . rw [Option.isSome_none, if_neg (by simp), heq]
        rfl
      . rw [List.forall_mem_cons]
        exact ⟨herr, hfront⟩

theorem received_ends (ctxErr : Nat → Option GoError) (s : Stream)
    : ∃ front chunk err, received usageFrom ctxErr s = front ++ [(chunk, some err)] ∧
        ∀ result ∈ front, result.2 = none := by
  apply results_ends
  split <;> omega

end

end Stream

end ModelGateway.Adapters
