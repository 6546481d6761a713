import ModelGateway.Core.Basic

namespace ModelGateway.Router

inductive BreakerState where
  | closed
  | open
  | halfOpen
  deriving DecidableEq, Repr

structure Breaker where
  failureThreshold : Nat
  cooldown : Int
  halfOpenSuccesses : Nat
  state : BreakerState
  failures : Nat
  successes : Nat
  openedAt : Int
  probeInFlight : Bool
  deriving DecidableEq, Repr

def defaultFailureThreshold : Nat := 5

def defaultCooldown : Int := 10 * second

def defaultHalfOpenSuccesses : Nat := 2

structure BreakerOptions where
  failureThreshold : Option Int
  cooldown : Option Int

namespace Breaker

def new (opts : BreakerOptions) : Breaker where
  failureThreshold :=
    match opts.failureThreshold with
    | some n => if 0 < n then n.toNat else defaultFailureThreshold
    | none => defaultFailureThreshold
  cooldown :=
    match opts.cooldown with
    | some d => if 0 < d then d else defaultCooldown
    | none => defaultCooldown
  halfOpenSuccesses := defaultHalfOpenSuccesses
  state := .closed
  failures := 0
  successes := 0
  openedAt := 0
  probeInFlight := false

def allow (b : Breaker) (now : Int) : Bool × Breaker :=
  match b.state with
  | .closed => (true, b)
  | .open =>
    if now - b.openedAt < b.cooldown then
      (false, b)
    else
      (true, { b with state := .halfOpen, successes := 0, probeInFlight := true })
  | .halfOpen =>
    if b.probeInFlight then
      (false, b)
    else
      (true, { b with probeInFlight := true })

def succeed (b : Breaker) : Breaker :=
  let b := { b with probeInFlight := false, failures := 0 }
  if b.state = .halfOpen then
    let b := { b with successes := b.successes + 1 }
    if b.halfOpenSuccesses ≤ b.successes then
      { b with state := .closed, successes := 0 }
    else
      b
  else
    b

def fail (b : Breaker) (now : Int) : Breaker :=
  let b := { b with probeInFlight := false }
  if b.state = .halfOpen then
    { b with state := .open, openedAt := now, successes := 0 }
  else
    let b := { b with failures := b.failures + 1 }
    if b.failureThreshold ≤ b.failures then
      { b with state := .open, openedAt := now, failures := 0 }
    else
      b

theorem succeed_probeInFlight (b : Breaker) : b.succeed.probeInFlight = false := by
  unfold succeed
  dsimp only
  split
  . split
    . rfl
    . rfl
  . rfl

theorem fail_probeInFlight (b : Breaker) (now : Int) : (b.fail now).probeInFlight = false := by
  unfold fail
  dsimp only
  split
  . rfl
  . split
    . rfl
    . rfl

def Probing (b : Breaker) : Prop :=
  b.state = .halfOpen ∧ b.probeInFlight = true

variable {b : Breaker}

theorem allow_of_probing (h : b.Probing) (now : Int) : b.allow now = (false, b) := by
  unfold allow
  rw [h.1]
  simp [h.2]

variable {now : Int}

theorem probing_of_allow (hstate : b.state ≠ .closed) (hallowed : (b.allow now).1 = true)
    : (b.allow now).2.Probing := by
  unfold allow at hallowed ⊢
  cases h : b.state with
  | closed => exact absurd h hstate
  | «open» =>
    simp only [h] at hallowed ⊢
    split at hallowed
    . simp at hallowed
    . next hcooled => simp [hcooled, Probing]
  | halfOpen =>
    simp only [h] at hallowed ⊢
    split at hallowed
    . simp at hallowed
    . next hfree => simp [hfree, Probing]

theorem allow_of_refused (h : (b.allow now).1 = false) : (b.allow now).2 = b := by
  unfold allow at h ⊢
  split at h
  . simp at h
  . split at h
    . next hwaiting => simp [hwaiting]
    . simp at h
  . split at h
    . next hprobing => simp [hprobing]
    . simp at h

theorem allow_of_closed (h : b.state = .closed) (now : Int) : b.allow now = (true, b) := by
  unfold allow
  rw [h]

theorem allow_of_open (h : b.state = .open) (hallowed : (b.allow now).1 = true)
    : (b.allow now).2 = { b with state := .halfOpen, successes := 0, probeInFlight := true } := by
  unfold allow at hallowed ⊢
  simp only [h] at hallowed ⊢
  split at hallowed
  . simp at hallowed
  . next hcooled => simp [hcooled]

theorem allow_of_halfOpen (h : b.state = .halfOpen) (hallowed : (b.allow now).1 = true)
    : b.probeInFlight = false ∧ (b.allow now).2 = { b with probeInFlight := true } := by
  unfold allow at hallowed ⊢
  simp only [h] at hallowed ⊢
  split at hallowed
  . simp at hallowed
  . next hfree => simp [hfree]

theorem succeed_of_not_halfOpen (h : b.state ≠ .halfOpen)
    : b.succeed = { b with probeInFlight := false, failures := 0 } := by
  unfold succeed
  simp [h]

theorem succeed_of_halfOpen (h : b.state = .halfOpen)
    : b.succeed.state = (if b.halfOpenSuccesses ≤ b.successes + 1 then .closed else .halfOpen) ∧
        (b.successes + 1 < b.halfOpenSuccesses → b.succeed.successes = b.successes + 1) := by
  unfold succeed
  simp only [h, if_true]
  split
  . next hlast =>
    refine ⟨rfl, ?_⟩
    intro hmore
    omega
  . exact ⟨rfl, fun _ => rfl⟩

theorem succeed_halfOpenSuccesses (b : Breaker) : b.succeed.halfOpenSuccesses = b.halfOpenSuccesses := by
  unfold succeed
  dsimp only
  split
  . split
    . rfl
    . rfl
  . rfl

theorem fail_state_ne (b : Breaker) (now : Int) : (b.fail now).state ≠ .halfOpen := by
  unfold fail
  dsimp only
  split
  . simp
  . next h =>
    split
    . simp
    . exact h

theorem fail_halfOpenSuccesses (b : Breaker) (now : Int)
    : (b.fail now).halfOpenSuccesses = b.halfOpenSuccesses := by
  unfold fail
  dsimp only
  split
  . rfl
  . split
    . rfl
    . rfl

end Breaker

abbrev Breakers := GoMap Str Breaker

def breakerFor (opts : BreakerOptions) (table : Breakers) (id : Str) : Breaker :=
  (table.lookup id).getD (.new opts)

theorem breakerFor_insert (opts : BreakerOptions) (breakers : Breakers) (id id' : Str) (b : Breaker)
    : breakerFor opts (breakers.insert id b) id'
        =
      if id' = id then b else breakerFor opts breakers id' := by
  unfold breakerFor
  split
  . next h =>
    rw [h, AList.lookup_insert]
    rfl
  . next h => rw [AList.lookup_insert_ne h]

end ModelGateway.Router
