import ModelGateway.Router.Breaker

namespace ModelGateway.Router

open Breaker

structure Probe where
  deployment : Str
  registered : Bool
  credential : Except GoError Str
  err : Option GoError

def probe (opts : BreakerOptions) (breakers : Breakers) (p : Probe) : Breakers :=
  if !p.registered then
    breakers
  else
    match p.credential, p.err with
    | .error _, _ => breakers
    | .ok _, some _ => breakers
    | .ok _, none => breakers.insert p.deployment (breakerFor opts breakers p.deployment).succeed

def Probe.succeeds (p : Probe) : Bool :=
  p.registered && p.credential.isOk && p.err.isNone

theorem breakerFor_probe (opts : BreakerOptions) (breakers : Breakers) (p : Probe) (id : Str)
    : breakerFor opts (probe opts breakers p) id
        =
      if p.succeeds && p.deployment = id then (breakerFor opts breakers id).succeed
      else breakerFor opts breakers id := by
  rcases p with ⟨deployment, registered, credential, err⟩
  cases registered with
  | false => rfl
  | true =>
    cases credential with
    | error _ => rfl
    | ok _ =>
      cases err with
      | some _ => simp [probe, Probe.succeeds]
      | none =>
        change breakerFor opts (breakers.insert deployment _) id = _
        rw [breakerFor_insert]
        by_cases h : id = deployment
        . simp [h, Probe.succeeds, Except.isOk, Except.toBool]
        . simp [h, Ne.symm h]

def recorded (probes : List Probe) (id : Str) : Nat :=
  probes.countP fun p => p.succeeds && p.deployment = id

theorem breakerFor_probes (opts : BreakerOptions) (breakers : Breakers) (probes : List Probe) (id : Str)
    : breakerFor opts (probes.foldl (probe opts) breakers) id
        =
      Breaker.succeed^[recorded probes id] (breakerFor opts breakers id) := by
  induction probes generalizing breakers with
  | nil => rfl
  | cons p probes ih =>
    rw [List.foldl_cons, ih, breakerFor_probe]
    unfold recorded
    rw [List.countP_cons]
    split
    . rfl
    . rfl

namespace Breaker

theorem iterate_succeed_state {b : Breaker} (h : b.state ≠ .halfOpen) (n : Nat)
    : (succeed^[n] b).state = b.state := by
  induction n generalizing b with
  | zero => rfl
  | succ n ih =>
    rw [Function.iterate_succ_apply, succeed_of_not_halfOpen h]
    exact ih h

theorem iterate_succeed_closed {b : Breaker} (h : b.state = .halfOpen) {n : Nat} (hpos : 0 < n)
    (hn : b.halfOpenSuccesses ≤ b.successes + n)
    : (succeed^[n] b).state = .closed := by
  induction n generalizing b with
  | zero => omega
  | succ n ih =>
    rw [Function.iterate_succ_apply]
    rcases succeed_of_halfOpen h with ⟨hstate, hsuccesses⟩
    split at hstate
    . rw [iterate_succeed_state (by simp [hstate]), hstate]
    . next hmore =>
      apply ih hstate
      . omega
      . rw [succeed_halfOpenSuccesses, hsuccesses (by omega)]
        omega

end Breaker

theorem probes_close_iff (opts : BreakerOptions) (breakers : Breakers) (probes : List Probe) (id : Str)
    (hpos : 0 < (breakerFor opts breakers id).halfOpenSuccesses)
    (hprobes : (breakerFor opts breakers id).halfOpenSuccesses ≤ recorded probes id)
    : (breakerFor opts (probes.foldl (probe opts) breakers) id).state = .closed
        ↔
      (breakerFor opts breakers id).state ≠ .open := by
  rw [breakerFor_probes]
  cases h : (breakerFor opts breakers id).state with
  | closed => simp [iterate_succeed_state, h]
  | «open» => simp [iterate_succeed_state, h]
  | halfOpen =>
    simp only [ne_eq, reduceCtorEq, not_false_eq_true, iff_true]
    apply iterate_succeed_closed h
    . omega
    . omega

namespace Sample

def options : BreakerOptions := ⟨some 1, none⟩

def failed : Breakers := AList.insert (str "d") ((Breaker.new options).fail 0) ∅

def admitted : Breakers :=
  failed.insert (str "d") ((breakerFor options failed (str "d")).allow (10 * second)).2

def probes : List Probe := List.replicate 2 ⟨str "d", true, .ok (str "key"), none⟩

end Sample

open Sample in
theorem probes_close_after_request
    : (breakerFor options (probes.foldl (probe options) admitted) (str "d")).state = .closed :=
  (probes_close_iff options admitted probes (str "d") (by decide +kernel) (by decide +kernel)).mpr
    (by decide +kernel)

open Sample in
theorem probes_leave_open
    : ((breakerFor options failed (str "d")).allow (10 * second)).1 = true ∧
      (breakerFor options failed (str "d")).halfOpenSuccesses ≤ recorded probes (str "d") ∧
      (breakerFor options (probes.foldl (probe options) failed) (str "d")).state ≠ .closed := by
  decide +kernel

end ModelGateway.Router
