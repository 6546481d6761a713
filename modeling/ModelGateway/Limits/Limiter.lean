import ModelGateway.Core.Basic
import ModelGateway.Lib.TransitionSystem

namespace ModelGateway.Limits

structure Bucket where
  remaining : Int
  expiresAt : Int
  refreshing : Bool

namespace Bucket

def zero : Bucket := ⟨0, 0, false⟩

def take (b : Bucket) (now : Int) : Bool × Bool × Bucket :=
  -- permits of a window that has passed are not carried forward
  let b := if b.expiresAt < now then { b with remaining := 0 } else b
  if 0 < b.remaining then
    let b := { b with remaining := b.remaining - 1 }
    (true, !b.refreshing && b.remaining = 0, b)
  else
    (false, !b.refreshing, b)

def beginRefill (b : Bucket) : Bool × Bucket :=
  if b.refreshing then
    (false, b)
  else
    (true, { b with refreshing := true })

def grant (b : Bucket) (permits expiresAt : Int) : Bucket :=
  let b :=
    if 0 < permits then
      { b with remaining := b.remaining + permits, expiresAt := expiresAt }
    else
      b
  { b with refreshing := false }

end Bucket

abbrev LeaseSize := { n : Int // 0 < n }

def leaseFrom (lease : LeaseSize) (limit : Int) : Except GoError Int → Int
  | .error _ => lease
  | .ok used =>
    let overshoot := used - limit
    if lease ≤ overshoot then
      0
    else if 0 < overshoot then
      lease - overshoot
    else
      lease

inductive Phase where
  | started
  | shouldRefill (taken : Bool)
  | refilling (taken : Bool)
  | leased (taken : Bool) (granted : Int)
  | again
  | returned (admitted : Bool)

structure Caller (ω : Type*) where
  worker : ω
  phase : Phase

structure Window (ω : Type*) where
  counter : Int
  buckets : ω → Bucket
  callers : List (Caller ω)
  taken : Nat
  increments : List Int
  leases : List Int

inductive Window.Event (ω : Type*) where
  | call (w : ω)
  | take (i : Nat) (now : Int)
  | beginRefill (i : Nat)
  | incr (i : Nat)
  | grant (i : Nat) (windowEnd : Int)
  | takeAgain (i : Nat) (now : Int)

namespace Window

variable {ω : Type*} [DecidableEq ω]

def new : Window ω where
  counter := 0
  buckets := fun _ => .zero
  callers := []
  taken := 0
  increments := []
  leases := []

def setPhase (s : Window ω) (i : Nat) (w : ω) (phase : Phase) : Window ω :=
  { s with callers := s.callers.set i ⟨w, phase⟩ }

def setBucket (s : Window ω) (w : ω) (b : Bucket) : Window ω :=
  { s with buckets := Function.update s.buckets w b }

def takeFrom (s : Window ω) (w : ω) (now : Int) : Window ω :=
  { s.setBucket w ((s.buckets w).take now).2.2 with
    taken := s.taken + ((s.buckets w).take now).1.toNat }

def incr (s : Window ω) (lease : LeaseSize) (granted : Int) : Window ω :=
  { s with
    counter := s.counter + lease
    increments := s.increments ++ [lease.val]
    leases := s.leases ++ [granted] }

def step (limit : Nat) (lease : ω → LeaseSize) (s : Window ω) : Event ω → Option (Window ω)
  | .call w => some { s with callers := s.callers ++ [⟨w, .started⟩] }
  | .take i now =>
    match s.callers[i]? with
    | some ⟨w, .started⟩ =>
      let (taken, shouldRefill, _) := (s.buckets w).take now
      some ((s.takeFrom w now).setPhase i w
        (if shouldRefill then .shouldRefill taken else .returned taken))
    | _ => none
  | .beginRefill i =>
    match s.callers[i]? with
    | some ⟨w, .shouldRefill taken⟩ =>
      let (won, b) := (s.buckets w).beginRefill
      -- a caller that lost the race answers with what it has
      some ((s.setBucket w b).setPhase i w (if won then .refilling taken else .returned taken))
    | _ => none
  | .incr i =>
    match s.callers[i]? with
    | some ⟨w, .refilling taken⟩ =>
      let granted := leaseFrom (lease w) limit (.ok (s.counter + lease w))
      some ((s.incr (lease w) granted).setPhase i w (.leased taken granted))
    | _ => none
  | .grant i windowEnd =>
    match s.callers[i]? with
    | some ⟨w, .leased taken granted⟩ =>
      some ((s.setBucket w ((s.buckets w).grant granted windowEnd)).setPhase i w
        (if taken then .returned true else .again))
    | _ => none
  | .takeAgain i now =>
    match s.callers[i]? with
    | some ⟨w, .again⟩ =>
      some ((s.takeFrom w now).setPhase i w (.returned ((s.buckets w).take now).1))
    | _ => none

end Window

end ModelGateway.Limits
