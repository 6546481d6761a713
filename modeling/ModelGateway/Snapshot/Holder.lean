import ModelGateway.Core.Snapshot
import ModelGateway.Lib.TransitionSystem

namespace ModelGateway

def checkMonotonic (current next : Snapshot) : Except GoError Unit :=
  if next.globalVersion.number < current.globalVersion.number then
    .error <| .invalid (str "global layer version would move backwards, from "
      ++ Str.ofNat current.globalVersion.number ++ str " to "
      ++ Str.ofNat next.globalVersion.number)
  else
    next.tenantIDs.forM fun tenant =>
      match current.tenantVersion tenant with
      | none => .ok ()
      | some have_ =>
        let got := (next.tenantVersion tenant).getD ⟨0, []⟩
        if got.number < have_.number then
          .error <| .invalid (str "tenant " ++ tenant.quote
            ++ str " layer version would move backwards, from " ++ Str.ofNat have_.number
            ++ str " to " ++ Str.ofNat got.number)
        else
          .ok ()

inductive Acquirer where
  | idle
  | loaded (gen : Nat)
  | read (gen : Nat) (n : Int)

inductive LeasePhase where
  | held
  | releasing
  | retiring
  | released
  deriving DecidableEq

structure Lease where
  gen : Nat
  phase : LeasePhase

inductive Writer where
  | idle
  | swapLoaded (cur : Nat) (next : Snapshot)
  | swapPrevious (displaced : Option Nat) (next : Snapshot)
  | rollbackLoaded (failed : Nat)
  | rollbackStored (failed : Nat)
  | unref (gen : Nat)
  | retiring (gen : Nat)

structure Holder where
  current : Nat
  previous : Option Nat
  writer : Writer
  count : Nat
  snap : Nat → Snapshot
  refs : Nat → Int
  retireOn : Nat → Bool
  retired : Nat → Nat
  acquirers : Nat → Acquirer
  leases : List Lease

namespace Holder

def new (initial : Snapshot) : Holder where
  current := 0
  previous := none
  writer := .idle
  count := 1
  snap := fun _ => initial
  refs := fun _ => 1
  retireOn := fun _ => false
  retired := fun _ => 0
  acquirers := fun _ => .idle
  leases := []

inductive Event where
  | load (t : Nat)
  | readRefs (t : Nat)
  | compareAndSwap (t : Nat)
  | release (i : Nat)
  | releaseUnref (i : Nat)
  | releaseRetire (i : Nat)
  | swap (next : Option Snapshot)
  | swapPrevious
  | swapStore
  | rollback
  | rollbackStore
  | rollbackClear
  | writerUnref
  | writerRetire

def setAcquirer (h : Holder) (t : Nat) (a : Acquirer) : Holder :=
  { h with acquirers := Function.update h.acquirers t a }

def setLease (h : Holder) (i : Nat) (l : Lease) : Holder :=
  { h with leases := h.leases.set i l }

def setRefs (h : Holder) (g : Nat) (n : Int) : Holder :=
  { h with refs := Function.update h.refs g n }

def lease (h : Holder) (g : Nat) : Holder :=
  { h with
    refs := Function.update h.refs g (h.refs g + 1)
    leases := h.leases ++ [⟨g, .held⟩] }

def retire (h : Holder) (g : Nat) : Holder :=
  if h.retireOn g then
    h
  else
    { h with
      retireOn := Function.update h.retireOn g true
      retired := Function.update h.retired g (h.retired g + 1) }

def publish (h : Holder) (next : Snapshot) : Holder :=
  { h with
    current := h.count
    count := h.count + 1
    snap := Function.update h.snap h.count next
    refs := Function.update h.refs h.count 1
    retireOn := Function.update h.retireOn h.count false
    retired := Function.update h.retired h.count 0 }

def Writer.after (displaced : Option Nat) : Writer :=
  match displaced with
  | none => .idle
  | some g => .unref g

def step (h : Holder) : Event → Option Holder
  | .load t =>
    match h.acquirers t with
    | .idle => some (h.setAcquirer t (.loaded h.current))
    | _ => none
  | .readRefs t =>
    match h.acquirers t with
    | .loaded g =>
      -- a generation that is retired sends `Acquire` back to the load
      some (h.setAcquirer t (if h.refs g ≤ 0 then .idle else .read g (h.refs g)))
    | _ => none
  | .compareAndSwap t =>
    match h.acquirers t with
    | .read g n =>
      if h.refs g = n then
        some ((h.lease g).setAcquirer t .idle)
      else
        some (h.setAcquirer t (.loaded g))
    | _ => none
  | .release i =>
    match h.leases[i]? with
    | some ⟨g, .held⟩ => some (h.setLease i ⟨g, .releasing⟩)
    | some _ => some h
    | none => none
  | .releaseUnref i =>
    match h.leases[i]? with
    | some ⟨g, .releasing⟩ =>
      let n := h.refs g - 1
      some ((h.setRefs g n).setLease i ⟨g, if 0 < n then .released else .retiring⟩)
    | _ => none
  | .releaseRetire i =>
    match h.leases[i]? with
    | some ⟨g, .retiring⟩ => some ((h.retire g).setLease i ⟨g, .released⟩)
    | _ => none
  | .swap next =>
    match h.writer, next with
    | .idle, some next =>
      match checkMonotonic (h.snap h.current) next with
      | .ok _ => some { h with writer := .swapLoaded h.current next }
      | .error _ => some h
    | _, none => some h
    | _, _ => none
  | .swapPrevious =>
    match h.writer with
    | .swapLoaded cur next =>
      some { h with previous := some cur, writer := .swapPrevious h.previous next }
    | _ => none
  | .swapStore =>
    match h.writer with
    | .swapPrevious displaced next => some { h.publish next with writer := Writer.after displaced }
    | _ => none
  | .rollback =>
    match h.writer, h.previous with
    | .idle, some _ => some { h with writer := .rollbackLoaded h.current }
    | .idle, none => some h
    | _, _ => none
  | .rollbackStore =>
    match h.writer, h.previous with
    | .rollbackLoaded failed, some g => some { h with current := g, writer := .rollbackStored failed }
    | _, _ => none
  | .rollbackClear =>
    match h.writer with
    | .rollbackStored failed => some { h with previous := none, writer := .unref failed }
    | _ => none
  | .writerUnref =>
    match h.writer with
    | .unref g =>
      let n := h.refs g - 1
      some { h.setRefs g n with writer := if 0 < n then .idle else .retiring g }
    | _ => none
  | .writerRetire =>
    match h.writer with
    | .retiring g => some { h.retire g with writer := .idle }
    | _ => none

def Lease.unreleased (l : Lease) : Bool :=
  l.phase = .held || l.phase = .releasing

def leased (h : Holder) (g : Nat) : Nat :=
  h.leases.countP fun l => l.gen = g && Lease.unreleased l

def Writer.unrefs : Writer → Nat → Bool
  | .swapPrevious displaced _, g => displaced = some g
  | .rollbackStored failed, g => failed = g
  | .unref gen, g => gen = g
  | _, _ => false

def owned (h : Holder) (g : Nat) : Bool :=
  h.current = g || h.previous = some g || Writer.unrefs h.writer g

end Holder

end ModelGateway
