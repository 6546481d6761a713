import Mathlib.Logic.Function.Basic
import ModelGateway.Lib.Channel

/-!
This module contains the emitter of usage events: a bounded queue, the worker that batches it, and its close.
-/

namespace ModelGateway.Telemetry

open List Function

structure Config where
  bufferSize : Nat
  batchSize : Nat
  sinks : Nat
  bufferSize_pos : 0 < bufferSize
  batchSize_pos : 0 < batchSize
  sinks_pos : 0 < sinks

def Config.last (cfg : Config) : Nat :=
  cfg.sinks - 1

theorem Config.le_last {cfg : Config} {sink : Nat} (h : sink < cfg.sinks) : sink ≤ cfg.last :=
  Nat.le_sub_one_of_lt h

inductive Emit (α : Type) where
  | waiting (events : List α)
  | next (rest : List α)
  | trying (event : α) (rest : List α)
  | evicting (event : α) (rest : List α)
  | evicted (event : α) (rest : List α)
  | retrying (event : α) (rest : List α)
  | losing (event : α) (rest : List α)
  | returned

namespace Emit

variable {α : Type}

def InProgress : Emit α → Prop
  | .waiting _ | .returned => False
  | _ => True

def pending : Emit α → Nat
  | .waiting _ | .next _ | .returned => 0
  | .evicted _ _ => 2
  | .trying _ _ | .evicting _ _ | .retrying _ _ | .losing _ _ => 1

def unsent : Emit α → List α
  | .waiting events => events
  | .next rest | .losing _ rest => rest
  | .trying event rest | .evicting event rest | .evicted event rest | .retrying event rest => event :: rest
  | .returned => []

theorem pending_of_not_inProgress {task : Emit α} (h : ¬ task.InProgress) : task.pending = 0 := by
  cases task with
  | waiting _ | returned => rfl
  | next _ | trying _ _ | evicting _ _ | evicted _ _ | retrying _ _ | losing _ _ => exact absurd trivial h

end Emit

inductive Worker where
  | selecting (draining : Bool)
  | writing (sink : Nat) (draining returning : Bool)
  | exited

namespace Worker

def reached : Worker → Nat
  | .writing sink _ _ => sink
  | .selecting _ | .exited => 0

def stopping : Worker → Bool
  | .selecting draining => draining
  | .writing _ draining returning => draining || returning
  | .exited => true

end Worker

inductive Close where
  | waiting
  | closing
  | returned

@[ext]
structure State (ι κ α : Type) where
  buffer : Channel α
  received : Nat
  dropped : Nat
  failed : Nat
  batch : List α
  written : Nat → List α
  worker : Worker
  stopped : Bool
  emits : ι → Emit α
  closes : κ → Close

inductive Event (ι κ : Type) where
  | emit (i : ι)
  | receive
  | tick
  | stop
  | drained
  | write (fails : Bool)
  | close (j : κ)
  | closed (j : κ)

namespace State

variable {ι κ α : Type} (cfg : Config)

def start (calls : ι → List α) : State ι κ α where
  buffer := .make cfg.bufferSize
  received := 0
  dropped := 0
  failed := 0
  batch := []
  written := fun _ => []
  worker := .selecting false
  stopped := false
  emits := fun i => .waiting (calls i)
  closes := fun _ => .waiting

variable (s : State ι κ α)

def goto [DecidableEq ι] (i : ι) (task : Emit α) : State ι κ α :=
  { s with emits := update s.emits i task }

def stepEmit [DecidableEq ι] (i : ι) : Option (State ι κ α) :=
  match s.emits i with
  | .waiting events => some (s.goto i (.next events))
  | .next [] => some (s.goto i .returned)
  | .next (event :: rest) => some { s.goto i (.trying event rest) with received := s.received + 1 }
  | .trying event rest =>
    match s.buffer.send event with
    | .queued buffer => some { s.goto i (.next rest) with buffer := buffer }
    | .full => some (s.goto i (.evicting event rest))
    | .panics => none
  | .evicting event rest =>
    match s.buffer.receive with
    | some (_, buffer) => some { s.goto i (.evicted event rest) with buffer := buffer }
    | none => some (s.goto i (.retrying event rest))
  | .evicted event rest => some { s.goto i (.retrying event rest) with dropped := s.dropped + 1 }
  | .retrying event rest =>
    match s.buffer.send event with
    | .queued buffer => some { s.goto i (.next rest) with buffer := buffer }
    | .full => some (s.goto i (.losing event rest))
    | .panics => none
  | .losing _ rest => some { s.goto i (.next rest) with dropped := s.dropped + 1 }
  | .returned => none

def flushing (draining returning : Bool) : Worker :=
  if s.batch = [] then
    if returning then .exited else .selecting draining
  else
    .writing 0 draining returning

def appended (draining : Bool) : Worker :=
  if cfg.batchSize ≤ s.batch.length + 1 then .writing 0 draining false else .selecting draining

def stepReceive : Option (State ι κ α) :=
  match s.worker, s.buffer.receive with
  | .selecting draining, some (event, buffer) =>
    some { s with buffer := buffer, batch := s.batch ++ [event], worker := s.appended cfg draining }
  | _, _ => none

def stepWrite (fails : Bool) : Option (State ι κ α) :=
  match s.worker with
  | .writing sink draining returning =>
    let written := update s.written sink (s.written sink ++ s.batch)
    let failed := if fails then s.failed + s.batch.length else s.failed
    if sink + 1 < cfg.sinks then
      some { s with written := written, failed := failed, worker := .writing (sink + 1) draining returning }
    else
      some { s with
        written := written
        failed := failed
        batch := []
        worker := if returning then .exited else .selecting draining }
  | _ => none

def step [DecidableEq ι] [DecidableEq κ] (cfg : Config) (s : State ι κ α) : Event ι κ → Option (State ι κ α)
  | .emit i => s.stepEmit i
  | .receive => s.stepReceive cfg
  | .tick =>
    match s.worker with
    | .selecting false => some { s with worker := s.flushing false false }
    | _ => none
  | .stop =>
    match s.worker with
    | .selecting false => if s.stopped then some { s with worker := .selecting true } else none
    | _ => none
  | .drained =>
    match s.worker, s.buffer.receive with
    | .selecting true, none => some { s with worker := s.flushing true true }
    | _, _ => none
  | .write fails => s.stepWrite cfg fails
  | .close j =>
    match s.closes j with
    | .waiting => some { s with stopped := true, closes := update s.closes j .closing }
    | _ => none
  | .closed j =>
    match s.closes j, s.worker with
    | .closing, .exited => some { s with closes := update s.closes j .returned }
    | _, _ => none

def unwritten (sink : Nat) : List α :=
  if sink < s.worker.reached then [] else s.batch

def flow : List α :=
  s.written cfg.last ++ s.batch ++ s.buffer.items

def Quiet : Prop :=
  ∀ i, ¬ (s.emits i).InProgress

end State

open State

section

variable {ι κ α : Type} {cfg : Config} {s s' : State ι κ α}

structure Emits [DecidableEq ι] [DecidableEq α] (s s' : State ι κ α) (i : ι) (task : Emit α) : Prop where
  emits : s'.emits = update s.emits i task
  batch : s'.batch = s.batch
  written : s'.written = s.written
  worker : s'.worker = s.worker
  stopped : s'.stopped = s.stopped
  closes : s'.closes = s.closes
  counts :
    s'.received + s.dropped + s.buffer.items.length + (s.emits i).pending
      =
    s.received + s'.dropped + s'.buffer.items.length + task.pending
  events : ∀ a,
    s'.buffer.items.count a + task.unsent.count a ≤ s.buffer.items.count a + (s.emits i).unsent.count a

theorem emits_goto [DecidableEq ι] [DecidableEq α] {i : ι} {old task : Emit α} {buffer : Channel α}
    {received dropped : Nat} (htask : s.emits i = old) (hcounts :
      received + s.dropped + s.buffer.items.length + old.pending
        =
      s.received + dropped + buffer.items.length + task.pending)
    (hevents : ∀ a, buffer.items.count a + task.unsent.count a ≤ s.buffer.items.count a + old.unsent.count a)
    : Emits s { s.goto i task with buffer := buffer, received := received, dropped := dropped } i task := by
  subst htask
  exact ⟨rfl, rfl, rfl, rfl, rfl, rfl, hcounts, hevents⟩

theorem emits_send [DecidableEq ι] [DecidableEq α] {i : ι} {old : Emit α} {event : α} {rest : List α}
    {buffer : Channel α}
    (htask : s.emits i = old) (hpending : old.pending = 1) (hunsent : old.unsent = event :: rest)
    (hsend : s.buffer.send event = .queued buffer)
    : Emits s { s.goto i (.next rest) with buffer := buffer } i (.next rest) := by
  have hitems := (Channel.send_eq_queued hsend).1
  apply emits_goto htask
  . rw [hpending, hitems, length_append, length_singleton]
    simp only [Emit.pending, goto]
    omega
  . intro a
    rw [hunsent, hitems, count_append, count_singleton, count_cons]
    change _ + rest.count a ≤ _
    omega

theorem stepEmit_emits [DecidableEq ι] [DecidableEq α] {i : ι} (h : s.stepEmit i = some s')
    : ∃ task, Emits s s' i task := by
  unfold stepEmit at h
  cases htask : s.emits i with
  | waiting events =>
    rw [htask] at h
    cases h
    exact ⟨.next events, emits_goto htask rfl fun _ => Nat.le_refl _⟩
  | next rest =>
    rw [htask] at h
    cases rest with
    | nil =>
      cases h
      exact ⟨.returned, emits_goto htask rfl fun _ => Nat.le_refl _⟩
    | cons event rest =>
      cases h
      refine ⟨.trying event rest, emits_goto htask ?_ fun _ => Nat.le_refl _⟩
      simp only [Emit.pending, goto]
      omega
  | trying event rest =>
    rw [htask] at h
    dsimp only at h
    cases hsend : s.buffer.send event with
    | queued buffer =>
      rw [hsend] at h
      cases h
      exact ⟨.next rest, emits_send htask rfl rfl hsend⟩
    | full =>
      rw [hsend] at h
      cases h
      exact ⟨.evicting event rest, emits_goto htask rfl fun _ => Nat.le_refl _⟩
    | panics =>
      rw [hsend] at h
      cases h
  | evicting event rest =>
    rw [htask] at h
    cases hreceive : s.buffer.receive with
    | none =>
      rw [hreceive] at h
      cases h
      exact ⟨.retrying event rest, emits_goto htask rfl fun _ => Nat.le_refl _⟩
    | some received =>
      rw [hreceive] at h
      cases h
      have hitems := (Channel.receive_eq_some hreceive).1
      refine ⟨.evicted event rest, emits_goto htask ?_ fun a => ?_⟩
      . rw [hitems, length_cons]
        simp only [Emit.pending, goto]
        omega
      . rw [hitems, count_cons]
        simp only [Emit.unsent]
        omega
  | evicted event rest =>
    rw [htask] at h
    cases h
    refine ⟨.retrying event rest, emits_goto htask ?_ fun _ => Nat.le_refl _⟩
    simp only [Emit.pending, goto]
    omega
  | retrying event rest =>
    rw [htask] at h
    dsimp only at h
    cases hsend : s.buffer.send event with
    | queued buffer =>
      rw [hsend] at h
      cases h
      exact ⟨.next rest, emits_send htask rfl rfl hsend⟩
    | full =>
      rw [hsend] at h
      cases h
      refine ⟨.losing event rest, emits_goto htask rfl fun a => ?_⟩
      apply Nat.add_le_add_left
      apply count_le_count_cons
    | panics =>
      rw [hsend] at h
      cases h
  | losing event rest =>
    rw [htask] at h
    cases h
    refine ⟨.next rest, emits_goto htask ?_ fun _ => Nat.le_refl _⟩
    simp only [Emit.pending, goto]
    omega
  | returned =>
    rw [htask] at h
    cases h

structure Works (cfg : Config) (s s' : State ι κ α) : Prop where
  received : s'.received = s.received
  dropped : s'.dropped = s.dropped
  emits : s'.emits = s.emits
  stopped : s'.stopped = s.stopped
  closes : s'.closes = s.closes
  flow : s'.flow cfg = s.flow cfg
  sinks :
    (∀ sink < cfg.sinks, s.written sink ++ s.unwritten sink = s.written cfg.last ++ s.batch)
      →
    ∀ sink < cfg.sinks, s'.written sink ++ s'.unwritten sink = s'.written cfg.last ++ s'.batch
  reached : s'.worker.reached < cfg.sinks
  stopping : s'.worker.stopping = true → s.worker.stopping = true ∨ s.stopped = true
  running : s.worker ≠ .exited

theorem unwritten_of_batch (h : s.batch = []) (sink : Nat) : s.unwritten sink = [] := by
  unfold unwritten
  rw [h, ite_self]

theorem unwritten_of_lt {sink : Nat} (h : sink < s.worker.reached) : s.unwritten sink = [] := by
  unfold unwritten
  rw [if_pos h]

theorem unwritten_of_le {sink : Nat} (h : s.worker.reached ≤ sink) : s.unwritten sink = s.batch := by
  unfold unwritten
  rw [if_neg (Nat.not_lt_of_le h)]

theorem unwritten_of_reached (h : s.worker.reached = 0) (sink : Nat) : s.unwritten sink = s.batch := by
  apply unwritten_of_le
  rw [h]
  exact Nat.zero_le _

theorem works_turn {worker : Worker} (hidle : s.worker.reached = 0) (hreached : worker.reached = 0)
    (hstopping : worker.stopping = true → s.worker.stopping = true ∨ s.stopped = true)
    (hrunning : s.worker ≠ .exited)
    : Works cfg s { s with worker := worker } where
  received := rfl
  dropped := rfl
  emits := rfl
  stopped := rfl
  closes := rfl
  flow := rfl
  sinks h sink hsink := by
    have hbefore := h sink hsink
    rw [unwritten_of_reached hidle] at hbefore
    rw [unwritten_of_reached hreached]
    exact hbefore
  reached := by
    rw [hreached]
    exact cfg.sinks_pos
  stopping := hstopping
  running := hrunning

theorem flushing_reached (draining returning : Bool) : (s.flushing draining returning).reached = 0 := by
  unfold flushing
  split
  . cases returning with
    | true => rfl
    | false => rfl
  . rfl

theorem appended_reached (draining : Bool) : (s.appended cfg draining).reached = 0 := by
  unfold appended
  split
  . rfl
  . rfl

theorem appended_stopping (draining : Bool) : (s.appended cfg draining).stopping = draining := by
  unfold appended
  split
  . exact Bool.or_false draining
  . rfl

theorem flushing_stopping (draining returning : Bool)
    (h : (s.flushing draining returning).stopping = true) : (draining || returning) = true := by
  unfold flushing at h
  split at h
  . cases returning with
    | true => exact Bool.or_true draining
    | false => exact (Bool.or_false draining).trans h
  . exact h

theorem works_flushing {draining returning : Bool} (hworker : s.worker = .selecting draining)
    (hreturning : (draining || returning) = draining)
    : Works cfg s { s with worker := s.flushing draining returning } := by
  apply works_turn
  . rw [hworker]
    rfl
  . exact flushing_reached draining returning
  . intro hstopping
    left
    rw [hworker]
    exact hreturning.symm.trans (flushing_stopping draining returning hstopping)
  . rw [hworker]
    exact Worker.noConfusion

section

variable [DecidableEq ι] [DecidableEq κ] {j : κ}

theorem step_tick (h : s.step cfg .tick = some s')
    : s.worker = .selecting false ∧ s' = { s with worker := s.flushing false false } := by
  unfold step at h
  dsimp only at h
  split at h
  . next hworker =>
    cases h
    exact ⟨hworker, rfl⟩
  . cases h

theorem step_stop (h : s.step cfg .stop = some s')
    : s.worker = .selecting false ∧ s.stopped = true ∧ s' = { s with worker := .selecting true } := by
  unfold step at h
  dsimp only at h
  split at h
  . next hworker =>
    split at h
    . next hstopped =>
      cases h
      exact ⟨hworker, hstopped, rfl⟩
    . cases h
  . cases h

theorem step_drained (h : s.step cfg .drained = some s')
    : s.worker = .selecting true ∧ s.buffer.items = [] ∧ s' = { s with worker := s.flushing true true } := by
  unfold step at h
  dsimp only at h
  split at h
  . next hworker hreceive =>
    cases h
    exact ⟨hworker, Channel.receive_eq_none_iff.1 hreceive, rfl⟩
  . cases h

theorem step_close (h : s.step cfg (.close j) = some s')
    : s.closes j = .waiting ∧ s' = { s with stopped := true, closes := update s.closes j .closing } := by
  unfold step at h
  dsimp only at h
  split at h
  . next hwaiting =>
    cases h
    exact ⟨hwaiting, rfl⟩
  . cases h

theorem step_closed (h : s.step cfg (.closed j) = some s')
    : s.closes j = .closing ∧ s.worker = .exited ∧
      s' = { s with closes := update s.closes j .returned } := by
  unfold step at h
  dsimp only at h
  split at h
  . next hclosing hexited =>
    cases h
    exact ⟨hclosing, hexited, rfl⟩
  . cases h

end

theorem stepReceive_works (h : s.stepReceive cfg = some s') : Works cfg s s' := by
  unfold stepReceive at h
  cases hworker : s.worker with
  | selecting draining =>
    cases hreceive : s.buffer.receive with
    | none =>
      rw [hworker, hreceive] at h
      cases h
    | some received =>
      rw [hworker, hreceive] at h
      cases h
      refine ⟨rfl, rfl, rfl, rfl, rfl, ?_, ?_, ?_, ?_, ?_⟩
      . simp [flow, (Channel.receive_eq_some hreceive).1]
      . intro hsinks sink hsink
        have hbefore := hsinks sink hsink
        rw [unwritten_of_reached (by rw [hworker]; rfl)] at hbefore
        rw [unwritten_of_reached (appended_reached draining), ← append_assoc, ← append_assoc]
        rw [hbefore]
      . rw [appended_reached]
        exact cfg.sinks_pos
      . intro hstopping
        rw [hworker]
        rw [appended_stopping] at hstopping
        exact Or.inl hstopping
      . rw [hworker]
        exact Worker.noConfusion
  | writing sink draining returning =>
    rw [hworker] at h
    cases h
  | exited =>
    rw [hworker] at h
    cases h

theorem stepWrite_works {fails : Bool} (hreached : s.worker.reached < cfg.sinks)
    (h : s.stepWrite cfg fails = some s') : Works cfg s s' := by
  unfold stepWrite at h
  cases hworker : s.worker with
  | selecting draining =>
    rw [hworker] at h
    cases h
  | exited =>
    rw [hworker] at h
    cases h
  | writing sink draining returning =>
    rw [hworker] at h hreached
    change sink < cfg.sinks at hreached
    dsimp only at h
    split at h
    . next hmore =>
      cases h
      have hlast : cfg.last ≠ sink := by
        unfold Config.last
        omega
      refine ⟨rfl, rfl, rfl, rfl, rfl, ?_, ?_, hmore, ?_, ?_⟩
      . simp only [flow, update_of_ne hlast]
      . intro hsinks other hother
        have hbefore := hsinks other hother
        dsimp only
        rw [update_of_ne hlast]
        rcases Nat.lt_trichotomy other sink with hlt | heq | hgt
        . rw [unwritten_of_lt (by rw [hworker]; exact hlt)] at hbefore
          rw [update_of_ne (Nat.ne_of_lt hlt), unwritten_of_lt (Nat.lt_succ_of_lt hlt)]
          exact hbefore
        . subst heq
          rw [unwritten_of_le (by rw [hworker]; exact Nat.le_refl _)] at hbefore
          rw [update_self, unwritten_of_lt (Nat.lt_succ_self _), append_nil]
          exact hbefore
        . rw [unwritten_of_le (by rw [hworker]; exact Nat.le_of_lt hgt)] at hbefore
          rw [update_of_ne (Nat.ne_of_gt hgt), unwritten_of_le (Nat.succ_le_of_lt hgt)]
          exact hbefore
      . intro hstopping
        rw [hworker]
        exact Or.inl hstopping
      . rw [hworker]
        exact Worker.noConfusion
    . next hmore =>
      cases h
      have hlast : sink = cfg.last := by
        unfold Config.last
        omega
      subst hlast
      refine ⟨rfl, rfl, rfl, rfl, rfl, ?_, ?_, ?_, ?_, ?_⟩
      . simp [flow]
      . intro hsinks other hother
        have hbefore := hsinks other hother
        rw [unwritten_of_batch (by rfl)]
        dsimp only
        rw [update_self, append_nil, append_nil]
        rcases Nat.lt_or_eq_of_le (Config.le_last hother) with hlt | heq
        . rw [unwritten_of_lt (by rw [hworker]; exact hlt), append_nil] at hbefore
          rw [update_of_ne (Nat.ne_of_lt hlt)]
          exact hbefore
        . rw [heq, update_self]
      . cases returning with
        | true => exact cfg.sinks_pos
        | false => exact cfg.sinks_pos
      . intro hstopping
        rw [hworker]
        left
        cases returning with
        | true => exact Bool.or_true draining
        | false =>
          change draining = true at hstopping
          rw [hstopping]
          rfl
      . rw [hworker]
        exact Worker.noConfusion

end

end ModelGateway.Telemetry
