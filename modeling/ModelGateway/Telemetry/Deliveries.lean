import ModelGateway.Lib.Totals
import ModelGateway.Lib.TransitionSystem
import ModelGateway.Telemetry.Emitter

namespace ModelGateway.Telemetry

open Function List
open State

section

variable {ι κ α : Type} {cfg : Config} {s s' : State ι κ α}

structure Sound [Fintype ι] [DecidableEq α] (cfg : Config) (calls : ι → List α) (s : State ι κ α) : Prop where
  counts : s.received = s.dropped + (s.flow cfg).length + ∑ i, (s.emits i).pending
  events : ∀ a, (s.flow cfg).count a + ∑ i, (s.emits i).unsent.count a ≤ ∑ i, (calls i).count a
  sinks : ∀ sink < cfg.sinks, s.written sink ++ s.unwritten sink = s.written cfg.last ++ s.batch
  reached : s.worker.reached < cfg.sinks
  stopped : s.worker.stopping = true → s.stopped = true
  begun : s.stopped = true → ∃ j, s.closes j ≠ .waiting
  closes : ∀ j, s.closes j = .returned → s.worker = .exited

section

variable [Fintype ι] [DecidableEq α] {calls : ι → List α}

theorem sound_start (calls : ι → List α) : Sound cfg calls (start cfg calls : State ι κ α) where
  counts := by
    change 0 = 0 + 0 + ∑ i, (Emit.waiting (calls i)).pending
    simp [Emit.pending]
  events a := by
    change 0 + ∑ i, (calls i).count a ≤ _
    omega
  sinks _ _ := rfl
  reached := cfg.sinks_pos
  stopped h := by cases h
  begun h := by cases h
  closes j h := by cases h

variable (hs : Sound cfg calls s)

include hs

theorem Sound.emits [DecidableEq ι] {i : ι} {task : Emit α} (h : Emits s s' i task)
    : Sound cfg calls s' where
  counts := by
    have hsum := Totals.sum_update_add s.emits Emit.pending i task
    have hbefore := hs.counts
    have hmoved := h.counts
    simp only [flow, length_append] at hbefore ⊢
    rw [h.emits, h.batch, h.written]
    omega
  events a := by
    have hsum := Totals.sum_update_add s.emits (fun task => task.unsent.count a) i task
    have hbefore := hs.events a
    have hmoved := h.events a
    simp only [flow, count_append] at hbefore ⊢
    rw [h.emits, h.batch, h.written]
    omega
  sinks := by
    unfold unwritten
    rw [h.batch, h.written, h.worker]
    exact hs.sinks
  reached := by
    rw [h.worker]
    exact hs.reached
  stopped := by
    rw [h.worker, h.stopped]
    exact hs.stopped
  begun := by
    rw [h.stopped, h.closes]
    exact hs.begun
  closes := by
    rw [h.worker, h.closes]
    exact hs.closes

theorem Sound.works (h : Works cfg s s') : Sound cfg calls s' where
  counts := by
    rw [h.received, h.dropped, h.flow, h.emits]
    exact hs.counts
  events := by
    rw [h.flow, h.emits]
    exact hs.events
  sinks := h.sinks hs.sinks
  reached := h.reached
  stopped hstopping := by
    rw [h.stopped]
    rcases h.stopping hstopping with hbefore | hstopped
    . exact hs.stopped hbefore
    . exact hstopped
  begun := by
    rw [h.stopped, h.closes]
    exact hs.begun
  closes j hreturned := by
    rw [h.closes] at hreturned
    exact absurd (hs.closes j hreturned) h.running

theorem Sound.close [DecidableEq κ] {j : κ}
    : Sound cfg calls { s with stopped := true, closes := update s.closes j .closing } where
  counts := hs.counts
  events := hs.events
  sinks := hs.sinks
  reached := hs.reached
  stopped _ := rfl
  begun _ := by
    refine ⟨j, ?_⟩
    dsimp only
    rw [update_self]
    exact Close.noConfusion
  closes j' hreturned := by
    dsimp only at *
    by_cases hsame : j' = j
    . rw [hsame, update_self] at hreturned
      cases hreturned
    . rw [update_of_ne hsame] at hreturned
      exact hs.closes j' hreturned

theorem Sound.closed [DecidableEq κ] {j : κ} (hexited : s.worker = .exited)
    : Sound cfg calls { s with closes := update s.closes j .returned } where
  counts := hs.counts
  events := hs.events
  sinks := hs.sinks
  reached := hs.reached
  stopped := hs.stopped
  begun _ := by
    refine ⟨j, ?_⟩
    dsimp only
    rw [update_self]
    exact Close.noConfusion
  closes _ _ := hexited

theorem Sound.step [DecidableEq ι] [DecidableEq κ] {event : Event ι κ}
    (h : s.step cfg event = some s') : Sound cfg calls s' := by
  cases event with
  | emit i =>
    rcases stepEmit_emits h with ⟨task, hemits⟩
    exact hs.emits hemits
  | receive => exact hs.works (stepReceive_works h)
  | tick =>
    rcases step_tick h with ⟨hworker, rfl⟩
    exact hs.works (works_flushing hworker rfl)
  | stop =>
    rcases step_stop h with ⟨hworker, hstopped, rfl⟩
    apply hs.works
    apply works_turn
    . rw [hworker]
      rfl
    . rfl
    . exact fun _ => Or.inr hstopped
    . rw [hworker]
      exact Worker.noConfusion
  | drained =>
    rcases step_drained h with ⟨hworker, _, rfl⟩
    exact hs.works (works_flushing hworker (Bool.or_true true))
  | write fails => exact hs.works (stepWrite_works hs.reached h)
  | close j =>
    rcases step_close h with ⟨_, rfl⟩
    exact hs.close
  | closed j =>
    rcases step_closed h with ⟨_, hexited, rfl⟩
    exact hs.closed hexited

theorem Sound.run [DecidableEq ι] [DecidableEq κ]
    (h : TransitionSystem.Reaches (State.step cfg) s s') : Sound cfg calls s' :=
  h.invariant (Sound cfg calls) (fun _ _ _ hs hstep => hs.step hstep) hs

end

structure Draining (s : State ι κ α) : Prop where
  quiet : s.Quiet
  returning : ∀ sink draining, s.worker = .writing sink draining true → s.buffer.items = []
  exited : s.worker = .exited → s.buffer.items = [] ∧ s.batch = []

theorem draining_of_running (hquiet : s.Quiet) (h : s.worker.stopping = false) : Draining s where
  quiet := hquiet
  returning _ draining hworker := by
    rw [hworker] at h
    cases (Bool.or_true draining).symm.trans h
  exited hworker := by
    rw [hworker] at h
    cases h

theorem draining_flushing (hs : s.Quiet) (draining returning : Bool)
    (hitems : returning = true → s.buffer.items = [])
    : Draining { s with worker := s.flushing draining returning } := by
  refine ⟨hs, ?_, ?_⟩
  . intro sink draining' hworker
    unfold flushing at hworker
    cases returning with
    | true => exact hitems rfl
    | false =>
      split at hworker
      . cases hworker
      . cases hworker
  . intro hworker
    unfold flushing at hworker
    split at hworker
    . next hbatch =>
      cases returning with
      | true => exact ⟨hitems rfl, hbatch⟩
      | false => cases hworker
    . cases hworker

theorem Draining.receive (hs : Draining s) (h : s.stepReceive cfg = some s') : Draining s' := by
  unfold stepReceive at h
  split at h
  . next draining event buffer _ _ =>
    cases h
    refine ⟨hs.quiet, ?_, ?_⟩
    . intro sink draining' hworker
      unfold appended at hworker
      split at hworker
      . cases hworker
      . cases hworker
    . intro hworker
      unfold appended at hworker
      split at hworker
      . cases hworker
      . cases hworker
  . cases h

theorem Draining.write {fails : Bool} (hs : Draining s) (h : s.stepWrite cfg fails = some s') : Draining s' := by
  unfold stepWrite at h
  split at h
  . next sink draining returning hworker =>
    dsimp only at h
    split at h
    . cases h
      refine ⟨hs.quiet, ?_, ?_⟩
      . intro sink' draining' hwriting
        cases hwriting
        exact hs.returning sink draining hworker
      . intro hexited
        cases hexited
    . cases h
      cases returning with
      | true =>
        refine ⟨hs.quiet, ?_, ?_⟩
        . intro sink' draining' hwriting
          cases hwriting
        . intro _
          exact ⟨hs.returning sink draining hworker, rfl⟩
      | false =>
        refine ⟨hs.quiet, ?_, ?_⟩
        . intro sink' draining' hwriting
          cases hwriting
        . intro hexited
          cases hexited
  . cases h

theorem Draining.step [DecidableEq ι] [DecidableEq κ] {event : Event ι κ} (hs : Draining s)
    (hemit : ∀ i, event ≠ .emit i) (h : s.step cfg event = some s') : Draining s' := by
  cases event with
  | emit i => exact absurd rfl (hemit i)
  | receive => exact hs.receive h
  | tick =>
    rcases step_tick h with ⟨_, rfl⟩
    apply draining_flushing hs.quiet
    intro hreturning
    cases hreturning
  | stop =>
    rcases step_stop h with ⟨_, _, rfl⟩
    refine ⟨hs.quiet, ?_, ?_⟩
    . intro sink draining hworker
      cases hworker
    . intro hworker
      cases hworker
  | drained =>
    rcases step_drained h with ⟨_, hitems, rfl⟩
    exact draining_flushing hs.quiet true true fun _ => hitems
  | write fails => exact hs.write h
  | close j =>
    rcases step_close h with ⟨_, rfl⟩
    exact ⟨hs.quiet, hs.returning, hs.exited⟩
  | closed j =>
    rcases step_closed h with ⟨_, _, rfl⟩
    exact ⟨hs.quiet, hs.returning, hs.exited⟩

theorem Draining.run [DecidableEq ι] [DecidableEq κ] {events : List (Event ι κ)} (hs : Draining s)
    (hemits : ∀ i, .emit i ∉ events) (h : events.foldlM (State.step cfg) s = some s') : Draining s' := by
  induction events generalizing s with
  | nil =>
    rw [← Option.some.inj h]
    exact hs
  | cons event events ih =>
    rw [foldlM_cons, Option.bind_eq_bind, Option.bind_eq_some_iff] at h
    rcases h with ⟨mid, hstep, hrest⟩
    refine ih (hs.step (fun i hi => ?_) hstep) (fun i hi => ?_) hrest
    . exact hemits i (hi ▸ mem_cons_self)
    . exact hemits i (mem_cons_of_mem _ hi)

section

variable [Fintype ι] [DecidableEq α] {calls : ι → List α}

variable (hs : Sound cfg calls s)

include hs

theorem Sound.written_length {sink : Nat} (hsink : sink < cfg.sinks)
    : (s.written sink).length + (s.unwritten sink).length + s.buffer.items.length = (s.flow cfg).length := by
  unfold flow
  rw [← hs.sinks sink hsink]
  simp only [length_append]

theorem Sound.balance (hquiet : s.Quiet) {sink : Nat} (hsink : sink < cfg.sinks)
    : (s.received : Int) - s.dropped
        =
      (s.written sink).length + (s.unwritten sink).length + s.buffer.items.length := by
  have hcounts := hs.counts
  have hlength := hs.written_length hsink
  have hpending : ∑ i, (s.emits i).pending = 0 :=
    Finset.sum_eq_zero fun i _ => Emit.pending_of_not_inProgress (hquiet i)
  omega

theorem Sound.count_written_le {sink : Nat} (hsink : sink < cfg.sinks) (event : α)
    : (s.written sink).count event ≤ ∑ i, (calls i).count event := by
  have hevents := hs.events event
  unfold flow at hevents
  rw [← hs.sinks sink hsink] at hevents
  simp only [count_append] at hevents
  omega

theorem Sound.close_returned [DecidableEq ι] [DecidableEq κ] {closing : State ι κ α} {j : κ}
    {events : List (Event ι κ)} (hsound : Sound cfg calls s') (hquiet : s.Quiet)
    (hfirst : ∀ j', s.closes j' = .waiting) (hclose : s.step cfg (.close j) = some closing)
    (hemits : ∀ i, .emit i ∉ events) (hrun : events.foldlM (State.step cfg) closing = some s')
    (hreturned : ∃ j', s'.closes j' = .returned)
    : s'.Quiet ∧ s'.buffer.items = [] ∧ s'.batch = [] := by
  have hrunning : s.worker.stopping = false := by
    rw [← Bool.not_eq_true]
    intro hstopping
    rcases hs.begun (hs.stopped hstopping) with ⟨j', hbegun⟩
    exact hbegun (hfirst j')
  have hdraining : Draining s' := by
    refine Draining.run ?_ hemits hrun
    apply (draining_of_running hquiet hrunning).step _ hclose
    intro i hi
    cases hi
  rcases hreturned with ⟨j', hj'⟩
  exact ⟨hdraining.quiet, hdraining.exited (hsound.closes j' hj')⟩

omit hs

theorem emitter_conserves [DecidableEq ι] [DecidableEq κ] (cfg : Config) (calls : ι → List α) (s : State ι κ α)
    (h : TransitionSystem.Reaches (State.step cfg) (start cfg calls) s)
    : (s.Quiet → ∀ sink < cfg.sinks, (s.received : Int) - s.dropped
            =
          (s.written sink).length + (s.unwritten sink).length + s.buffer.items.length) ∧
      (∀ sink < cfg.sinks, ∀ event, (s.written sink).count event ≤ ∑ i, (calls i).count event) ∧
      (∀ (j : κ) (closing : State ι κ α) (events : List (Event ι κ)) (s' : State ι κ α), s.Quiet →
        (∀ j', s.closes j' = .waiting) →
        s.step cfg (.close j) = some closing →
        (∀ i, .emit i ∉ events) →
        events.foldlM (State.step cfg) closing = some s' →
        (∃ j', s'.closes j' = .returned) →
        s'.buffer.items = [] ∧ s'.batch = [] ∧
          ∀ sink < cfg.sinks, (s'.received : Int) - s'.dropped = (s'.written sink).length) := by
  have hs := (sound_start calls).run h
  refine ⟨?_, ?_, ?_⟩
  . intro hquiet sink hsink
    exact hs.balance hquiet hsink
  . intro sink hsink event
    exact hs.count_written_le hsink event
  . intro j closing events s' hquiet hfirst hclose hemits hrun hreturned
    have hsound := (hs.step hclose).run (TransitionSystem.Reaches.of_foldlM events hrun)
    rcases hs.close_returned hsound hquiet hfirst hclose hemits hrun hreturned with ⟨hquiet', hitems, hbatch⟩
    refine ⟨hitems, hbatch, ?_⟩
    intro sink hsink
    have hbalance := hsound.balance hquiet' hsink
    rw [unwritten_of_batch hbatch, hitems] at hbalance
    simpa using hbalance

def evictingRun : List (Event Bool Unit) :=
  [.emit false, .emit false, .emit true, .emit true, .emit false, .emit true, .emit true, .emit true, .emit true,
    .emit false, .emit true]

def evicted : State Bool Unit Nat where
  buffer := ⟨1, [2], false, by decide⟩
  received := 2
  dropped := 1
  failed := 0
  batch := []
  written := fun _ => []
  worker := .selecting false
  stopped := false
  emits := fun _ => .returned
  closes := fun _ => .waiting

def closingRun : List (Event Bool Unit) :=
  [.receive, .stop, .drained, .write false, .closed ()]

theorem emitter_conserves_evicting :
    let cfg : Config := ⟨1, 2, 1, by decide, by decide, by decide⟩
    let calls : Bool → List Nat := fun second => if second then [2] else [1]
    evictingRun.foldlM (State.step cfg) (start cfg calls) = some evicted ∧
      (evicted.received : Int) - evicted.dropped = 0 + 0 + evicted.buffer.items.length ∧
      (evicted.written 0).count 1 ≤ ∑ i, (calls i).count 1 ∧
      ∃ s : State Bool Unit Nat,
        (.close () :: closingRun).foldlM (State.step cfg) evicted = some s ∧
        s.buffer.items = [] ∧ s.batch = [] ∧
          ∀ sink < cfg.sinks, (s.received : Int) - s.dropped = (s.written sink).length := by
  intro cfg calls
  have hrun : evictingRun.foldlM (State.step cfg) (start cfg calls) = some evicted := by
    refine congrArg some (State.ext rfl rfl rfl rfl rfl rfl rfl rfl ?_ rfl)
    funext second
    cases second with
    | true => rfl
    | false => rfl
  have hquiet : evicted.Quiet := fun _ => False.elim
  have hconserves := emitter_conserves cfg calls evicted (TransitionSystem.Reaches.of_foldlM evictingRun hrun)
  refine ⟨hrun, hconserves.1 hquiet 0 cfg.sinks_pos, hconserves.2.1 0 cfg.sinks_pos 1, _, rfl, ?_⟩
  refine hconserves.2.2 () _ closingRun _ hquiet (fun _ => rfl) rfl ?_ rfl ⟨(), rfl⟩
  intro second hmem
  simp [closingRun] at hmem

end

end

end ModelGateway.Telemetry
