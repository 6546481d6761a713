import ModelGateway.Gateway.Pipeline
import ModelGateway.Lib.Channel
import ModelGateway.Lib.Runs
import ModelGateway.Lib.Totals

/-!
This module contains the mirror's goroutines: senders, workers and the call that closes the queue, in every
interleaving.
-/

namespace ModelGateway.Shadow

open List Function

structure Capacity where
  workers : Nat
  queue : Nat
  workers_pos : 0 < workers
  queue_pos : 0 < queue

structure Call where
  draw : Nat → ℚ
  snap : Snapshot
  served : Deployment
  request : Request

def Call.offers (call : Call) : List Job :=
  if call.served.key.isAdapter then
    []
  else
    ((call.snap.shadows call.served.key.baseModel).zipIdx.filter fun a => sampled (call.draw a.2) a.1).map
      fun a => ⟨a.1, call.request⟩

inductive Sending where
  | offering (jobs : List Job)
  | dropping (rest : List Job)
  | returned
  | panicked (jobs : List Job)
  deriving DecidableEq

namespace Sending

def isPanicked : Sending → Bool
  | .panicked _ => true
  | .offering _ | .dropping _ | .returned => false

def finished : Sending → Bool
  | .returned | .panicked _ => true
  | .offering _ | .dropping _ => false

def left : Sending → Nat
  | .offering jobs | .panicked jobs => jobs.length
  | .dropping rest => rest.length + 1
  | .returned => 0

def steps : Sending → Nat
  | .offering jobs => 2 * jobs.length + 1
  | .dropping rest => 2 * rest.length + 2
  | .returned | .panicked _ => 0

theorem left_eq_zero {sending : Sending} (hfinished : sending.finished = true)
    (hpanicked : sending.isPanicked = false) : sending.left = 0 := by
  cases sending with
  | offering _ | dropping _ => cases hfinished
  | returned => rfl
  | panicked _ => cases hpanicked

end Sending

inductive Working where
  | idle
  | running (job : Job)
  | exited

namespace Working

def isExited : Working → Bool
  | .exited => true
  | .idle | .running _ => false

def load : Working → Nat
  | .running _ => 1
  | .idle | .exited => 0

theorem load_eq_zero {working : Working} (h : working.isExited = true) : working.load = 0 := by
  cases working with
  | idle | running _ => cases h
  | exited => rfl

end Working

inductive Waiting where
  | waiting
  | closed
  | returned
  deriving DecidableEq

structure State (ι ω κ : Type) where
  queue : Channel Job
  mirrored : Nat
  dropped : Nat
  failed : Nat
  sends : ι → Sending
  workers : ω → Working
  waits : κ → Waiting

inductive Event (ι ω κ : Type) where
  | send (i : ι)
  | work (w : ω) (fails : Bool)
  | wait (j : κ)

namespace State

variable {ι ω κ : Type}

def start (capacity : Capacity) (calls : ι → Call) : State ι (Fin capacity.workers) κ where
  queue := .make capacity.queue
  mirrored := 0
  dropped := 0
  failed := 0
  sends := fun i => .offering (calls i).offers
  workers := fun _ => .idle
  waits := fun _ => .waiting

section

variable (s : State ι ω κ)

def stepSend [DecidableEq ι] (i : ι) : State ι ω κ :=
  match s.sends i with
  | .offering [] => { s with sends := update s.sends i .returned }
  | .offering (job :: rest) =>
    match s.queue.send job with
    | .queued queue => { s with queue := queue, sends := update s.sends i (.offering rest) }
    | .full => { s with sends := update s.sends i (.dropping rest) }
    | .panics => { s with sends := update s.sends i (.panicked (job :: rest)) }
  | .dropping rest =>
    { s with dropped := s.dropped + 1, sends := update s.sends i (.offering rest) }
  | .returned | .panicked _ => s

def stepWork [DecidableEq ω] (w : ω) (fails : Bool) : State ι ω κ :=
  match s.workers w with
  | .idle =>
    match s.queue.receive with
    | some (job, queue) => { s with queue := queue, workers := update s.workers w (.running job) }
    | none => if s.queue.closed then { s with workers := update s.workers w .exited } else s
  | .running _ =>
    if fails then
      { s with failed := s.failed + 1, workers := update s.workers w .idle }
    else
      { s with mirrored := s.mirrored + 1, workers := update s.workers w .idle }
  | .exited => s

def stepWait [Fintype ω] [DecidableEq κ] (j : κ) : State ι ω κ :=
  match s.waits j with
  | .waiting => { s with queue := s.queue.close, waits := update s.waits j .closed }
  | .closed =>
    if ∀ w, (s.workers w).isExited = true then
      { s with waits := update s.waits j .returned }
    else
      s
  | .returned => s

end

def step [DecidableEq ι] [DecidableEq ω] [DecidableEq κ] [Fintype ω] (s : State ι ω κ)
    : Event ι ω κ → State ι ω κ
  | .send i => s.stepSend i
  | .work w fails => s.stepWork w fails
  | .wait j => s.stepWait j

def OnTime (s : State ι ω κ) : Event ι ω κ → Prop
  | .send i => ∀ job rest, s.sends i = .offering (job :: rest) → s.queue.closed = false
  | .work _ _ | .wait _ => True

end State

open State

variable {ι ω κ : Type} {s : State ι ω κ}

structure Sends [DecidableEq ι] (s s' : State ι ω κ) (i : ι) (sending : Sending) : Prop where
  sends : s'.sends = update s.sends i sending
  workers : s'.workers = s.workers
  waits : s'.waits = s.waits
  mirrored : s'.mirrored = s.mirrored
  failed : s'.failed = s.failed
  closed : s'.queue.closed = s.queue.closed
  items : s.queue.closed = true → s'.queue.items = s.queue.items
  counts : s'.dropped + s'.queue.items.length + sending.left = s.dropped + s.queue.items.length + (s.sends i).left
  steps : (s.sends i).finished = false → sending.steps < (s.sends i).steps
  panics : sending.isPanicked = false ↔ (s.sends i).isPanicked = false ∧ s.OnTime (.send i)

variable {i : ι}

theorem sends_goto [DecidableEq ι] {old sending : Sending} {queue : Channel Job} {dropped : Nat}
    (hold : s.sends i = old) (hclosed : queue.closed = s.queue.closed)
    (hitems : s.queue.closed = true → queue.items = s.queue.items)
    (hcounts : dropped + queue.items.length + sending.left = s.dropped + s.queue.items.length + old.left)
    (hsteps : old.finished = false → sending.steps < old.steps) (hpanics :
      sending.isPanicked = false
        ↔
      old.isPanicked = false ∧ ∀ job rest, old = .offering (job :: rest) → s.queue.closed = false)
    : Sends s { s with queue := queue, dropped := dropped, sends := update s.sends i sending } i sending := by
  subst hold
  exact ⟨rfl, rfl, rfl, rfl, rfl, hclosed, hitems, hcounts, hsteps, hpanics⟩

theorem sends_offer [DecidableEq ι] {job : Job} {rest : List Job}
    (hold : s.sends i = .offering (job :: rest)) : ∃ sending, Sends s (s.stepSend i) i sending := by
  unfold stepSend
  rw [hold]
  dsimp only
  cases hsend : s.queue.send job with
  | queued queue =>
    have hopen : s.queue.closed = false := Channel.closed_eq_false_of_send (by rw [hsend]; simp)
    rcases Channel.send_eq_queued hsend with ⟨hitems, hclosed⟩
    refine ⟨.offering rest, sends_goto hold hclosed ?_ ?_ ?_ ?_⟩
    . intro h
      cases hopen.symm.trans h
    . rw [hitems]
      simp only [Sending.left, length_append, length_cons, length_nil]
      omega
    . intro _
      simp only [Sending.steps, length_cons]
      omega
    . exact ⟨fun _ => ⟨rfl, fun _ _ _ => hopen⟩, fun _ => rfl⟩
  | full =>
    have hopen : s.queue.closed = false := Channel.closed_eq_false_of_send (by rw [hsend]; simp)
    refine ⟨.dropping rest, sends_goto hold rfl (fun _ => rfl) rfl ?_ ?_⟩
    . intro _
      simp only [Sending.steps, length_cons]
      omega
    . exact ⟨fun _ => ⟨rfl, fun _ _ _ => hopen⟩, fun _ => rfl⟩
  | panics =>
    have hclosed := Channel.send_eq_panics_iff.1 hsend
    refine ⟨.panicked (job :: rest), sends_goto hold rfl (fun _ => rfl) rfl ?_ ?_⟩
    . intro _
      exact Nat.succ_pos _
    . constructor
      . intro h
        cases h
      . intro h
        cases (h.2 job rest rfl).symm.trans hclosed

theorem sends_self [DecidableEq ι] (h : (s.sends i).finished = true) : Sends s s i (s.sends i) where
  sends := (update_eq_self i s.sends).symm
  workers := rfl
  waits := rfl
  mirrored := rfl
  failed := rfl
  closed := rfl
  items _ := rfl
  counts := rfl
  steps hunfinished := by
    rw [h] at hunfinished
    cases hunfinished
  panics := by
    refine ⟨fun hpanicked => ⟨hpanicked, ?_⟩, And.left⟩
    intro job rest hoffering
    rw [hoffering] at h
    cases h

theorem stepSend_sends [DecidableEq ι] (s : State ι ω κ) (i : ι) : ∃ sending, Sends s (s.stepSend i) i sending := by
  cases hold : s.sends i with
  | offering jobs =>
    cases jobs with
    | nil =>
      unfold stepSend
      rw [hold]
      refine ⟨.returned, sends_goto hold rfl (fun _ => rfl) rfl (fun _ => Nat.succ_pos _) ?_⟩
      refine ⟨fun _ => ⟨rfl, ?_⟩, fun _ => rfl⟩
      intro job rest hoffering
      cases hoffering
    | cons job rest => exact sends_offer hold
  | dropping rest =>
    unfold stepSend
    rw [hold]
    refine ⟨.offering rest, sends_goto hold rfl (fun _ => rfl) ?_ (fun _ => Nat.lt_succ_self _) ?_⟩
    . simp only [Sending.left]
      omega
    . refine ⟨fun _ => ⟨rfl, ?_⟩, fun _ => rfl⟩
      intro job rest hoffering
      cases hoffering
  | returned =>
    have hstep : s.stepSend i = s := by
      unfold stepSend
      rw [hold]
    rw [hstep]
    exact ⟨_, sends_self (by rw [hold]; rfl)⟩
  | panicked jobs =>
    have hstep : s.stepSend i = s := by
      unfold stepSend
      rw [hold]
    rw [hstep]
    exact ⟨_, sends_self (by rw [hold]; rfl)⟩

variable {picked : List (Deployment × Nat)}

theorem update_room {j : Nat} (hj : j ∉ picked.map Prod.snd) (room : Nat → Bool) (b : Bool)
    : ∀ a ∈ picked, update room j b a.2 = room a.2 := by
  intro a ha
  rw [update_of_ne]
  intro hsame
  exact hj (hsame ▸ mem_map_of_mem ha)

theorem filter_update_room {a : Deployment × Nat} (ha : a.2 ∉ picked.map Prod.snd) (room : Nat → Bool)
    (b : Bool)
    : ((a :: picked).filter fun a' => update room a.2 b a'.2)
        =
      (if b then [a] else []) ++ picked.filter fun a => room a.2 := by
  rw [filter_cons, filter_congr (update_room ha room b), update_self]
  cases b with
  | true => rfl
  | false => rfl

theorem countP_update_room {a : Deployment × Nat} (ha : a.2 ∉ picked.map Prod.snd) (room : Nat → Bool)
    (b : Bool)
    : ((a :: picked).countP fun a' => !update room a.2 b a'.2)
        =
      (picked.countP fun a => !room a.2) + if b then 0 else 1 := by
  rw [countP_cons, update_self]
  rw [countP_congr fun a' ha' => by rw [update_room ha room b a' ha']]
  cases b with
  | true => rfl
  | false => rfl

theorem stepSend_picked [DecidableEq ι] (request : Request)
    (hnodup : (picked.map Prod.snd).Nodup) (hopen : s.queue.closed = false)
    (hold : s.sends i = .offering (picked.map fun a => ⟨a.1, request⟩))
    : ∃ (room : Nat → Bool) (n : Nat),
        let s' := (fun s => s.stepSend i)^[n] s
        s'.sends i = .returned ∧
        s'.queue.items = s.queue.items ++ (picked.filter fun a => room a.2).map (fun a => ⟨a.1, request⟩) ∧
        s'.dropped = s.dropped + picked.countP fun a => !room a.2 := by
  induction picked generalizing s with
  | nil =>
    refine ⟨fun _ => true, 1, ?_⟩
    simp [stepSend, hold]
  | cons a picked ih =>
    rw [map_cons, nodup_cons] at hnodup
    cases hsend : s.queue.send ⟨a.1, request⟩ with
    | panics => cases (Channel.send_eq_panics_iff.1 hsend).symm.trans hopen
    | queued queue =>
      rcases Channel.send_eq_queued hsend with ⟨hitems, hclosed⟩
      have hstep : s.stepSend i = { s with
          queue := queue
          sends := update s.sends i (.offering (picked.map fun a => ⟨a.1, request⟩)) } := by
        simp [stepSend, hold, hsend]
      rcases @ih (s.stepSend i) hnodup.2 (by rw [hstep]; exact hclosed.trans hopen)
        (by rw [hstep]; exact update_self _ _ _) with ⟨room, n, hreturned, hqueue, hdropped⟩
      refine ⟨update room a.2 true, n + 1, hreturned, ?_, ?_⟩
      . rw [filter_update_room hnodup.1]
        refine hqueue.trans ?_
        rw [hstep]
        simp [hitems]
      . rw [countP_update_room hnodup.1]
        refine hdropped.trans ?_
        rw [hstep]
        rfl
    | full =>
      have hstep : (s.stepSend i).stepSend i = { s with
          dropped := s.dropped + 1
          sends := update s.sends i (.offering (picked.map fun a => ⟨a.1, request⟩)) } := by
        simp [stepSend, hold, hsend]
      rcases @ih ((s.stepSend i).stepSend i) hnodup.2 (by rw [hstep]; exact hopen)
        (by rw [hstep]; exact update_self _ _ _) with ⟨room, n, hreturned, hqueue, hdropped⟩
      refine ⟨update room a.2 false, n + 2, hreturned, ?_, ?_⟩
      . rw [filter_update_room hnodup.1]
        refine hqueue.trans ?_
        rw [hstep]
        rfl
      . rw [countP_update_room hnodup.1]
        refine hdropped.trans ?_
        rw [hstep]
        change s.dropped + 1 + _ = s.dropped + (_ + 1)
        omega

theorem stepSend_eq_send [DecidableEq ι] (call : Call) (hopen : s.queue.closed = false)
    (hold : s.sends i = .offering call.offers)
    : ∃ (room : Nat → Bool) (n : Nat),
        let s' := (fun s => s.stepSend i)^[n] s
        let mirrored := send call.draw room call.snap call.served call.request
        s'.sends i = .returned ∧
        s'.queue.items = s.queue.items ++ mirrored.jobs ∧
        s'.dropped = s.dropped + mirrored.dropped := by
  unfold Call.offers at hold
  split at hold
  . next hadapter =>
    refine ⟨fun _ => true, 1, ?_⟩
    simp [send, hadapter, stepSend, hold]
  . next hadapter =>
    have hnodup := nodup_zipIdx_map_snd (call.snap.shadows call.served.key.baseModel)
    rcases stepSend_picked call.request (hnodup.sublist (filter_sublist.map Prod.snd)) hopen hold
      with ⟨room, n, h⟩
    refine ⟨room, n, ?_⟩
    unfold send
    rw [if_neg hadapter]
    exact h

theorem stepWork_sends [DecidableEq ω] (w : ω) (fails : Bool) : (s.stepWork w fails).sends = s.sends := by
  unfold stepWork
  split
  . split
    . rfl
    . split
      . rfl
      . rfl
  . split
    . rfl
    . rfl
  . rfl

theorem stepWait_sends [Fintype ω] [DecidableEq κ] (j : κ) : (s.stepWait j).sends = s.sends := by
  unfold stepWait
  split
  . rfl
  . split
    . rfl
    . rfl
  . rfl

def Calm (s : State ι ω κ) : Prop :=
  ∀ i, (s.sends i).isPanicked = false

theorem Sends.calm_iff [DecidableEq ι] {s' : State ι ω κ} {sending : Sending} (h : Sends s s' i sending)
    : Calm s' ↔ Calm s ∧ s.OnTime (.send i) := by
  unfold Calm
  rw [h.sends]
  constructor
  . intro hcalm
    have hi := hcalm i
    rw [update_self, h.panics] at hi
    refine ⟨?_, hi.2⟩
    intro i'
    by_cases hsame : i' = i
    . rw [hsame]
      exact hi.1
    . rw [← hcalm i', update_of_ne hsame]
  . rintro ⟨hcalm, hontime⟩ i'
    by_cases hsame : i' = i
    . rw [hsame, update_self, h.panics]
      exact ⟨hcalm i, hontime⟩
    . rw [update_of_ne hsame]
      exact hcalm i'

structure Sound [Fintype ι] [Fintype ω] (calls : ι → Call) (s : State ι ω κ) : Prop where
  counts :
    ∑ i, (calls i).offers.length
      =
    s.mirrored + s.failed + s.dropped + s.queue.items.length + ∑ w, (s.workers w).load + ∑ i, (s.sends i).left
  exited : ∀ w, (s.workers w).isExited = true → s.queue.closed = true ∧ s.queue.items = []
  returned : ∀ j, s.waits j = .returned → ∀ w, (s.workers w).isExited = true

section

variable [Fintype ι] [Fintype ω] {calls : ι → Call}

variable (hs : Sound calls s)

include hs

theorem Sound.sends [DecidableEq ι] {s' : State ι ω κ} {sending : Sending}
    (h : Sends s s' i sending) : Sound calls s' where
  counts := by
    have hsum := Totals.sum_update_add s.sends Sending.left i sending
    have hbefore := hs.counts
    have hmoved := h.counts
    rw [h.sends, h.workers, h.mirrored, h.failed]
    omega
  exited w hexited := by
    rw [h.workers] at hexited
    rcases hs.exited w hexited with ⟨hclosed, hitems⟩
    exact ⟨h.closed.trans hclosed, (h.items hclosed).trans hitems⟩
  returned := by
    rw [h.waits, h.workers]
    exact hs.returned

theorem Sound.worked [DecidableEq ω] {w : ω} {working : Working} {queue : Channel Job} {mirrored failed : Nat}
    (hold : (s.workers w).isExited = false)
    (hcounts :
      mirrored + failed + queue.items.length + working.load
        =
      s.mirrored + s.failed + s.queue.items.length + (s.workers w).load)
    (hclosed : queue.closed = s.queue.closed) (hitems : s.queue.items = [] → queue.items = [])
    (hexited : working.isExited = true → queue.closed = true ∧ queue.items = [])
    : Sound calls
      { s with
        queue := queue
        mirrored := mirrored
        failed := failed
        workers := update s.workers w working } where
  counts := by
    have hsum := Totals.sum_update_add s.workers Working.load w working
    have hbefore := hs.counts
    dsimp only
    omega
  exited w' hw' := by
    dsimp only at hw' ⊢
    by_cases hsame : w' = w
    . rw [hsame, update_self] at hw'
      exact hexited hw'
    . rw [update_of_ne hsame] at hw'
      rcases hs.exited w' hw' with ⟨hbefore, hempty⟩
      exact ⟨hclosed.trans hbefore, hitems hempty⟩
  returned j hj := by
    cases (hs.returned j hj w).symm.trans hold

theorem Sound.work [DecidableEq ω] (w : ω) (fails : Bool) : Sound calls (s.stepWork w fails) := by
  unfold stepWork
  cases hold : s.workers w with
  | idle =>
    dsimp only
    cases hreceive : s.queue.receive with
    | none =>
      dsimp only
      split
      . next hclosed =>
        refine hs.worked (by rw [hold]; rfl) (by rw [hold]; rfl) rfl id fun _ => ?_
        exact ⟨hclosed, Channel.receive_eq_none_iff.1 hreceive⟩
      . exact hs
    | some received =>
      rcases Channel.receive_eq_some hreceive with ⟨hitems, hclosed⟩
      refine hs.worked (by rw [hold]; rfl) ?_ hclosed ?_ ?_
      . rw [hold, hitems, length_cons]
        simp only [Working.load]
        omega
      . intro hempty
        rw [hempty] at hitems
        cases hitems
      . intro hexited
        cases hexited
  | running job =>
    dsimp only
    split
    . refine hs.worked (by rw [hold]; rfl) ?_ rfl id ?_
      . rw [hold]
        simp only [Working.load]
        omega
      . intro hexited
        cases hexited
    . refine hs.worked (by rw [hold]; rfl) ?_ rfl id ?_
      . rw [hold]
        simp only [Working.load]
        omega
      . intro hexited
        cases hexited
  | exited => exact hs

theorem Sound.wait [DecidableEq κ] (j : κ) : Sound calls (s.stepWait j) := by
  unfold stepWait
  cases hold : s.waits j with
  | waiting =>
    refine ⟨hs.counts, fun w hexited => ⟨rfl, (hs.exited w hexited).2⟩, ?_⟩
    intro j' hj'
    dsimp only at hj'
    by_cases hsame : j' = j
    . rw [hsame, update_self] at hj'
      cases hj'
    . rw [update_of_ne hsame] at hj'
      exact hs.returned j' hj'
  | closed =>
    dsimp only
    split
    . next hexited => exact ⟨hs.counts, hs.exited, fun _ _ => hexited⟩
    . exact hs
  | returned => exact hs

end

section

variable [DecidableEq ι] [DecidableEq ω] [DecidableEq κ] [Fintype ω]

theorem calm_step_iff (s : State ι ω κ) (e : Event ι ω κ) : Calm (s.step e) ↔ Calm s ∧ s.OnTime e := by
  cases e with
  | send i =>
    rcases stepSend_sends s i with ⟨_, h⟩
    exact h.calm_iff
  | work w fails =>
    change Calm (s.stepWork w fails) ↔ _
    unfold Calm
    rw [stepWork_sends]
    exact (and_iff_left trivial).symm
  | wait j =>
    change Calm (s.stepWait j) ↔ _
    unfold Calm
    rw [stepWait_sends]
    exact (and_iff_left trivial).symm

theorem calm_iff_onTime (s : State ι ω κ) (hs : Calm s) (events : List (Event ι ω κ))
    : Calm (events.foldl State.step s) ↔ Throughout State.step State.OnTime s events := by
  rw [foldl_iff_throughout calm_step_iff]
  exact and_iff_right hs

variable [Fintype ι] {calls : ι → Call}

theorem Sound.step (hs : Sound calls s) (e : Event ι ω κ) : Sound calls (s.step e) := by
  cases e with
  | send i =>
    rcases stepSend_sends s i with ⟨_, h⟩
    exact hs.sends h
  | work w fails => exact hs.work w fails
  | wait j => exact hs.wait j

theorem Sound.run (hs : Sound calls s) (events : List (Event ι ω κ)) : Sound calls (events.foldl State.step s) := by
  induction events generalizing s with
  | nil => exact hs
  | cons e events ih => exact ih (hs.step e)

end

theorem sound_start [Fintype ι] (capacity : Capacity) (calls : ι → Call)
    : Sound calls (start capacity calls : State ι (Fin capacity.workers) κ) where
  counts := by
    simp [start, Channel.make, Working.load, Sending.left]
  exited w h := by cases h
  returned j h := by cases h

theorem Sound.drained [Fintype ι] {capacity : Capacity} {calls : ι → Call}
    {s : State ι (Fin capacity.workers) κ} (hs : Sound calls s) (h : ∃ j, s.waits j = .returned)
    : s.queue.items = [] ∧ ∑ w, (s.workers w).load = 0 := by
  rcases h with ⟨j, hj⟩
  have hexited := hs.returned j hj
  refine ⟨(hs.exited ⟨0, capacity.workers_pos⟩ (hexited _)).2, ?_⟩
  exact Finset.sum_eq_zero fun w _ => Working.load_eq_zero (hexited w)

section

variable [Fintype ι] [DecidableEq ι] [DecidableEq κ]

theorem mirror_survives_iff (capacity : Capacity) (calls : ι → Call)
    (events : List (Event ι (Fin capacity.workers) κ))
    : let s := events.foldl State.step (start capacity calls)
      (∀ i, (s.sends i).finished = false → ((s.step (.send i)).sends i).steps < (s.sends i).steps) ∧
      ∑ i, (calls i).offers.length
          =
        s.mirrored + s.failed + s.dropped + s.queue.items.length + ∑ w, (s.workers w).load
          + ∑ i, (s.sends i).left ∧
      ((∃ j, s.waits j = .returned) → s.queue.items = [] ∧ ∑ w, (s.workers w).load = 0) ∧
      ((∀ i, (s.sends i).isPanicked = false) ∧
          ((∀ i, (s.sends i).finished = true) → (∃ j, s.waits j = .returned) →
            ∑ i, (calls i).offers.length = s.mirrored + s.failed + s.dropped)
        ↔
      Throughout State.step State.OnTime (start capacity calls) events) := by
  intro s
  have hs : Sound calls s := (sound_start capacity calls).run events
  refine ⟨?_, hs.counts, hs.drained, ?_⟩
  . intro i hunfinished
    rcases stepSend_sends s i with ⟨_, h⟩
    change ((s.stepSend i).sends i).steps < _
    rw [h.sends, update_self]
    exact h.steps hunfinished
  . rw [← calm_iff_onTime (start capacity calls) (fun _ => rfl) events]
    refine ⟨And.left, fun hcalm => ⟨hcalm, ?_⟩⟩
    intro hfinished hwaited
    rcases hs.drained hwaited with ⟨hitems, hload⟩
    have hleft : ∑ i, (s.sends i).left = 0 :=
      Finset.sum_eq_zero fun i _ => Sending.left_eq_zero (hfinished i) (hcalm i)
    rw [hs.counts, hitems, hload, hleft]
    rfl

end

open Gateway in
theorem late_send_panics
    : let capacity : Capacity := ⟨1, 1, by decide, by decide⟩
      let served := Sample.deployment (str "d1") [] .internal 100 0
      let adapter := Sample.deployment (str "a1") (str "ft") .external 0 100
      let request : Request := ⟨⟨str "r", str "m", .chatCompletions, false, 0, none, [], 0⟩, [], str "acme", str "k1", [], 1, []⟩
      let call : Call := ⟨fun _ => 0, Sample.snapshot Sample.shadowed [] .publicData .internal, served, request⟩
      let s := [.wait (), .send (), .work 0 false, .wait ()].foldl State.step
        (start capacity (fun _ : Unit => call) : State Unit (Fin capacity.workers) Unit)
      call.offers = [⟨adapter, request⟩] ∧
      s.sends () = .panicked [⟨adapter, request⟩] ∧ s.waits () = .returned ∧
      s.mirrored + s.failed + s.dropped = 0 := by
  intro capacity served adapter request call s
  decide +kernel

end ModelGateway.Shadow
