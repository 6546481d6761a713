import ModelGateway.Control.FineTuneService
import ModelGateway.Lib.RowLock

namespace ModelGateway.Control.FineTune

section

def column {α : Type} [DecidableEq α] (seen target current : α) : α :=
  if target = seen then current else target

theorem column_cases {α : Type} [DecidableEq α] (seen target current : α)
    : column seen target current = current ∨ column seen target current = target := by
  unfold column
  split
  . exact .inl rfl
  . exact .inr rfl

def Status.written (seen target current : Status) : Status where
  phase := column seen.phase target.phase current.phase
  externalID := column seen.externalID target.externalID current.externalID
  artifactRef := column seen.artifactRef target.artifactRef current.artifactRef
  reason := column seen.reason target.reason current.reason
  scorecard := column seen.scorecard target.scorecard current.scorecard
  baseline := column seen.baseline target.baseline current.baseline
  rolloutWeight := column seen.rolloutWeight target.rolloutWeight current.rolloutWeight
  rolloutStep := column seen.rolloutStep target.rolloutStep current.rolloutStep
  costMicroUSD := column seen.costMicroUSD target.costMicroUSD current.costMicroUSD
  attempts := column seen.attempts target.attempts current.attempts
  cost := by
    rcases column_cases seen.costMicroUSD target.costMicroUSD current.costMicroUSD with h | h
    . rw [h]
      exact current.cost
    . rw [h]
      exact target.cost
  percentage := by
    rcases column_cases seen.rolloutWeight target.rolloutWeight current.rolloutWeight with h | h
    . rw [h]
      exact current.percentage
    . rw [h]
      exact target.percentage

end

section

inductive Todo where
  | call
  | stop
  | write (target : Status) (goesOn : Bool)
  deriving DecidableEq

inductive Reading where
  | pass
  | cancel
  | start
  | advance
  | abort (reason : Str)
  | judge (verdict : Verdict)

def Reading.locks : Reading → Bool
  | .pass => true
  | .judge _ => true
  | _ => false

def rollout (result : Except Failure FineTuneJob) : Option Todo :=
  result.toOption.map fun job => .write job.status false

def Reading.begins (job : FineTuneJob) : Reading → Option Todo
  | .pass =>
    if job.isTerminal then
      none
    else if job.status.phase = .pending then
      job.submitting.toOption.map fun job => .write job.status true
    else
      some .call
  | .cancel => if job.isTerminal then none else some .stop
  | .start => rollout job.startRollout
  | .advance => rollout job.advanceRollout
  | .abort reason =>
    rollout (job.abortRollout (if reason = [] then str "aborted by an operator" else reason))
  | .judge verdict =>
    if (Row.mk job 0).candidate then
      match verdict with
      | .wait => none
      | .advance => rollout job.advanceRollout
      | .abort reason => rollout (job.abortRollout reason)
    else
      none

structure StartedRun where
  trainer : Str
  key : Str
  id : Str
  deriving DecidableEq

def StartedRun.Of (r : StartedRun) (job : FineTuneJob) : Prop :=
  r.trainer = job.spec.trainer ∧ r.key = job.idempotencyKey

instance (r : StartedRun) (job : FineTuneJob) : Decidable (r.Of job) :=
  inferInstanceAs (Decidable (_ ∧ _))

def submission (runs : List StartedRun) (job : FineTuneJob) (started : Option Str)
    (answer : Except Failure Run)
    : Except Failure Run × List StartedRun :=
  match runs.find? fun r => r.Of job with
  | some r => (answer.map fun run => { run with externalID := r.id }, runs)
  | none =>
    match started with
    | some id =>
      (answer.map fun run => { run with externalID := id },
        runs ++ [⟨job.spec.trainer, job.idempotencyKey, id⟩])
    | none => (answer.map fun run => { run with state := .failed }, runs)

def called (runs : List StartedRun) (ports : Ports) (job : FineTuneJob) (started : Option Str)
    : Except Failure FineTuneJob × List StartedRun :=
  if job.status.phase = .submitting then
    match ports.trainer job.spec.trainer with
    | .error err => (.error err, runs)
    | .ok trainer =>
      let (run, runs) :=
        submission runs job started (trainer.submit job.name job.spec job.idempotencyKey)
      (run >>= afterSubmit job, runs)
  else
    (step ports job, runs)

def stopped (ports : Ports) (job : FineTuneJob) : Except Failure FineTuneJob := do
  cancelRun ports job
  job.cancelled (str "cancelled by an operator")

def cancelled (ports : Ports) (job : FineTuneJob) : List (Str × Str) :=
  if job.status.externalID = [] ∨ (ports.trainers job.spec.trainer).isNone then
    []
  else
    [(job.spec.trainer, job.status.externalID)]

end

section

structure World extends RowLock.Rows Nat Status Todo where
  committed : List (Nat × Status)
  runs : List StartedRun
  cancels : List (Str × Str)

def World.init : World where
  state _ := .init
  lock _ := none
  tasks _ := none
  committed := []
  runs := []
  cancels := []

inductive Event where
  | read (t j : Nat) (reading : Reading)
  | call (t : Nat) (ports : Ports) (started : Option Str)
  | stop (t : Nat) (ports : Ports)
  | commit (t : Nat)
  | crash (t : Nat)

variable (jobs : Nat → FineTuneJob) (w : World)

def jobAt (j : Nat) (s : Status) : FineTuneJob :=
  { jobs j with status := s }

namespace World

def proceed (t : Nat) (k : RowLock.Task Nat Status Todo) : Except Failure FineTuneJob → World
  | .error _ => { w with toRows := w.toRows.finish t }
  | .ok job => { w with toRows := w.toRows.proceed t { k with todo := .write job.status false } }

def read (t j : Nat) (reading : Reading) : World :=
  if (w.tasks t).isSome ∨ (reading.locks = true ∧ (w.lock j).isSome) then
    w
  else
    match reading.begins (jobAt jobs j (w.state j)) with
    | none => w
    | some todo => { w with toRows := w.toRows.read t j todo reading.locks }

def call (t : Nat) (k : RowLock.Task Nat Status Todo) (ports : Ports) (started : Option Str) : World :=
  let (answer, runs) := called w.runs ports (jobAt jobs k.row k.seen) started
  proceed { w with runs := runs } t k answer

def stop (t : Nat) (k : RowLock.Task Nat Status Todo) (ports : Ports) : World :=
  proceed { w with cancels := w.cancels ++ cancelled ports (jobAt jobs k.row k.seen) } t k
    (stopped ports (jobAt jobs k.row k.seen))

def commit (t : Nat) (k : RowLock.Task Nat Status Todo) (target : Status) (goesOn : Bool) : World :=
  -- an update waits for the task that has locked the row
  if w.writable t k.row then
    let stored := k.seen.written target (w.state k.row)
    { w with
      toRows := w.toRows.commit t k.row stored (if goesOn then some ⟨k.row, target, .call⟩ else none)
      committed := w.committed ++ [(k.row, stored)] }
  else
    w

def step (e : Event) : World :=
  match e with
  | .read t j reading => w.read jobs t j reading
  | .crash t => { w with toRows := w.toRows.finish t }
  | .call t ports started =>
    match w.tasks t with
    | some ⟨j, seen, .call⟩ => w.call jobs t ⟨j, seen, .call⟩ ports started
    | _ => w
  | .stop t ports =>
    match w.tasks t with
    | some ⟨j, seen, .stop⟩ => w.stop jobs t ⟨j, seen, .stop⟩ ports
    | _ => w
  | .commit t =>
    match w.tasks t with
    | some ⟨j, seen, .write target goesOn⟩ =>
      w.commit t ⟨j, seen, .write target goesOn⟩ target goesOn
    | _ => w

def run (es : List Event) : World :=
  es.foldl (step jobs) .init

end World

end

end ModelGateway.Control.FineTune
