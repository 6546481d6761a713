import ModelGateway.Accounting.Accountant
import ModelGateway.Control.FineTune
import ModelGateway.Lib.Runs

namespace ModelGateway.Control.FineTune

structure UsageRow extends Accounting.UsageRecord where
  occurredAt : Int

structure Observed where
  requests : Nat
  errors : Nat
  deriving DecidableEq

def Observed.errorRate (o : Observed) : Int :=
  if o.requests = 0 then 0 else o.errors * basisPoints / o.requests

inductive Verdict where
  | wait
  | advance
  | abort (reason : Str)
  deriving DecidableEq

structure Policy where
  dwell : Int
  minRequests : Nat
  errorTolerance : Int
  evidence : 0 < minRequests
  tolerance : 0 ≤ errorTolerance

def Policy.default : Policy where
  dwell := 15 * 60 * 1000000
  minRequests := 30
  errorTolerance := 200
  evidence := by decide
  tolerance := by decide

def observe (records : List UsageRow) (deployment : Str) (since : Int) : Observed :=
  let served := records.filter fun r => r.deployment = deployment ∧ since ≤ r.occurredAt
  ⟨served.length, (served.filter fun r => r.outcome ≠ []).length⟩

def Policy.judge (p : Policy) (records : List UsageRow) (adapter base : Str) (startedAt now : Int)
    : Verdict :=
  if now - startedAt < p.dwell then
    .wait
  else
    let measured := observe records adapter startedAt
    if measured.requests < p.minRequests then
      .wait
    else
      let against := observe records base startedAt
      if p.errorTolerance < measured.errorRate - against.errorRate then
        .abort (str "errors at " ++ pct measured.errorRate ++ str " against the base model's "
          ++ pct against.errorRate ++ str ", over the " ++ pct p.errorTolerance ++ str " tolerance")
      else
        .advance

section

inductive RunState where
  | running
  | succeeded
  | failed
  | unknown
  deriving DecidableEq, Repr

structure Run where
  externalID : Str
  state : RunState
  artifactRef : Str
  costMicroUSD : Int
  reason : Str
  deriving DecidableEq

structure Trainer where
  submit : (jobName : Str) → (spec : Spec) → (idempotencyKey : Str) → Except Failure Run
  poll : (externalID : Str) → Except Failure Run
  cancel : (externalID : Str) → Except Failure Unit

structure Target where
  baseModel : Str
  artifactRef : Str

structure Ports where
  trainers : Str → Option Trainer
  evaluators : Str → Option (Target → Except Failure Scorecard)

def Ports.trainer (ports : Ports) (name : Str) : Except Failure Trainer :=
  match ports.trainers name with
  | none =>
    .error (.notFound (str "no trainer named " ++ Control.repr name
      ++ str " is registered with this control plane"))
  | some trainer => .ok trainer

def Ports.evaluator (ports : Ports) (name : Str) : Except Failure (Target → Except Failure Scorecard) :=
  match ports.evaluators name with
  | none =>
    .error (.notFound (str "no eval suite named " ++ Control.repr name
      ++ str " is registered with this control plane"))
  | some suite => .ok suite

def Ports.named (ports : Ports) (spec : Spec) : Except Failure Unit := do
  let _ ← ports.trainer spec.trainer
  if spec.evalSuite = [] then
    return ()
  else
    let _ ← ports.evaluator spec.evalSuite
    return ()

end

section

variable (ports : Ports)

def measureBaseline (suite : Target → Except Failure Scorecard) (spec : Spec)
    : Except Failure (Option Scorecard) :=
  if spec.promotionGate.needsBaseline then (suite ⟨spec.baseModel, []⟩).map some else .ok none

def evaluate (job : FineTuneJob) : Except Failure FineTuneJob := do
  let suite ← ports.evaluator job.spec.evalSuite
  let candidate ← suite ⟨job.spec.baseModel, job.status.artifactRef⟩
  let baseline ← measureBaseline suite job.spec
  match job.spec.promotionGate.decide candidate baseline with
  | .error err => .error (.gateway err)
  | .ok decision => job.evaluated decision candidate baseline

def afterSubmit (job : FineTuneJob) (run : Run) : Except Failure FineTuneJob :=
  if run.state = .failed then
    job.failed (if run.reason = [] then str "the trainer refused the job" else run.reason) none
  else
    job.submitted run.externalID

def afterPoll (job : FineTuneJob) (run : Run) : Except Failure FineTuneJob :=
  match run.state with
  | .succeeded => job.trained run.artifactRef run.costMicroUSD
  | .failed =>
    job.failed (if run.reason = [] then str "the trainer reported a failure" else run.reason)
      (some run.costMicroUSD)
  | .unknown =>
    job.failed (str "the trainer has no record of run " ++ Control.repr job.status.externalID) none
  | .running => .ok job

def step (job : FineTuneJob) : Except Failure FineTuneJob :=
  if job.status.phase = .evaluating then
    evaluate ports job
  else do
    let trainer ← ports.trainer job.spec.trainer
    if job.status.phase = .submitting then
      let run ← trainer.submit job.name job.spec job.idempotencyKey
      afterSubmit job run
    else
      let run ← trainer.poll job.status.externalID
      afterPoll job run

end

section

structure Row where
  job : FineTuneJob
  updatedAt : Int

abbrev Table := List Row

def Row.applyStatus (row : Row) (status : Status) (now : Int) : Row :=
  ⟨{ row.job with status := status }, now⟩

def Table.find (t : Table) (tenant name : Str) : Option Nat :=
  t.findIdx? fun row => row.job.spec.tenant = tenant ∧ row.job.name = name

def Table.submit (t : Table) (ports : Ports) (job : FineTuneJob) (now : Int)
    : Except Failure Table :=
  if job.status.phase ≠ .pending then
    .error (.invalidRequest (str "job " ++ job.ref ++ str " was submitted already in phase "
      ++ job.status.phase.value))
  else if (t.find job.spec.tenant job.name).isSome then
    .error (.conflict (str "job " ++ job.ref
      ++ str " already exists; submit a new job rather than reusing a name"))
  else do
    ports.named job.spec
    if t.any fun row => row.job.idempotencyKey = job.idempotencyKey then
      -- the column is unique
      .error .external
    else
      -- only the phase is taken from the job, the rest are the defaults of the columns
      return t ++ [⟨{ job with status := .init }, now⟩]

def Table.require (t : Table) (tenant name : Str) : Except Failure (Nat × Row) :=
  match (t.find tenant name).bind fun i => t[i]?.map fun row => (i, row) with
  | none => .error (.notFound (str "no fine-tune job " ++ tenant ++ str "/" ++ name))
  | some found => .ok found

def Table.rollout (t : Table) (tenant name : Str) (now : Int)
    (transition : FineTuneJob → Except Failure FineTuneJob)
    : Except Failure Table := do
  let (i, row) ← t.require tenant name
  let job ← transition row.job
  return t.set i (row.applyStatus job.status now)

def Table.startRollout (t : Table) (tenant name : Str) (now : Int) : Except Failure Table :=
  t.rollout tenant name now fun job => job.startRollout

def Table.advanceRollout (t : Table) (tenant name : Str) (now : Int) : Except Failure Table :=
  t.rollout tenant name now fun job => job.advanceRollout

def Table.abortRollout (t : Table) (tenant name reason : Str) (now : Int) : Except Failure Table :=
  t.rollout tenant name now fun job =>
    job.abortRollout (if reason = [] then str "aborted by an operator" else reason)

def cancelRun (ports : Ports) (job : FineTuneJob) : Except Failure Unit :=
  if job.status.externalID = [] then
    .ok ()
  else do
    let trainer ← ports.trainer job.spec.trainer
    trainer.cancel job.status.externalID

def Table.cancel (t : Table) (ports : Ports) (tenant name : Str) (now : Int)
    : Except Failure Table := do
  let (i, row) ← t.require tenant name
  if row.job.isTerminal then
    return t
  else
    cancelRun ports row.job
    let job ← row.job.cancelled (str "cancelled by an operator")
    return t.set i (row.applyStatus job.status now)

end

section

structure Turn where
  ports : Ports
  submittedAt : Int
  storedAt : Int

def actionable : Phase → Bool
  | .pending => true
  | .submitting => true
  | .training => true
  | .evaluating => true
  | _ => false

def Row.submitting (row : Row) (now : Int) : Except Failure Row :=
  if row.job.status.phase = .pending then
    row.job.submitting.map fun job => row.applyStatus job.status now
  else
    .ok row

def Row.advance (turn : Turn) (row : Row) : Row :=
  if row.job.isTerminal then
    row
  else
    match row.submitting turn.submittedAt with
    | .error _ => row
    | .ok row =>
      match step turn.ports row.job with
      -- rolled back to what has been committed
      | .error _ => row
      | .ok job => row.applyStatus job.status turn.storedAt

def Table.needingWork (t : Table) : List Nat :=
  (List.range t.length).filter fun i => t[i]?.any fun row => actionable row.job.status.phase

def Table.reconcileOnce (t : Table) (turns : Nat → Turn) : Table :=
  t.needingWork.foldl (fun t i => t.modify i (Row.advance (turns i))) t

structure Moment where
  records : Except Failure (List UsageRow)
  now : Int
  storedAt : Int

structure Pass where
  policy : Option Policy
  order : List Nat
  distinct : order.Nodup
  moments : Nat → Moment

def Row.candidate (row : Row) : Bool :=
  -- a rollout that was aborted is at step 0
  0 ≤ row.job.status.rolloutStep && row.job.status.rolloutWeight < 100

def Row.verdict (row : Row) (policy : Policy) (m : Moment) : Verdict :=
  match m.records with
  -- a rollout that cannot be judged is left where it is
  | .error _ => .wait
  | .ok records =>
    policy.judge records (row.job.spec.tenant ++ str "-" ++ row.job.name) row.job.spec.baseModel
      row.updatedAt m.now

def Row.advanceRollout (row : Row) (policy : Policy) (m : Moment) : Except Failure Row :=
  if row.candidate then
    match row.verdict policy m with
    | .wait => .ok row
    | .advance => row.job.advanceRollout.map fun job => row.applyStatus job.status m.storedAt
    | .abort reason =>
      (row.job.abortRollout reason).map fun job => row.applyStatus job.status m.storedAt
  else
    .ok row

def Table.judgeAll (policy : Policy) (moments : Nat → Moment)
    : List Nat → Table → Table × Option Failure
  | [], t => (t, none)
  | i :: rest, t =>
    match t[i]? with
    | none => judgeAll policy moments rest t
    | some row =>
      match row.advanceRollout policy (moments i) with
      | .error err => (t, some err)
      | .ok row => judgeAll policy moments rest (t.set i row)

def Table.advanceRollouts (t : Table) (pass : Pass) : Table × Option Failure :=
  match pass.policy with
  | none => (t, none)
  | some policy =>
    t.judgeAll policy pass.moments (pass.order.filter fun i => t[i]?.any Row.candidate)

end

section

inductive Op where
  | submit (ports : Ports) (job : FineTuneJob) (now : Int)
  | startRollout (tenant name : Str) (now : Int)
  | advanceRollout (tenant name : Str) (now : Int)
  | abortRollout (tenant name reason : Str) (now : Int)
  | cancel (ports : Ports) (tenant name : Str) (now : Int)
  | reconcileOnce (turns : Nat → Turn)
  | advanceRollouts (pass : Pass)

def Table.step (t : Table) : Op → Table
  | .submit ports job now => (t.submit ports job now).toOption.getD t
  | .startRollout tenant name now => (t.startRollout tenant name now).toOption.getD t
  | .advanceRollout tenant name now => (t.advanceRollout tenant name now).toOption.getD t
  | .abortRollout tenant name reason now => (t.abortRollout tenant name reason now).toOption.getD t
  | .cancel ports tenant name now => (t.cancel ports tenant name now).toOption.getD t
  | .reconcileOnce turns => t.reconcileOnce turns
  | .advanceRollouts pass => (t.advanceRollouts pass).1

end

end ModelGateway.Control.FineTune
