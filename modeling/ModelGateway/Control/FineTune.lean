import ModelGateway.Control.Scorecard

/-!
This module contains the fine-tuning job: its phases and the transitions between them.
-/

namespace ModelGateway.Control.FineTune

open Except

inductive Phase where
  | pending
  | submitting
  | training
  | trained
  | evaluating
  | ready
  | failed
  | cancelled
  deriving DecidableEq, Repr

def Phase.value : Phase → Str
  | .pending => str "pending"
  | .submitting => str "submitting"
  | .training => str "training"
  | .trained => str "trained"
  | .evaluating => str "evaluating"
  | .ready => str "ready"
  | .failed => str "failed"
  | .cancelled => str "cancelled"

def Phase.terminal : Phase → Bool
  | .trained => true
  | .ready => true
  | .failed => true
  | .cancelled => true
  | _ => false

inductive Failure where
  | gateway (err : Error)
  | conflict (message : Str)
  | external
  deriving DecidableEq

def Failure.invalidRequest (message : Str) : Failure :=
  .gateway (.invalidRequest message)

def Failure.notFound (message : Str) : Failure :=
  .gateway (.notFound message)

section

structure SpecFields where
  tenant : Str
  baseModel : Str
  trainer : Str
  trainerVersion : Str
  evalSuite : Str
  promotionGate : PromotionGate
  canarySteps : List Int
  shadowPercent : Int
  deriving DecidableEq

structure SpecFields.Valid (f : SpecFields) : Prop where
  tenant : f.tenant ≠ []
  baseModel : f.baseModel ≠ []
  trainer : f.trainer ≠ []
  shadowPercent : 0 ≤ f.shadowPercent ∧ f.shadowPercent ≤ 100
  ascend : f.canarySteps.Pairwise (· ≤ ·)
  percentages : ∀ step ∈ f.canarySteps, 0 < step ∧ step ≤ 100
  trainerVersion : f.trainerVersion ≠ []

structure Spec extends SpecFields where
  valid : toSpecFields.Valid
  deriving DecidableEq

def tuple : List Int → Str
  | [n] => str "(" ++ decimal n ++ str ",)"
  | l => str "(" ++ List.intercalate (str ", ") (l.map decimal) ++ str ")"

def SpecFields.postInit (f : SpecFields) : Except Error Spec :=
  if htenant : f.tenant = [] then
    .error (.invalidRequest (str "a fine-tune job needs a tenant"))
  else if hbase : f.baseModel = [] then
    .error (.invalidRequest (str "a fine-tune job needs a base model"))
  else if htrainer : f.trainer = [] then
    .error (.invalidRequest (str "a fine-tune job needs a trainer component"))
  else if hshadow : ¬ (0 ≤ f.shadowPercent ∧ f.shadowPercent ≤ 100) then
    .error (.invalidRequest (str "shadow percent " ++ decimal f.shadowPercent
      ++ str " is not a percentage"))
  else if hascend : ¬ f.canarySteps.Pairwise (· ≤ ·) then
    .error (.invalidRequest (str "canary steps " ++ tuple f.canarySteps
      ++ str " must ascend; a rollout that goes backwards is a rollback, and a rollback is a snapshot"
      ++ str " away"))
  else if hsteps : ¬ ∀ step ∈ f.canarySteps, 0 < step ∧ step ≤ 100 then
    .error (.invalidRequest (str "canary steps " ++ tuple f.canarySteps
      ++ str " must each be a percentage above zero"))
  else if hversion : f.trainerVersion = [] then
    .error (.invalidRequest (str "trainer " ++ Control.repr f.trainer
      ++ str " must be pinned to a version"))
  else
    .ok ⟨f, ⟨htenant, hbase, htrainer, Decidable.not_not.mp hshadow, Decidable.not_not.mp hascend,
      Decidable.not_not.mp hsteps, hversion⟩⟩

end

structure Status where
  phase : Phase
  externalID : Str
  artifactRef : Str
  reason : Str
  scorecard : Option Scorecard
  baseline : Option Scorecard
  rolloutWeight : Int
  rolloutStep : Int
  costMicroUSD : Int
  attempts : Nat
  cost : 0 ≤ costMicroUSD
  percentage : 0 ≤ rolloutWeight ∧ rolloutWeight ≤ 100
  deriving DecidableEq

def Status.init : Status where
  phase := .pending
  externalID := []
  artifactRef := []
  reason := []
  scorecard := none
  baseline := none
  rolloutWeight := 0
  rolloutStep := -1
  costMicroUSD := 0
  attempts := 0
  cost := Int.le_refl 0
  percentage := by decide

def slugByte (b : UInt8) : Bool :=
  (0x61 ≤ b && b ≤ 0x7a) || (0x30 ≤ b && b ≤ 0x39)

def withoutNewline (s : Str) : Str :=
  if s.getLast? = some 0x0a then s.dropLast else s

def isName (s : Str) : Bool :=
  match withoutNewline s with
  | [] => false
  | b :: rest =>
    slugByte b && rest.all (fun b => slugByte b || b = 0x2d) && 2 ≤ rest.length && rest.length ≤ 63

structure FineTuneJob where
  name : Str
  spec : Spec
  status : Status
  idempotencyKey : Str
  named : isName name = true
  keyed : idempotencyKey ≠ []

def postInit (name : Str) (spec : Spec) (status : Status) (key : Str) : Except Error FineTuneJob :=
  if hname : isName name = true then
    if hkey : key = [] then
      .error (.invalidRequest (str "job " ++ Control.repr name
        ++ str " has no idempotency key; a submission that cannot be recognised on retry is one that"
        ++ str " can be paid for twice"))
    else
      .ok ⟨name, spec, status, key, hname, hkey⟩
  else
    .error (.invalidRequest (str "job name " ++ Control.repr name
      ++ str " must be a lowercase slug of 3 to 64 characters"))

namespace FineTuneJob

def ref (job : FineTuneJob) : Str :=
  job.spec.tenant ++ str "/" ++ job.name

def isTerminal (job : FineTuneJob) : Bool :=
  job.status.phase.terminal

def rollingOut (job : FineTuneJob) : Bool :=
  0 ≤ job.status.rolloutStep

def row (job : FineTuneJob) : FineTuneJobRow where
  tenantID := job.spec.tenant
  name := job.name
  baseModel := job.spec.baseModel
  rolloutStep := job.status.rolloutStep
  rolloutWeight := job.status.rolloutWeight
  shadowPercent := job.spec.shadowPercent

section

structure Changes where
  externalID : Option Str := none
  artifactRef : Option Str := none
  reason : Option Str := none
  costMicroUSD : Option Int := none
  attempts : Option Nat := none
  scorecard : Option Scorecard := none
  baseline : Option Scorecard := none

def advance (job : FineTuneJob) (phase : Phase) (c : Changes) : Except Failure FineTuneJob :=
  if job.isTerminal then
    .error (.conflict (str "job " ++ job.ref ++ str " is " ++ job.status.phase.value
      ++ str " and cannot move to " ++ phase.value))
  else if hcost : 0 ≤ c.costMicroUSD.getD job.status.costMicroUSD then
    .ok { job with status := { job.status with
      phase := phase
      externalID := c.externalID.getD job.status.externalID
      artifactRef := c.artifactRef.getD job.status.artifactRef
      reason := c.reason.getD job.status.reason
      costMicroUSD := c.costMicroUSD.getD job.status.costMicroUSD
      attempts := c.attempts.getD job.status.attempts
      scorecard := c.scorecard.or job.status.scorecard
      baseline := c.baseline.or job.status.baseline
      cost := hcost } }
  else
    .error (.invalidRequest (str "a job cannot have cost a negative amount"))

def submitting (job : FineTuneJob) : Except Failure FineTuneJob :=
  job.advance .submitting { attempts := some (job.status.attempts + 1) }

def submitted (job : FineTuneJob) (externalID : Str) : Except Failure FineTuneJob :=
  if externalID = [] then
    .error (.invalidRequest (str "job " ++ job.ref
      ++ str " was submitted but the trainer returned no id, so nothing can poll it"))
  else
    job.advance .training { externalID := some externalID }

def trained (job : FineTuneJob) (artifactRef : Str) (costMicroUSD : Int)
    : Except Failure FineTuneJob :=
  if artifactRef = [] then
    .error (.invalidRequest (str "job " ++ job.ref
      ++ str " finished training with no artifact reference"))
  else
    job.advance (if job.spec.evalSuite = [] then .trained else .evaluating)
      { artifactRef := some artifactRef, costMicroUSD := some costMicroUSD }

def evaluated (job : FineTuneJob) (decision : Decision) (scorecard : Scorecard)
    (baseline : Option Scorecard)
    : Except Failure FineTuneJob :=
  job.advance (if decision.passed then .ready else .failed)
    { reason := some decision.summary, scorecard := some scorecard, baseline := baseline }

def failed (job : FineTuneJob) (reason : Str) (costMicroUSD : Option Int)
    : Except Failure FineTuneJob :=
  job.advance .failed
    { reason := some (if reason = [] then str "no reason given" else reason)
      costMicroUSD := some (costMicroUSD.getD job.status.costMicroUSD) }

def cancelled (job : FineTuneJob) (reason : Str) : Except Failure FineTuneJob :=
  job.advance .cancelled { reason := some reason }

def startRollout (job : FineTuneJob) : Except Failure FineTuneJob :=
  if job.status.phase ≠ .ready then
    .error (.conflict (str "job " ++ job.ref ++ str " is " ++ job.status.phase.value
      ++ str "; only an artifact that cleared its gate can enter the routing table"))
  else if job.rollingOut then
    .error (.conflict (str "job " ++ job.ref ++ str " is already rolling out"))
  else
    .ok { job with status := { job.status with
      rolloutStep := 0, rolloutWeight := 0, percentage := by decide } }

def advanceRollout (job : FineTuneJob) : Except Failure FineTuneJob :=
  if !job.rollingOut then
    .error (.conflict (str "job " ++ job.ref ++ str " has no rollout to advance"))
  else
    match hstep : job.spec.canarySteps[job.status.rolloutStep.toNat]? with
    | none =>
      .error (.conflict (str "job " ++ job.ref ++ str " is at " ++ decimal job.status.rolloutWeight
        ++ str "% and has no further steps"))
    | some weight =>
      .ok { job with status := { job.status with
        rolloutStep := job.status.rolloutStep + 1
        rolloutWeight := weight
        percentage := by
          have hweight := job.spec.valid.percentages weight (List.mem_of_getElem? hstep)
          omega } }

def abortRollout (job : FineTuneJob) (reason : Str) : Except Failure FineTuneJob :=
  if !job.rollingOut then
    .error (.conflict (str "job " ++ job.ref ++ str " has no rollout to abort"))
  else
    .ok { job with status := { job.status with
      rolloutWeight := 0, rolloutStep := 0, reason := reason, percentage := by decide } }

end

section

theorem name_ne_nil (job : FineTuneJob) : job.name ≠ [] := by
  intro hname
  have hnamed := job.named
  rw [hname] at hnamed
  revert hnamed
  decide

variable {job job' : FineTuneJob}

theorem advance_eq_ok {phase : Phase} {c : Changes} (h : job.advance phase c = .ok job')
    : job.isTerminal = false ∧ ∃ hcost, job' = { job with status := { job.status with
          phase := phase
          externalID := c.externalID.getD job.status.externalID
          artifactRef := c.artifactRef.getD job.status.artifactRef
          reason := c.reason.getD job.status.reason
          costMicroUSD := c.costMicroUSD.getD job.status.costMicroUSD
          attempts := c.attempts.getD job.status.attempts
          scorecard := c.scorecard.or job.status.scorecard
          baseline := c.baseline.or job.status.baseline
          cost := hcost } } := by
  unfold advance at h
  split at h
  . simp at h
  . next hterminal =>
    split at h
    . next hcost => exact ⟨by simpa using hterminal, hcost, (ok.inj h).symm⟩
    . simp at h

theorem startRollout_eq_ok (h : job.startRollout = .ok job')
    : job.status.phase = .ready ∧ job.status.rolloutStep < 0 ∧
        job' = { job with status := { job.status with
          rolloutStep := 0, rolloutWeight := 0, percentage := by decide } } := by
  unfold startRollout rollingOut at h
  split at h
  . simp at h
  . next hphase =>
    split at h
    . simp at h
    . next hstep =>
      refine ⟨not_not.mp hphase, ?_, (ok.inj h).symm⟩
      rw [decide_eq_true_eq] at hstep
      omega

theorem advanceRollout_eq_ok (h : job.advanceRollout = .ok job')
    : 0 ≤ job.status.rolloutStep ∧ ∃ weight hpercentage,
        job.spec.canarySteps[job.status.rolloutStep.toNat]? = some weight ∧
        job' = { job with status := { job.status with
          rolloutStep := job.status.rolloutStep + 1
          rolloutWeight := weight
          percentage := hpercentage } } := by
  unfold advanceRollout rollingOut at h
  split at h
  . simp at h
  . next hrolling =>
    split at h
    . simp at h
    . next weight hweight =>
      simp only [Bool.not_eq_true', decide_eq_false_iff_not, not_not] at hrolling
      have hpercentage := job.spec.valid.percentages weight (List.mem_of_getElem? hweight)
      exact ⟨hrolling, weight, by omega, hweight, (ok.inj h).symm⟩

theorem length_le_of_advanceRollout_eq_error {err : Failure} (h : job.advanceRollout = .error err)
    (hrolling : 0 ≤ job.status.rolloutStep)
    : job.spec.canarySteps.length ≤ job.status.rolloutStep.toNat := by
  unfold advanceRollout rollingOut at h
  split at h
  . next hidle => simp [hrolling] at hidle
  . split at h
    . next hnone => exact List.getElem?_eq_none_iff.mp hnone
    . simp at h

theorem abortRollout_eq_ok {reason : Str} (h : job.abortRollout reason = .ok job')
    : 0 ≤ job.status.rolloutStep ∧ job' = { job with status := { job.status with
          rolloutWeight := 0, rolloutStep := 0, reason := reason, percentage := by decide } } := by
  unfold abortRollout rollingOut at h
  split at h
  . simp at h
  . next hrolling =>
    simp only [Bool.not_eq_true', decide_eq_false_iff_not, not_not] at hrolling
    exact ⟨hrolling, (ok.inj h).symm⟩

end

end FineTuneJob

end ModelGateway.Control.FineTune
