import ModelGateway.Control.FineTuneService
import ModelGateway.Lib.Indexed

/-!
This module contains the runs of the rollout controller: how stages climb, and when an aborted adapter stays
out of service.
-/

namespace ModelGateway.Control.FineTune

open List Except FineTuneJob
open Option (map_some some)

section

structure Inv (job : FineTuneJob) : Prop where
  rolling : 0 ≤ job.status.rolloutStep → job.status.phase = .ready
  passed : job.status.phase = .ready → ∃ card, job.status.scorecard = some card ∧
    job.spec.promotionGate.Passes card job.status.baseline
  unmeasured : job.isTerminal = false → job.status.scorecard = none ∧ job.status.baseline = none
  started : -1 ≤ job.status.rolloutStep
  idle : job.status.rolloutStep ≤ 0 → job.status.rolloutWeight = 0
  canary : ∀ k : Nat, job.status.rolloutStep = k + 1 →
    job.spec.canarySteps[k]? = some job.status.rolloutWeight

structure Climbs (job job' : FineTuneJob) : Prop where
  same : { job with status := job'.status } = job'
  inv : Inv job → Inv job'
  weight : Inv job → job.status.rolloutWeight ≤ job'.status.rolloutWeight

theorem Climbs.refl (job : FineTuneJob) : Climbs job job :=
  ⟨rfl, id, fun _ => Int.le_refl _⟩

variable {job job' : FineTuneJob}

theorem Climbs.trans {job'' : FineTuneJob} (h : Climbs job job') (h' : Climbs job' job'')
    : Climbs job job'' where
  same := by rw [← h'.same, ← h.same]
  inv hinv := h'.inv (h.inv hinv)
  weight hinv := Int.le_trans (h.weight hinv) (h'.weight (h.inv hinv))

theorem Inv.init (job : FineTuneJob) : Inv { job with status := .init } where
  rolling h := absurd h (show ¬ (0 : Int) ≤ -1 by decide)
  passed h := absurd h (show Phase.pending ≠ .ready by decide)
  unmeasured _ := ⟨rfl, rfl⟩
  started := Int.le_refl (-1)
  idle _ := rfl
  canary k h := by
    change (-1 : Int) = k + 1 at h
    omega

theorem Inv.not_rolling (hinv : Inv job) (h : job.isTerminal = false)
    : job.status.rolloutStep = -1 := by
  have hstarted := hinv.started
  by_contra hstep
  unfold FineTuneJob.isTerminal at h
  rw [hinv.rolling (by omega)] at h
  simp [Phase.terminal] at h

theorem climbs_of_advance {phase : Phase} {c : FineTuneJob.Changes} (h : job.advance phase c = .ok job')
    (hphase : phase ≠ .ready) (hcard : c.scorecard = none) (hbaseline : c.baseline = none)
    : Climbs job job' := by
  rcases advance_eq_ok h with ⟨hopen, _, rfl⟩
  refine ⟨rfl, fun hinv => ?_, fun _ => Int.le_refl _⟩
  have hstep := hinv.not_rolling hopen
  refine ⟨?_, fun hready => absurd hready hphase, ?_, hinv.started, hinv.idle, hinv.canary⟩
  . intro hrolling
    change 0 ≤ job.status.rolloutStep at hrolling
    omega
  . intro _
    rw [hcard, hbaseline, (hinv.unmeasured hopen).1, (hinv.unmeasured hopen).2]
    exact ⟨rfl, rfl⟩

theorem climbs_of_evaluated {d : Decision} {card : Scorecard} {baseline : Option Scorecard}
    (hdecide : job.spec.promotionGate.decide card baseline = .ok d)
    (h : job.evaluated d card baseline = .ok job')
    : Climbs job job' := by
  rcases advance_eq_ok h with ⟨hopen, _, rfl⟩
  refine ⟨rfl, fun hinv => ?_, fun _ => Int.le_refl _⟩
  have hstep := hinv.not_rolling hopen
  refine ⟨?_, ?_, ?_, hinv.started, hinv.idle, hinv.canary⟩
  . intro hrolling
    change 0 ≤ job.status.rolloutStep at hrolling
    omega
  . intro hready
    refine ⟨card, rfl, d, ?_, ?_⟩
    . rw [(hinv.unmeasured hopen).2, Option.or_none]
      exact hdecide
    . cases hpassed : d.passed with
      | true => rfl
      | false => simp [hpassed] at hready
  . intro hopen'
    unfold FineTuneJob.isTerminal at hopen'
    cases hpassed : d.passed with
    | true => simp [hpassed, Phase.terminal] at hopen'
    | false => simp [hpassed, Phase.terminal] at hopen'

theorem climbs_of_failed {reason : Str} {cost : Option Int} (h : job.failed reason cost = .ok job')
    : Climbs job job' :=
  climbs_of_advance h (by decide) rfl rfl

theorem climbs_of_startRollout (h : job.startRollout = .ok job') : Climbs job job' := by
  rcases startRollout_eq_ok h with ⟨hready, hstep, rfl⟩
  refine ⟨rfl, fun hinv => ?_, fun hinv => Int.le_of_eq (hinv.idle (by omega))⟩
  refine ⟨fun _ => hready, hinv.passed, hinv.unmeasured, show (-1 : Int) ≤ 0 by decide,
    fun _ => rfl, ?_⟩
  intro k hk
  change (0 : Int) = k + 1 at hk
  omega

theorem climbs_of_advanceRollout (h : job.advanceRollout = .ok job') : Climbs job job' := by
  rcases advanceRollout_eq_ok h with ⟨hrolling, weight, _, hweight, rfl⟩
  refine ⟨rfl, fun hinv => ?_, fun hinv => ?_⟩
  . refine ⟨fun _ => hinv.rolling hrolling, hinv.passed, hinv.unmeasured, ?_, ?_, ?_⟩
    . change -1 ≤ job.status.rolloutStep + 1
      omega
    . intro hidle
      change job.status.rolloutStep + 1 ≤ 0 at hidle
      omega
    . intro k hk
      change job.status.rolloutStep + 1 = k + 1 at hk
      have hk : job.status.rolloutStep.toNat = k := by omega
      rw [← hk]
      exact hweight
  . change job.status.rolloutWeight ≤ weight
    generalize hk : job.status.rolloutStep.toNat = k at hweight
    cases k with
    | zero =>
      rw [hinv.idle (by omega)]
      exact Int.le_of_lt (job.spec.valid.percentages weight (mem_of_getElem? hweight)).1
    | succ k =>
      -- the weight that is left was the step before
      have hbefore := hinv.canary k (by omega)
      rcases List.getElem?_eq_some_iff.mp hbefore with ⟨hlt, hbefore⟩
      rcases List.getElem?_eq_some_iff.mp hweight with ⟨hlt', hweight⟩
      rw [← hbefore, ← hweight]
      exact pairwise_iff_getElem.mp job.spec.valid.ascend k (k + 1) hlt hlt' (by omega)

theorem inv_of_abortRollout {reason : Str} (h : job.abortRollout reason = .ok job') (hinv : Inv job)
    : Inv job' := by
  rcases abortRollout_eq_ok h with ⟨hrolling, rfl⟩
  refine ⟨fun _ => hinv.rolling hrolling, hinv.passed, hinv.unmeasured, show (-1 : Int) ≤ 0 by decide,
    fun _ => rfl, ?_⟩
  intro k hk
  change (0 : Int) = k + 1 at hk
  omega

theorem step_climbs {ports : Ports} (h : step ports job = .ok job') : Climbs job job' := by
  unfold step at h
  split at h
  . unfold evaluate at h
    simp only [bind_eq_ok_iff] at h
    rcases h with ⟨_, _, candidate, _, baseline, _, h⟩
    cases hdecide : job.spec.promotionGate.decide candidate baseline with
    | error err => simp [hdecide] at h
    | ok d =>
      rw [hdecide] at h
      exact climbs_of_evaluated hdecide h
  . rw [bind_eq_ok_iff] at h
    rcases h with ⟨_, _, h⟩
    split at h
    . rw [bind_eq_ok_iff] at h
      rcases h with ⟨run, _, h⟩
      unfold afterSubmit at h
      split at h
      . exact climbs_of_failed h
      . unfold FineTuneJob.submitted at h
        split at h
        . simp at h
        . exact climbs_of_advance h (by decide) rfl rfl
    . rw [bind_eq_ok_iff] at h
      rcases h with ⟨run, _, h⟩
      unfold afterPoll at h
      split at h
      . unfold FineTuneJob.trained at h
        split at h
        . simp at h
        . refine climbs_of_advance h ?_ rfl rfl
          split <;> decide
      . exact climbs_of_failed h
      . exact climbs_of_failed h
      . rw [← ok.inj h]
        exact .refl job

end

section

def Row.rolled (row : Row) (policy : Policy) (m : Moment) : Row :=
  (row.advanceRollout policy m).toOption.getD row

def Table.raises (t : Table) (policy : Policy) (moments : Nat → Moment) (i : Nat) : Bool :=
  t[i]?.any fun row => !(row.advanceRollout policy (moments i)).toBool

def reached (raises : Nat → Bool) : List Nat → Nat → Bool
  | [], _ => false
  | j :: rest, i => j = i || (!raises j && reached raises rest i)

def Table.judges (t : Table) (policy : Policy) (pass : Pass) (i : Nat) : Bool :=
  reached (t.raises policy pass.moments) (pass.order.filter fun i => t[i]?.any Row.candidate) i

theorem mem_of_reached {raises : Nat → Bool} {ids : List Nat} {i : Nat}
    (h : reached raises ids i = true)
    : i ∈ ids := by
  induction ids with
  | nil => simp [reached] at h
  | cons j rest ih =>
    unfold reached at h
    rw [Bool.or_eq_true, decide_eq_true_eq, Bool.and_eq_true] at h
    rw [mem_cons]
    rcases h with rfl | ⟨_, h⟩
    . exact .inl rfl
    . exact .inr (ih h)

theorem judgeAll_getElem? {policy : Policy} {moments : Nat → Moment} {ids : List Nat}
    (hids : ids.Nodup) {t t₀ : Table} (ht : ∀ k ∈ ids, t[k]? = t₀[k]?) (i : Nat)
    : (t.judgeAll policy moments ids).1[i]? = if reached (t₀.raises policy moments) ids i then
        t₀[i]?.map fun row => row.rolled policy (moments i)
      else
        t[i]? := by
  induction ids generalizing t with
  | nil => simp [Table.judgeAll, reached]
  | cons j rest ih =>
    rw [nodup_cons] at hids
    have hj := ht j mem_cons_self
    have hrest : ∀ k ∈ rest, t[k]? = t₀[k]? := fun k hk => ht k (mem_cons_of_mem _ hk)
    have hlater : reached (t₀.raises policy moments) rest j = false := by
      by_contra h
      exact hids.1 (mem_of_reached (by simpa using h))
    unfold Table.judgeAll reached
    cases hrow : t[j]? with
    | none =>
      have hraises : t₀.raises policy moments j = false := by
        unfold Table.raises
        rw [← hj, hrow]
        rfl
      rw [ih hids.2 hrest, hraises]
      by_cases hij : j = i
      . subst hij
        simp [hlater, ← hj, hrow]
      . simp [hij]
    | some row =>
      have hraises : t₀.raises policy moments j = !(row.advanceRollout policy (moments j)).toBool := by
        unfold Table.raises
        rw [← hj, hrow]
        rfl
      rw [hraises]
      cases hstep : row.advanceRollout policy (moments j) with
      | error err =>
        by_cases hij : j = i
        . subst hij
          simp [← hj, hrow, Row.rolled, hstep, Except.toOption]
        . simp [hij, hstep, Except.toBool]
      | ok row' =>
        have hset : ∀ k, k ≠ j → (t.set j row')[k]? = t[k]? :=
          fun k hk => getElem?_set_ne (Ne.symm hk)
        simp only [hstep]
        rw [ih hids.2 (fun k hk => by rw [hset k (fun h => hids.1 (h ▸ hk)), hrest k hk])]
        by_cases hij : j = i
        . subst hij
          have hlt : j < t.length := (List.getElem?_eq_some_iff.mp hrow).1
          rw [if_neg (by simp [hlater]), if_pos (by simp), getElem?_set_self hlt, ← hj, hrow]
          simp [Row.rolled, hstep, Except.toOption]
        . simp [hij, Except.toBool, hset i (Ne.symm hij)]

theorem advanceRollouts_getElem? (t : Table) (pass : Pass) (i : Nat)
    : (t.advanceRollouts pass).1[i]? = t[i]?.map fun row =>
        match pass.policy with
        | none => row
        | some policy => if t.judges policy pass i then row.rolled policy (pass.moments i) else row := by
  unfold Table.advanceRollouts
  cases pass.policy with
  | none => simp
  | some policy =>
    dsimp only
    rw [judgeAll_getElem? (pass.distinct.filter _) (fun _ _ => rfl)]
    unfold Table.judges
    split
    . rfl
    . simp

end

section

def Table.Aborts (t : Table) (i : Nat) : Op → Prop
  | .abortRollout tenant name _ _ =>
    t.find tenant name = some i ∧ ∃ row, t[i]? = some row ∧ row.job.rollingOut = true
  | .advanceRollouts pass =>
    ∃ policy row reason, pass.policy = some policy ∧ t[i]? = some row ∧
      t.judges policy pass i = true ∧ row.verdict policy (pass.moments i) = .abort reason
  | _ => False

def Moves (aborts : Prop) (row row' : Row) : Prop :=
  Inv row.job →
    Inv row'.job ∧ (¬ aborts → row.job.status.rolloutWeight ≤ row'.job.status.rolloutWeight)

theorem Moves.refl (aborts : Prop) (row : Row) : Moves aborts row row :=
  fun hinv => ⟨hinv, fun _ => Int.le_refl _⟩

variable {row : Row}

theorem Climbs.moves {job : FineTuneJob} (h : Climbs row.job job) (aborts : Prop) (now : Int)
    : Moves aborts row (row.applyStatus job.status now) := by
  intro hinv
  unfold Row.applyStatus
  rw [h.same]
  exact ⟨h.inv hinv, fun _ => h.weight hinv⟩

theorem Row.advance_moves (turn : Turn) (row : Row) (aborts : Prop)
    : Moves aborts row (row.advance turn) := by
  unfold Row.advance
  split
  . exact .refl aborts row
  . cases hsubmitting : row.submitting turn.submittedAt with
    | error err => exact .refl aborts row
    | ok row' =>
      have hdurable : Climbs row.job row'.job := by
        unfold Row.submitting at hsubmitting
        split at hsubmitting
        . rw [map_eq_ok_iff] at hsubmitting
          rcases hsubmitting with ⟨job, hjob, rfl⟩
          have hclimbs : Climbs row.job job := climbs_of_advance hjob (by decide) rfl rfl
          unfold Row.applyStatus
          rw [hclimbs.same]
          exact hclimbs
        . rw [← ok.inj hsubmitting]
          exact .refl row.job
      dsimp only
      cases hstep : step turn.ports row'.job with
      | error err => exact fun hinv => ⟨hdurable.inv hinv, fun _ => hdurable.weight hinv⟩
      | ok job =>
        have hclimbs := hdurable.trans (step_climbs hstep)
        intro hinv
        dsimp only [Row.applyStatus]
        rw [(step_climbs hstep).same]
        exact ⟨hclimbs.inv hinv, fun _ => hclimbs.weight hinv⟩

theorem Row.rolled_moves (row : Row) (policy : Policy) (m : Moment)
    : Moves (∃ reason, row.verdict policy m = .abort reason) row (row.rolled policy m) := by
  unfold Row.rolled
  cases h : row.advanceRollout policy m with
  | error err => exact .refl _ row
  | ok row' =>
    unfold Row.advanceRollout at h
    split at h
    . cases hverdict : row.verdict policy m with
      | wait =>
        rw [hverdict] at h
        rw [← ok.inj h]
        exact .refl _ row
      | advance =>
        rw [hverdict, map_eq_ok_iff] at h
        rcases h with ⟨job, hjob, rfl⟩
        exact (climbs_of_advanceRollout hjob).moves _ _
      | abort reason =>
        rw [hverdict, map_eq_ok_iff] at h
        rcases h with ⟨job, hjob, rfl⟩
        intro hinv
        refine ⟨?_, fun h => absurd ⟨reason, rfl⟩ h⟩
        have hinv' := inv_of_abortRollout hjob hinv
        rcases abortRollout_eq_ok hjob with ⟨_, rfl⟩
        exact hinv'
    . rw [← ok.inj h]
      exact .refl _ row

variable {t : Table}

theorem require_eq_ok {tenant name : Str} {i : Nat} (h : t.require tenant name = .ok (i, row))
    : t.find tenant name = some i ∧ t[i]? = some row := by
  unfold Table.require at h
  split at h
  . simp at h
  . next found hfound =>
    rw [ok.inj h] at hfound
    exact List.bind_getElem?_eq_some_iff.mp hfound

structure Table.Moved (aborts : Nat → Prop) (t t' : Table) : Prop where
  length : t'.length = t.length
  moves : ∀ i row row', t[i]? = some row → t'[i]? = some row' → Moves (aborts i) row row'

theorem Table.Moved.refl (aborts : Nat → Prop) (t : Table) : t.Moved aborts t where
  length := rfl
  moves i row row' hrow hrow' := by
    rw [hrow] at hrow'
    rw [← some.inj hrow']
    exact .refl (aborts i) row

variable {aborts : Nat → Prop}

theorem Table.Moved.of_map {t' : Table} {f : Nat → Row → Row} (h : ∀ i, t'[i]? = t[i]?.map (f i))
    (hf : ∀ i row, t[i]? = some row → Moves (aborts i) row (f i row))
    : t.Moved aborts t' where
  length := by
    apply Nat.le_antisymm
    . rw [← List.getElem?_eq_none_iff, h, getElem?_eq_none (Nat.le_refl _)]
      rfl
    . have hnone := h t'.length
      simpa using hnone.symm
  moves i row row' hrow hrow' := by
    rw [h, hrow, map_some] at hrow'
    rw [← some.inj hrow']
    exact hf i row hrow

theorem Table.Moved.of_set {i : Nat} {row' : Row} (hrow : t[i]? = some row)
    (h : Moves (aborts i) row row')
    : t.Moved aborts (t.set i row') where
  length := length_set
  moves j row₁ row₂ hrow₁ hrow₂ := by
    by_cases hij : i = j
    . subst hij
      rw [getElem?_set_self (List.getElem?_eq_some_iff.mp hrow).1] at hrow₂
      rw [hrow] at hrow₁
      rw [← some.inj hrow₁, ← some.inj hrow₂]
      exact h
    . rw [getElem?_set_ne hij, hrow₁] at hrow₂
      rw [← some.inj hrow₂]
      exact .refl (aborts j) row₁

theorem rollout_moved {tenant name : Str} {now : Int}
    {transition : FineTuneJob → Except Failure FineTuneJob}
    (h : ∀ i row job, t.find tenant name = some i → t[i]? = some row → transition row.job = .ok job →
      Moves (aborts i) row (row.applyStatus job.status now))
    : t.Moved aborts ((t.rollout tenant name now transition).toOption.getD t) := by
  cases hrollout : t.rollout tenant name now transition with
  | error err => exact .refl aborts t
  | ok t' =>
    unfold Table.rollout at hrollout
    simp only [bind_eq_ok_iff] at hrollout
    rcases hrollout with ⟨⟨i, row⟩, hrequire, job, hjob, hstore⟩
    rcases require_eq_ok hrequire with ⟨hfind, hrow⟩
    rw [← ok.inj hstore]
    exact .of_set hrow (h i row job hfind hrow hjob)

theorem cancel_moved (aborts : Nat → Prop) (t : Table) (ports : Ports) (tenant name : Str) (now : Int)
    : t.Moved aborts ((t.cancel ports tenant name now).toOption.getD t) := by
  cases hcancel : t.cancel ports tenant name now with
  | error err => exact .refl aborts t
  | ok t' =>
    unfold Table.cancel at hcancel
    rw [bind_eq_ok_iff] at hcancel
    rcases hcancel with ⟨⟨i, row⟩, hrequire, hcancel⟩
    dsimp only at hcancel
    split at hcancel
    . rw [← ok.inj hcancel]
      exact .refl aborts t
    . simp only [bind_eq_ok_iff] at hcancel
      rcases hcancel with ⟨_, _, job, hjob, hstore⟩
      rw [← ok.inj hstore]
      apply Table.Moved.of_set (require_eq_ok hrequire).2
      have hclimbs : Climbs row.job job := climbs_of_advance hjob (by decide) rfl rfl
      exact hclimbs.moves (aborts i) now

theorem reconcileOnce_moved (aborts : Nat → Prop) (t : Table) (turns : Nat → Turn)
    : t.Moved aborts (t.reconcileOnce turns) := by
  have hdistinct : t.needingWork.Nodup := nodup_range.filter _
  apply Table.Moved.of_map
    (f := fun i row => if i ∈ t.needingWork then row.advance (turns i) else row)
  . intro i
    unfold Table.reconcileOnce
    rw [List.foldl_modify_getElem? _ hdistinct]
    split
    . rfl
    . simp
  . intro i row _
    split
    . exact row.advance_moves (turns i) (aborts i)
    . exact .refl (aborts i) row

theorem advanceRollouts_moved (t : Table) (pass : Pass)
    : t.Moved (fun i => t.Aborts i (.advanceRollouts pass)) (t.advanceRollouts pass).1 := by
  apply Table.Moved.of_map (advanceRollouts_getElem? t pass)
  intro i row hrow
  cases hpolicy : pass.policy with
  | none => exact .refl _ row
  | some policy =>
    dsimp only
    split
    . next hjudges =>
      intro hinv
      rcases row.rolled_moves policy (pass.moments i) hinv with ⟨hinv', hweight⟩
      refine ⟨hinv', fun haborts => hweight ?_⟩
      rintro ⟨reason, hverdict⟩
      exact haborts ⟨policy, row, reason, hpolicy, hrow, hjudges, hverdict⟩
    . exact .refl _ row

theorem step_moved (t : Table) (op : Op)
    : t.Moved (t.Aborts · op) (t.step op) ∨ ∃ (job : FineTuneJob) (now : Int),
        t.step op = t ++ [⟨{ job with status := .init }, now⟩] := by
  cases op with
  | submit ports job now =>
    unfold Table.step
    dsimp only
    cases hsubmit : t.submit ports job now with
    | error err => exact .inl (.refl _ t)
    | ok t' =>
      right
      refine ⟨job, now, ?_⟩
      unfold Table.submit at hsubmit
      rw [ite_error_eq_ok_iff, ite_error_eq_ok_iff, bind_eq_ok_iff] at hsubmit
      rcases hsubmit with ⟨_, _, _, _, hsubmit⟩
      rw [ite_error_eq_ok_iff] at hsubmit
      exact (ok.inj hsubmit.2).symm
  | startRollout tenant name now =>
    left
    apply rollout_moved
    intro i row job _ _ hjob
    exact (climbs_of_startRollout hjob).moves _ now
  | advanceRollout tenant name now =>
    left
    apply rollout_moved
    intro i row job _ _ hjob
    exact (climbs_of_advanceRollout hjob).moves _ now
  | abortRollout tenant name reason now =>
    left
    apply rollout_moved
    intro i row job hfind hrow hjob hinv
    have hinv' := inv_of_abortRollout hjob hinv
    rcases abortRollout_eq_ok hjob with ⟨hrolling, rfl⟩
    refine ⟨hinv', fun haborts => absurd ⟨hfind, row, hrow, ?_⟩ haborts⟩
    unfold FineTuneJob.rollingOut
    rw [decide_eq_true_eq]
    exact hrolling
  | cancel ports tenant name now =>
    left
    apply cancel_moved
  | reconcileOnce turns =>
    left
    apply reconcileOnce_moved
  | advanceRollouts pass =>
    left
    apply advanceRollouts_moved

theorem step_inv (ht : ∀ row ∈ t, Inv row.job) (op : Op) : ∀ row ∈ t.step op, Inv row.job := by
  intro row' hrow'
  rcases step_moved t op with hmoved | ⟨job, now, hstep⟩
  . rcases mem_iff_getElem?.mp hrow' with ⟨i, hi⟩
    have hlt : i < t.length := hmoved.length ▸ (List.getElem?_eq_some_iff.mp hi).1
    have hrow := getElem?_eq_getElem hlt
    exact (hmoved.moves i _ row' hrow hi (ht _ (getElem_mem hlt))).1
  . rw [hstep, mem_append, mem_singleton] at hrow'
    rcases hrow' with hrow' | rfl
    . exact ht row' hrow'
    . exact .init job

theorem foldl_step_inv (ops : List Op) : ∀ row ∈ ops.foldl Table.step [], Inv row.job := by
  apply foldlRecOn (motive := fun t : Table => ∀ row ∈ t, Inv row.job)
  . simp
  . intro t ht op _
    exact step_inv ht op

theorem step_weight (ht : ∀ row ∈ t, Inv row.job) {op : Op} {i : Nat} (haborts : ¬ t.Aborts i op)
    (hrow : t[i]? = some row)
    : ∃ row', (t.step op)[i]? = some row' ∧
        row.job.status.rolloutWeight ≤ row'.job.status.rolloutWeight := by
  have hlt : i < t.length := (List.getElem?_eq_some_iff.mp hrow).1
  rcases step_moved t op with hmoved | ⟨job, now, hstep⟩
  . have hrow' := getElem?_eq_getElem (hmoved.length.symm ▸ hlt : i < (t.step op).length)
    have hmoves := hmoved.moves i row _ hrow hrow' (ht row (mem_of_getElem? hrow))
    exact ⟨_, hrow', hmoves.2 haborts⟩
  . rw [hstep, getElem?_append_left hlt]
    exact ⟨row, hrow, Int.le_refl _⟩

structure Staged (job : FineTuneJob) : Prop where
  cleared : 0 ≤ job.status.rolloutStep → job.status.phase = .ready ∧
    ∃ card, job.status.scorecard = some card ∧
      job.spec.promotionGate.Passes card job.status.baseline
  zero : job.status.rolloutStep = -1 ∨ job.status.rolloutStep = 0 → job.status.rolloutWeight = 0
  canary : ¬ (job.status.rolloutStep = -1 ∨ job.status.rolloutStep = 0) → ∃ k : Nat,
    job.status.rolloutStep = k + 1 ∧ job.spec.canarySteps[k]? = some job.status.rolloutWeight

theorem Inv.staged {job : FineTuneJob} (hinv : Inv job) : Staged job where
  cleared hstep := ⟨hinv.rolling hstep, hinv.passed (hinv.rolling hstep)⟩
  zero hstep := hinv.idle (by omega)
  canary hstep := by
    have hstarted := hinv.started
    refine ⟨job.status.rolloutStep.toNat - 1, by omega, hinv.canary _ (by omega)⟩

theorem rollouts_staged (ops : List Op)
    : (∀ row ∈ ops.foldl Table.step [], Staged row.job) ∧
      ∀ later i row, (ops.foldl Table.step [])[i]? = some row →
        Throughout Table.step (fun t op => ¬ t.Aborts i op) (ops.foldl Table.step []) later →
        ∃ row', (later.foldl Table.step (ops.foldl Table.step []))[i]? = some row' ∧
          row.job.status.rolloutWeight ≤ row'.job.status.rolloutWeight := by
  have hrows := foldl_step_inv ops
  refine ⟨fun row hrow => (hrows row hrow).staged, ?_⟩
  intro later i
  generalize ops.foldl Table.step [] = t at hrows
  induction later generalizing t with
  | nil => exact fun row hrow _ => ⟨row, hrow, Int.le_refl _⟩
  | cons op later ih =>
    intro row hrow hlater
    rcases step_weight hrows hlater.1 hrow with ⟨row', hrow', hle⟩
    rcases ih (t.step op) (step_inv hrows op) row' hrow' hlater.2 with ⟨row'', hrow'', hle'⟩
    exact ⟨row'', hrow'', Int.le_trans hle hle'⟩

end

namespace Sample

def gate : PromotionGate := ⟨8000, [], by decide, nodup_nil⟩

def spec : Spec where
  tenant := str "acme"
  baseModel := str "m"
  trainer := str "t"
  trainerVersion := str "1"
  evalSuite := str "e"
  promotionGate := gate
  canarySteps := [1, 5, 25, 100]
  shadowPercent := 10
  valid := ⟨by decide, by decide, by decide, by decide, by decide, by decide, by decide⟩

def job : FineTuneJob := ⟨str "bot", spec, .init, str "k", by decide, by decide⟩

def card : Scorecard := ⟨9000, [], str "e", str "1", by decide, nodup_nil⟩

def trainer : Trainer where
  submit _ _ _ := .ok ⟨str "r1", .running, [], 0, []⟩
  poll _ := .ok ⟨str "r1", .succeeded, str "s3://a", 7, []⟩
  cancel _ := .ok ()

def ports : Ports := ⟨fun _ => some trainer, fun _ => some fun _ => .ok card⟩

def turn : Turn := ⟨ports, 0, 0⟩

def started : List Op :=
  [.submit ports job 0, .reconcileOnce fun _ => turn, .reconcileOnce fun _ => turn,
    .reconcileOnce fun _ => turn, .startRollout (str "acme") (str "bot") 0]

def record (n : Nat) : UsageRow where
  requestID := Str.ofNat n
  tenantID := str "acme"
  keyID := str "k1"
  usage := .zero
  costMicroUSD := 0
  priceMicroUSD := 0
  outcome := []
  deployment := str "acme-bot"
  shadow := false
  baseModel := str "m"
  adapterID := str "bot"
  provider := str "p"
  stream := false
  latencyMs := 0
  timeToFirstByteMs := 0
  snapshotVersion := 1
  occurredAt := 1

def pass : Pass where
  policy := some .default
  order := [0]
  distinct := nodup_singleton 0
  moments _ := ⟨.ok ((List.range 30).map record), 3600000000, 3600000000⟩

def quiet : Pass :=
  { pass with moments := fun _ => ⟨.ok ((List.range 5).map record), 3600000000, 3600000000⟩ }

def rolling : Table := started.foldl Table.step []

def aborted : Table :=
  [Op.advanceRollout (str "acme") (str "bot") 0, Op.abortRollout (str "acme") (str "bot") [] 0].foldl
    Table.step rolling

def canary : Row :=
  ⟨{ job with status := { Status.init with
    phase := .ready, rolloutStep := 1, rolloutWeight := 1, percentage := by decide } }, 0⟩

def withdrawn : FineTuneJob :=
  { job with status := { Status.init with
    phase := .ready, rolloutStep := 0, rolloutWeight := 0, reason := str "slow" } }

end Sample

open Sample

theorem rollouts_staged_sample
    : ∃ row row', rolling = [row] ∧ Staged row.job ∧ row.job.status.rolloutStep = 0 ∧
        ([Op.advanceRollout (str "acme") (str "bot") 0].foldl Table.step rolling)[0]? = some row' ∧
        row.job.status.rolloutWeight ≤ row'.job.status.rolloutWeight := by
  have hsteps : rolling.map (fun row => row.job.status.rolloutStep) = [0] := by
    decide +kernel
  rcases map_eq_singleton_iff.mp hsteps with ⟨row, hrolling, hstep⟩
  have hrow : rolling[0]? = some row := by
    rw [hrolling]
    rfl
  rcases rollouts_staged started with ⟨hstaged, hclimbs⟩
  rcases hclimbs [.advanceRollout (str "acme") (str "bot") 0] 0 row hrow ⟨not_false, trivial⟩ with
    ⟨row', hrow', hle⟩
  exact ⟨row, row', hrolling, hstaged row (mem_of_getElem? hrow), hstep, hrow', hle⟩

section

def Table.Advances (t : Table) (i : Nat) (pass : Pass) : Prop :=
  ∃ policy row, pass.policy = some policy ∧ t[i]? = some row ∧ t.judges policy pass i = true ∧
    row.verdict policy (pass.moments i) = .advance ∧ row.job.spec.canarySteps ≠ []

def Table.next (t : Table) (pass : Pass) : Table :=
  (t.advanceRollouts pass).1

def Table.weight (t : Table) (i : Nat) : Option Int :=
  t[i]?.map fun row => row.job.status.rolloutWeight

def Table.AtZero (t : Table) (i : Nat) : Prop :=
  ∃ row, t[i]? = some row ∧ row.job.status.rolloutStep = 0 ∧ row.job.status.rolloutWeight = 0

theorem rolled_atZero {row : Row} (hstep : row.job.status.rolloutStep = 0)
    (hweight : row.job.status.rolloutWeight = 0) (policy : Policy) (m : Moment)
    : ((row.rolled policy m).job.status.rolloutWeight = 0
        ↔
      ¬ (row.verdict policy m = .advance ∧ row.job.spec.canarySteps ≠ [])) ∧
      ((row.rolled policy m).job.status.rolloutWeight = 0 →
        (row.rolled policy m).job.status.rolloutStep = 0) := by
  have hcandidate : row.candidate = true := by
    simp [Row.candidate, hstep, hweight]
  unfold Row.rolled Row.advanceRollout
  rw [if_pos hcandidate]
  cases hverdict : row.verdict policy m with
  | wait => simp [Except.toOption, hstep, hweight]
  | abort reason =>
    have habort : row.job.abortRollout reason = .ok { row.job with status := { row.job.status with
        rolloutWeight := 0, rolloutStep := 0, reason := reason, percentage := by decide } } := by
      unfold FineTuneJob.abortRollout FineTuneJob.rollingOut
      rw [if_neg (by simp [hstep])]
    simp [habort, Except.map, Except.toOption, Row.applyStatus]
  | advance =>
    cases hadvance : row.job.advanceRollout with
    | error err =>
      have hlength := length_le_of_advanceRollout_eq_error hadvance (by omega)
      rw [hstep] at hlength
      have hnil := length_eq_zero_iff.mp (Nat.le_zero.mp hlength)
      simp [Except.map, Except.toOption, hstep, hweight, hnil]
    | ok job =>
      rcases advanceRollout_eq_ok hadvance with ⟨_, weight, _, hsteps, rfl⟩
      have hpos := (row.job.spec.valid.percentages weight (mem_of_getElem? hsteps)).1
      have hne : row.job.spec.canarySteps ≠ [] := by
        intro hnil
        simp [hnil] at hsteps
      have hzero : ¬ weight = 0 := by omega
      simp [Except.map, Except.toOption, Row.applyStatus, hzero, hne]

theorem next_atZero {t : Table} {i : Nat} (h : t.AtZero i) (pass : Pass)
    : ((t.next pass).weight i = some 0 ↔ ¬ t.Advances i pass) ∧
      (¬ t.Advances i pass → (t.next pass).AtZero i) := by
  rcases h with ⟨row, hrow, hstep, hweight⟩
  have hnext := advanceRollouts_getElem? t pass i
  rw [hrow, map_some] at hnext
  have hadvances : t.Advances i pass ↔ ∃ policy, pass.policy = some policy ∧
      t.judges policy pass i = true ∧ row.verdict policy (pass.moments i) = .advance ∧
      row.job.spec.canarySteps ≠ [] := by
    unfold Table.Advances
    simp only [hrow, some.injEq, exists_and_left, exists_eq_left']
  rw [hadvances]
  unfold Table.weight Table.AtZero Table.next
  rw [hnext]
  cases hpolicy : pass.policy with
  | none => simp [hstep, hweight]
  | some policy =>
    cases hjudges : t.judges policy pass i with
    | false => simp [hjudges, hstep, hweight]
    | true =>
      rcases rolled_atZero hstep hweight policy (pass.moments i) with ⟨hrolled, hkeep⟩
      simp only [map_some, some.injEq, exists_eq_left', hjudges, if_true, true_and, hrolled]
      exact fun h => ⟨hkeep (hrolled.mpr h), h⟩

theorem aborted_stays_iff {row : Row} {job : FineTuneJob} {reason : Str} {now : Int}
    (habort : row.job.abortRollout reason = .ok job) {t : Table} {i : Nat}
    (hrow : t[i]? = some (row.applyStatus job.status now)) (passes : List Pass)
    : Throughout Table.next (fun t pass => (t.next pass).weight i = some 0) t passes
        ↔
      Throughout Table.next (fun t pass => ¬ t.Advances i pass) t passes := by
  have hzero : t.AtZero i := by
    rcases abortRollout_eq_ok habort with ⟨_, rfl⟩
    exact ⟨_, hrow, rfl, rfl⟩
  exact @throughout_iff _ _ Table.next (fun t => t.AtZero i) (fun t => t.weight i = some 0)
    (fun t pass => ¬ t.Advances i pass) (fun _ pass h => next_atZero h pass) passes t hzero

theorem aborted_stays_quiet
    : Throughout Table.next (fun t pass => (t.next pass).weight 0 = some 0)
        [canary.applyStatus withdrawn.status 0] [quiet] := by
  have habort : canary.job.abortRollout (str "slow") = .ok withdrawn := rfl
  have hwait : (canary.applyStatus withdrawn.status 0).verdict .default (quiet.moments 0) ≠ .advance := by
    decide +kernel
  refine (aborted_stays_iff habort rfl _).mpr ⟨?_, trivial⟩
  rintro ⟨policy, row, hpolicy, hrow, _, hverdict, _⟩
  rw [← Option.some.inj hpolicy, ← Option.some.inj hrow] at hverdict
  exact hwait hverdict

theorem aborted_returns : aborted.weight 0 = some 0 ∧ (aborted.next pass).weight 0 = some 1 := by
  decide +kernel

end

end ModelGateway.Control.FineTune
