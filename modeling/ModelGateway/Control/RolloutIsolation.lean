import ModelGateway.Control.RolloutRuns

namespace ModelGateway.Control.FineTune

open List

def Row.idle (row : Row) : Row :=
  { row with job := { row.job with status := { row.job.status with rolloutStep := -1 } } }

def Table.without (t : Table) (j : Nat) : Table :=
  t.modify j Row.idle

def Row.Raises (row : Row) (policy : Policy) (m : Moment) : Prop :=
  row.candidate = true ∧
    ((∃ err, m.records = .error err) ∨ ∃ err, row.advanceRollout policy m = .error err)

def Table.Isolates (t : Table) (pass : Pass) : Prop :=
  ∀ policy, pass.policy = some policy → ∀ j ∈ pass.order, ∀ row, t[j]? = some row →
    row.Raises policy (pass.moments j) →
    (t.advanceRollouts pass).2 = none ∧
    ∀ i, i ≠ j → (t.advanceRollouts pass).1[i]? = ((t.without j).advanceRollouts pass).1[i]?

def Row.HasStep (row : Row) (policy : Policy) (m : Moment) : Prop :=
  row.candidate = true → row.verdict policy m = .advance →
    row.job.status.rolloutStep.toNat < row.job.spec.canarySteps.length

theorem Row.rollingOut_of_candidate {row : Row} (h : row.candidate = true) : row.job.rollingOut = true := by
  unfold Row.candidate at h
  rw [Bool.and_eq_true] at h
  exact h.1

theorem FineTuneJob.advanceRollout_toBool {job : FineTuneJob} (h : job.rollingOut = true)
    : job.advanceRollout.toBool = decide (job.status.rolloutStep.toNat < job.spec.canarySteps.length) := by
  cases hadvance : job.advanceRollout with
  | error err =>
    have hlength := length_le_of_advanceRollout_eq_error hadvance (of_decide_eq_true h)
    exact (decide_eq_false (Nat.not_lt_of_le hlength)).symm
  | ok job' =>
    rcases advanceRollout_eq_ok hadvance with ⟨_, _, _, hstep, _⟩
    exact (decide_eq_true (List.getElem?_eq_some_iff.mp hstep).1).symm

theorem Row.hasStep_iff (row : Row) (policy : Policy) (m : Moment)
    : row.HasStep policy m ↔ (row.advanceRollout policy m).toBool = true := by
  unfold Row.HasStep Row.advanceRollout
  by_cases hcandidate : row.candidate = true
  . have hrolling := Row.rollingOut_of_candidate hcandidate
    rw [if_pos hcandidate]
    cases row.verdict policy m with
    | wait => simp [Except.toBool]
    | abort reason => simp [FineTuneJob.abortRollout, hrolling, Except.map, Except.toBool]
    | advance =>
      have hstep := FineTuneJob.advanceRollout_toBool hrolling
      cases hadvance : row.job.advanceRollout with
      | error err =>
        rw [hadvance] at hstep
        simpa [hcandidate, Except.map, Except.toBool] using hstep
      | ok job =>
        rw [hadvance] at hstep
        simpa [hcandidate, Except.map, Except.toBool] using hstep
  . simp [hcandidate, Except.toBool]

variable {t : Table} {policy : Policy} {moments : Nat → Moment}

theorem raises_set {i j : Nat} (h : i ≠ j) (row : Row)
    : Table.raises (t.set j row) policy moments i = t.raises policy moments i := by
  unfold Table.raises
  rw [getElem?_set_ne h.symm]

theorem judgeAll_snd_eq_none_iff {ids : List Nat} (hids : ids.Nodup) (t : Table)
    : (t.judgeAll policy moments ids).2 = none ↔ ∀ i ∈ ids, t.raises policy moments i = false := by
  induction ids generalizing t with
  | nil => simp [Table.judgeAll]
  | cons j rest ih =>
    rw [nodup_cons] at hids
    rw [forall_mem_cons]
    unfold Table.judgeAll
    cases hrow : t[j]? with
    | none =>
      have hraises : t.raises policy moments j = false := by
        unfold Table.raises
        rw [hrow]
        rfl
      rw [ih hids.2, and_iff_right hraises]
    | some row =>
      have hraises : t.raises policy moments j = !(row.advanceRollout policy (moments j)).toBool := by
        unfold Table.raises
        rw [hrow]
        rfl
      rw [hraises]
      cases hstep : row.advanceRollout policy (moments j) with
      | error err => simp [hstep, Except.toBool]
      | ok row' =>
        have hothers : ∀ i ∈ rest, Table.raises (t.set j row') policy moments i = t.raises policy moments i := by
          intro i hi
          apply raises_set
          rintro rfl
          exact hids.1 hi
        simp only [hstep]
        rw [ih hids.2]
        simp only [Except.toBool, Bool.not_true, true_and]
        exact forall₂_congr fun i hi => by rw [hothers i hi]

theorem reached_eq_mem {raises : Nat → Bool} {ids : List Nat} (h : ∀ i ∈ ids, raises i = false) (i : Nat)
    : reached raises ids i = decide (i ∈ ids) := by
  induction ids with
  | nil => rfl
  | cons j rest ih =>
    rw [forall_mem_cons] at h
    unfold reached
    rw [ih h.2, h.1, Bool.not_false, Bool.true_and]
    by_cases hij : j = i
    . simp [hij]
    . simp [hij, Ne.symm hij]

theorem without_getElem? (t : Table) {i j : Nat} (h : i ≠ j) : (t.without j)[i]? = t[i]? := by
  unfold Table.without
  simp [h.symm]

theorem without_getElem?_self (t : Table) (j : Nat) : (t.without j)[j]? = t[j]?.map Row.idle := by
  unfold Table.without
  simp

variable {pass : Pass}

theorem candidates_calm
    (h : ∀ j ∈ pass.order, ∀ row, t[j]? = some row → row.HasStep policy (pass.moments j))
    : ∀ i ∈ pass.order.filter (fun i => t[i]?.any Row.candidate), t.raises policy pass.moments i = false := by
  intro i hi
  unfold Table.raises
  cases hrow : t[i]? with
  | none => rfl
  | some row =>
    have hstep := (Row.hasStep_iff row policy _).1 (h i (mem_filter.mp hi).1 row hrow)
    simp [hstep]

theorem advanceRollouts_getElem?_of_hasStep (hpolicy : pass.policy = some policy)
    (h : ∀ j ∈ pass.order, ∀ row, t[j]? = some row → row.HasStep policy (pass.moments j)) (i : Nat)
    : (t.advanceRollouts pass).1[i]? = t[i]?.map fun row =>
        if i ∈ pass.order ∧ row.candidate = true then row.rolled policy (pass.moments i) else row := by
  rw [advanceRollouts_getElem?, hpolicy]
  dsimp only
  unfold Table.judges
  rw [reached_eq_mem (candidates_calm h)]
  cases hrow : t[i]? with
  | none => rfl
  | some row => simp [hrow]

theorem hasStep_without
    (h : ∀ j ∈ pass.order, ∀ row, t[j]? = some row → row.HasStep policy (pass.moments j)) (j : Nat)
    : ∀ i ∈ pass.order, ∀ row, (t.without j)[i]? = some row → row.HasStep policy (pass.moments i) := by
  intro i hi row hrow
  by_cases hij : i = j
  . subst hij
    rw [without_getElem?_self, Option.map_eq_some_iff] at hrow
    rcases hrow with ⟨_, _, rfl⟩
    intro hcandidate
    cases hcandidate
  . rw [without_getElem? t hij] at hrow
    exact h i hi row hrow

theorem rollouts_isolated_iff (t : Table) (pass : Pass)
    : t.Isolates pass ↔ ∀ policy, pass.policy = some policy →
        ∀ j ∈ pass.order, ∀ row, t[j]? = some row → row.HasStep policy (pass.moments j) := by
  constructor
  . intro hisolates policy hpolicy j hj row hrow
    rw [Row.hasStep_iff]
    cases hstep : row.advanceRollout policy (pass.moments j) with
    | ok row' => rfl
    | error err =>
      have hcandidate : row.candidate = true := by
        by_contra hidle
        unfold Row.advanceRollout at hstep
        rw [if_neg hidle] at hstep
        cases hstep
      have hcompletes := (hisolates policy hpolicy j hj row hrow ⟨hcandidate, .inr ⟨err, hstep⟩⟩).1
      unfold Table.advanceRollouts at hcompletes
      rw [hpolicy] at hcompletes
      have hcalm := (judgeAll_snd_eq_none_iff (pass.distinct.filter _) t).mp hcompletes j
        (mem_filter.mpr ⟨hj, by simp [hrow, hcandidate]⟩)
      unfold Table.raises at hcalm
      simp [hrow, hstep, Except.toBool] at hcalm
  . intro hsteps policy hpolicy j _ row _ _
    have hstep := hsteps policy hpolicy
    constructor
    . unfold Table.advanceRollouts
      rw [hpolicy]
      exact (judgeAll_snd_eq_none_iff (pass.distinct.filter _) t).mpr (candidates_calm hstep)
    . intro i hij
      rw [advanceRollouts_getElem?_of_hasStep hpolicy hstep]
      rw [advanceRollouts_getElem?_of_hasStep hpolicy (hasStep_without hstep j)]
      rw [without_getElem? t hij]

namespace Sample

def stuck : FineTuneJob :=
  { job with
    name := str "stuck"
    idempotencyKey := str "s"
    keyed := by decide
    named := by decide
    spec := { spec with canarySteps := [], valid := ⟨by decide, by decide, by decide, by decide, by decide,
      by decide, by decide⟩ } }

def beside : List Op :=
  [.submit ports stuck 0, .submit ports job 0, .reconcileOnce fun _ => turn, .reconcileOnce fun _ => turn,
    .reconcileOnce fun _ => turn, .startRollout (str "acme") (str "stuck") 0, .startRollout (str "acme") (str "bot") 0]

def besides : Pass where
  policy := some .default
  order := [0, 1]
  distinct := by decide
  moments _ := ⟨.ok ((List.range 30).map record ++ (List.range 30).map fun n =>
    { record (30 + n) with deployment := str "acme-stuck" }), 3600000000, 3600000000⟩

end Sample

open Sample

theorem stuck_rollout_stops_pass
    : let t := beside.foldl Table.step []
      (t.advanceRollouts besides).2.isSome = true ∧
      (t.advanceRollouts besides).1.weight 1 = some 0 ∧
      ((t.without 0).advanceRollouts besides).1.weight 1 = some 1 ∧
      ¬ t.Isolates besides := by
  intro t
  have hstopped : (t.advanceRollouts besides).2.isSome = true := by decide +kernel
  refine ⟨hstopped, by decide +kernel, by decide +kernel, ?_⟩
  intro hisolates
  have hraises : (t[0]?.any fun row => row.candidate &&
      !(row.advanceRollout .default (besides.moments 0)).toBool) = true := by
    decide +kernel
  rw [Option.any_eq_true] at hraises
  rcases hraises with ⟨row, hrow, hraises⟩
  rw [Bool.and_eq_true, Bool.not_eq_true'] at hraises
  have hcompletes := (hisolates .default rfl 0 mem_cons_self row hrow ⟨hraises.1, .inr ?_⟩).1
  . rw [hcompletes] at hstopped
    cases hstopped
  . cases hstep : row.advanceRollout .default (besides.moments 0) with
    | error err => exact ⟨err, rfl⟩
    | ok row' =>
      rw [hstep] at hraises
      cases hraises.2

end ModelGateway.Control.FineTune
