import ModelGateway.Control.Adapters
import ModelGateway.Control.RolloutRuns
import ModelGateway.Lib.Split

namespace ModelGateway.Control

open List Except

open FineTune (FineTuneJob)
open List (Overlaps)

section

def hosted (base : List Deployment) (jobs : List FineTuneJob) : List (Deployment × FineTuneJob) :=
  jobs.filterMap fun job =>
    if job.rollingOut then (hostOf base job.spec.baseModel).map fun host => (host, job) else none

def adapterName (job : FineTuneJob) : Str :=
  job.spec.tenant ++ 0x2d :: job.name

def adapterID (host : Deployment) (job : FineTuneJob) : Str :=
  host.id ++ 0x2b :: adapterName job

def adapterOf (placed : Deployment × FineTuneJob) : Deployment :=
  { placed.1 with
    id := adapterID placed.1 placed.2
    key := ⟨placed.2.spec.baseModel, placed.2.name⟩
    weight := placed.2.status.rolloutWeight
    shadowPercent :=
      if placed.2.status.rolloutWeight = 0 then placed.2.spec.shadowPercent else 0 }

theorem postInit_eq_self_iff {d : Deployment}
    : d.postInit = .ok d
        ↔
      d.id ≠ [] ∧ d.provider ≠ [] ∧ d.trustTier ≠ .unset ∧ 0 ≤ d.weight ∧ d.weight ≤ 100 := by
  unfold Deployment.postInit
  simp only [ite_error_eq_ok_iff]
  split
  . next hweight => simp [hweight]
  . next hweight => simp [hweight]

variable {deployments : List DeploymentRow} {base : List Deployment}

theorem hostOf_postInit (hbase : deployments.mapM toDeployment = .ok base) {baseModel : Str}
    {host : Deployment} (h : hostOf base baseModel = some host)
    : host.postInit = .ok host ∧ host.key = ⟨baseModel, []⟩ := by
  have hmem := mem_of_getLast? h
  rw [mem_filter, decide_eq_true_eq] at hmem
  rcases hmem with ⟨hmem, hadapter, hmodel⟩
  rcases List.mem_of_mapM_ok _ hbase hmem with ⟨row, _, hrow⟩
  unfold toDeployment at hrow
  simp only [bind_eq_ok_iff] at hrow
  rcases hrow with ⟨_, _, _, _, _, _, _, _, hrow⟩
  refine ⟨?_, ?_⟩
  . rw [← postInit_eq_ok hrow] at hrow
    exact hrow
  . rw [← hadapter, ← hmodel]

theorem adapterDeployment_eq {host : Deployment} (hhost : host.postInit = .ok host)
    (job : FineTuneJob)
    : adapterDeployment host job.row = .ok (adapterOf (host, job)) := by
  have hid : host.id ++ str "+" ++ job.spec.tenant ++ str "-" ++ job.name = adapterID host job := by
    simp only [append_assoc]
    rfl
  have hmodel : job.row.baseModel ≠ [] := job.spec.valid.baseModel
  rw [postInit_eq_self_iff] at hhost
  unfold adapterDeployment routingKey
  rw [if_neg hmodel, bind_eq_ok_iff]
  refine ⟨_, rfl, ?_⟩
  dsimp only [FineTuneJob.row]
  rw [hid]
  apply postInit_eq_self_iff.mpr
  refine ⟨?_, hhost.2.1, hhost.2.2.1, job.status.percentage⟩
  unfold adapterID
  simp

theorem adapterDeployments_eq (hbase : deployments.mapM toDeployment = .ok base)
    (jobs : List FineTuneJob)
    : adapterDeployments base (jobs.map (·.row)) = .ok ((hosted base jobs).map adapterOf) := by
  unfold adapterDeployments
  rw [bind_eq_ok_iff]
  refine ⟨(jobs.filter (·.rollingOut)).map fun job =>
    (hostOf base job.spec.baseModel).map fun host => adapterOf (host, job), ?_, ?_⟩
  . rw [List.mapM_eq_ok_iff_forall₂, filter_map, forall₂_map_left_iff, forall₂_map_right_iff]
    apply forall₂_same.mpr
    intro job _
    dsimp only [FineTuneJob.row]
    cases hhost : hostOf base job.spec.baseModel with
    | none => rfl
    | some host =>
      have hadapter := adapterDeployment_eq (hostOf_postInit hbase hhost).1 job
      dsimp only [FineTuneJob.row] at hadapter
      dsimp only
      rw [hadapter]
      rfl
  . unfold hosted
    rw [filterMap_map, filterMap_filter, map_filterMap]
    apply congrArg Except.ok
    apply filterMap_congr
    intro job _
    split
    . rw [Option.map_map]
      rfl
    . rfl

end

section

structure Separate (placed placed' : Deployment × FineTuneJob) : Prop where
  route : ¬ (placed.2.spec.baseModel = placed'.2.spec.baseModel ∧ placed.2.name = placed'.2.name)
  dash : placed.1.id = placed'.1.id →
    ¬ Overlaps 0x2d placed.2.spec.tenant placed.2.name placed'.2.spec.tenant placed'.2.name ∧
    ¬ Overlaps 0x2d placed'.2.spec.tenant placed'.2.name placed.2.spec.tenant placed.2.name
  plus :
    ¬ Overlaps 0x2b placed.1.id (adapterName placed.2) placed'.1.id (adapterName placed'.2) ∧
    ¬ Overlaps 0x2b placed'.1.id (adapterName placed'.2) placed.1.id (adapterName placed.2)

theorem adapterOf_ne_iff {placed placed' : Deployment × FineTuneJob}
    (h : (placed.2.spec.tenant, placed.2.name) ≠ (placed'.2.spec.tenant, placed'.2.name))
    : (adapterOf placed).id ≠ (adapterOf placed').id ∧ (adapterOf placed).key ≠ (adapterOf placed').key
        ↔
      Separate placed placed' := by
  rw [Ne, Prod.mk.injEq] at h
  have hid : (adapterOf placed).id = (adapterOf placed').id ↔
      (placed.1.id = placed'.1.id ∧
        (Overlaps 0x2d placed.2.spec.tenant placed.2.name placed'.2.spec.tenant placed'.2.name ∨
          Overlaps 0x2d placed'.2.spec.tenant placed'.2.name placed.2.spec.tenant placed.2.name)) ∨
      Overlaps 0x2b placed.1.id (adapterName placed.2) placed'.1.id (adapterName placed'.2) ∨
      Overlaps 0x2b placed'.1.id (adapterName placed'.2) placed.1.id (adapterName placed.2) := by
    unfold adapterOf adapterID
    rw [List.append_cons_eq_append_cons_iff]
    refine or_congr (and_congr_right fun _ => ?_) Iff.rfl
    unfold adapterName
    rw [List.append_cons_eq_append_cons_iff, or_iff_right h]
  have hkey : (adapterOf placed).key = (adapterOf placed').key ↔
      placed.2.spec.baseModel = placed'.2.spec.baseModel ∧ placed.2.name = placed'.2.name := by
    unfold adapterOf
    simp only [RoutingKey.mk.injEq]
  rw [Ne, Ne, hid, hkey]
  constructor
  . rintro ⟨hids, hkeys⟩
    rw [not_or, not_or] at hids
    refine ⟨hkeys, fun hhost => ?_, hids.2⟩
    rw [← not_or]
    exact fun hoverlap => hids.1 ⟨hhost, hoverlap⟩
  . rintro ⟨hroute, hdash, hplus⟩
    refine ⟨?_, hroute⟩
    rintro (⟨hhost, hoverlap⟩ | hoverlap)
    . rcases hoverlap with hoverlap | hoverlap
      . exact (hdash hhost).1 hoverlap
      . exact (hdash hhost).2 hoverlap
    . rcases hoverlap with hoverlap | hoverlap
      . exact hplus.1 hoverlap
      . exact hplus.2 hoverlap

variable {jobs : List FineTuneJob}

theorem hosted_pairwise (base : List Deployment)
    (h : (jobs.map fun job => (job.spec.tenant, job.name)).Nodup)
    : (hosted base jobs).Pairwise fun placed placed' =>
        (placed.2.spec.tenant, placed.2.name) ≠ (placed'.2.spec.tenant, placed'.2.name) := by
  have hmem : ∀ {job : FineTuneJob} {placed : Deployment × FineTuneJob},
      (if job.rollingOut then (hostOf base job.spec.baseModel).map fun host => (host, job) else none)
        = some placed → placed.2 = job := by
    intro job placed hplaced
    split at hplaced
    . rw [Option.map_eq_some_iff] at hplaced
      rcases hplaced with ⟨host, _, rfl⟩
      rfl
    . simp at hplaced
  unfold hosted
  rw [pairwise_filterMap]
  rw [List.Nodup, pairwise_map] at h
  apply h.imp
  intro job job' hne placed hplaced placed' hplaced'
  rw [hmem hplaced, hmem hplaced']
  exact hne

theorem firstDuplicate_eq_none_iff {seen : List Str} {deployments : List Deployment}
    : Database.buildDeployments.firstDuplicate seen deployments = none
        ↔
      (deployments.map (·.id)).Nodup ∧ ∀ d ∈ deployments, d.id ∉ seen := by
  induction deployments generalizing seen with
  | nil => exact iff_of_true rfl ⟨nodup_nil, by simp⟩
  | cons d rest ih =>
    change (if d.id ∈ seen then some d.id
      else Database.buildDeployments.firstDuplicate (d.id :: seen) rest) = none ↔ _
    rw [map_cons, nodup_cons, forall_mem_cons]
    split
    . next hseen => simp [hseen]
    . next hseen =>
      rw [ih]
      simp only [mem_cons, not_or, mem_map, not_exists, not_and, hseen, not_false_eq_true, true_and]
      constructor
      . rintro ⟨hnodup, hrest⟩
        exact ⟨⟨fun d' hd' => (hrest d' hd').1, hnodup⟩, fun d' hd' => (hrest d' hd').2⟩
      . rintro ⟨⟨hne, hnodup⟩, hrest⟩
        exact ⟨hnodup, fun d' hd' => ⟨hne d' hd', hrest d' hd'⟩⟩

variable {deployments : List DeploymentRow} {base : List Deployment}

theorem map_id_of_toDeployment (h : deployments.mapM toDeployment = .ok base)
    : base.map (·.id) = deployments.map (·.id) := by
  rw [List.mapM_eq_ok_iff_forall₂] at h
  induction h with
  | nil => rfl
  | cons hrow _ ih =>
    unfold toDeployment at hrow
    simp only [bind_eq_ok_iff] at hrow
    rcases hrow with ⟨_, _, _, _, _, _, _, _, hrow⟩
    rw [map_cons, map_cons, ih, postInit_eq_ok hrow]

structure Apart (base adapters : List Deployment) : Prop where
  own : adapters.Pairwise fun d d' => d.id ≠ d'.id ∧ d.key ≠ d'.key
  fresh : ∀ d ∈ adapters, ∀ stored ∈ base, d.id ≠ stored.id

theorem apart_hosted_iff (hbase : deployments.mapM toDeployment = .ok base)
    (hjobs : (jobs.map fun job => (job.spec.tenant, job.name)).Nodup)
    : Apart base ((hosted base jobs).map adapterOf) ↔ (hosted base jobs).Pairwise Separate ∧
        ∀ placed ∈ hosted base jobs, adapterID placed.1 placed.2 ∉ deployments.map (·.id) := by
  have hdistinct := hosted_pairwise base hjobs
  rw [← map_id_of_toDeployment hbase]
  constructor
  . rintro ⟨hown, hfresh⟩
    rw [pairwise_map] at hown
    refine ⟨(hdistinct.and hown).imp fun h => (adapterOf_ne_iff h.1).mp h.2, ?_⟩
    intro placed hplaced hmem
    rcases mem_map.mp hmem with ⟨stored, hstored, hid⟩
    exact hfresh _ (mem_map_of_mem hplaced) stored hstored hid.symm
  . rintro ⟨hseparate, hfresh⟩
    refine ⟨?_, ?_⟩
    . rw [pairwise_map]
      exact (hdistinct.and hseparate).imp fun h => (adapterOf_ne_iff h.1).mpr h.2
    . intro d hd stored hstored hid
      rcases mem_map.mp hd with ⟨placed, hplaced, rfl⟩
      exact hfresh placed hplaced (mem_map.mpr ⟨stored, hstored, hid.symm⟩)

theorem Apart.nodup {adapters : List Deployment} (h : Apart base adapters)
    (hids : (base.map (·.id)).Nodup)
    : ((base ++ adapters).map (·.id)).Nodup := by
  rw [map_append, nodup_append]
  refine ⟨hids, ?_, ?_⟩
  . rw [List.Nodup, pairwise_map]
    exact h.own.imp And.left
  . intro id hid id' hid' heq
    rcases mem_map.mp hid with ⟨stored, hstored, rfl⟩
    rcases mem_map.mp hid' with ⟨d, hd, rfl⟩
    exact h.fresh d hd stored hstored heq.symm

theorem adapters_apart_iff {deployments : List DeploymentRow} {base : List Deployment}
    (hbase : deployments.mapM toDeployment = .ok base) (hids : (deployments.map (·.id)).Nodup)
    {jobs : List FineTuneJob} (hjobs : (jobs.map fun job => (job.spec.tenant, job.name)).Nodup)
    : ∃ adapters, adapterDeployments base (jobs.map (·.row)) = .ok adapters ∧
        (Apart base adapters ↔ (hosted base jobs).Pairwise Separate ∧
          ∀ placed ∈ hosted base jobs, adapterID placed.1 placed.2 ∉ deployments.map (·.id)) ∧
        (Apart base adapters → (Database.mk deployments (jobs.map (·.row))).buildDeployments
            =
          (base ++ adapters).mapM encodeDeployment) := by
  refine ⟨_, adapterDeployments_eq hbase jobs, apart_hosted_iff hbase hjobs, ?_⟩
  intro hapart
  rw [← map_id_of_toDeployment hbase] at hids
  have hfirst : Database.buildDeployments.firstDuplicate []
      (base ++ (hosted base jobs).map adapterOf) = none :=
    firstDuplicate_eq_none_iff.mpr ⟨hapart.nodup hids, by simp⟩
  have hload : (Database.mk deployments (jobs.map (·.row))).loadDeployments
      = .ok (base ++ (hosted base jobs).map adapterOf) := by
    unfold Database.loadDeployments
    rw [hbase]
    simp only [bind, Except.bind]
    rw [adapterDeployments_eq hbase jobs]
    rfl
  unfold Database.buildDeployments
  rw [hload]
  simp only [bind, Except.bind, hfirst]

end

deriving instance DecidableEq for Deployment

namespace Sample

def stored : List DeploymentRow :=
  [⟨str "h", str "m", [], str "p", str "https://p", str "r", 1, str "ref", 100, ⟨0, 0, 0, 0⟩, []⟩]

def base : List Deployment :=
  [⟨str "h", ⟨str "m", []⟩, str "p", str "https://p", str "r", 1, str "ref", 100, 0, ⟨0, 0, 0, 0⟩, []⟩]

def trainable (tenant name key : Str) (htenant : tenant ≠ []) (hname : FineTune.isName name = true)
    (hkey : key ≠ [])
    : FineTuneJob :=
  ⟨name, { FineTune.Sample.spec with
    tenant := tenant, valid := { FineTune.Sample.spec.valid with tenant := htenant } },
    .init, key, hname, hkey⟩

def rollOut (job job' : FineTuneJob) : List FineTuneJob :=
  let ops : List FineTune.Op :=
    [.submit FineTune.Sample.ports job 0, .submit FineTune.Sample.ports job' 0,
      .reconcileOnce fun _ => FineTune.Sample.turn, .reconcileOnce fun _ => FineTune.Sample.turn,
      .reconcileOnce fun _ => FineTune.Sample.turn, .startRollout job.spec.tenant job.name 0,
      .startRollout job'.spec.tenant job'.name 0]
  (ops.foldl FineTune.Table.step []).map (·.job)

def dashed : List FineTuneJob :=
  rollOut (trainable (str "acme") (str "eu-bot") (str "k1") (by decide) (by decide) (by decide))
    (trainable (str "acme-eu") (str "bot") (str "k2") (by decide) FineTune.Sample.job.named (by decide))

def namesakes : List FineTuneJob :=
  rollOut (trainable (str "acme") (str "bot") (str "k1") (by decide) FineTune.Sample.job.named (by decide))
    (trainable (str "beta") (str "bot") (str "k2") (by decide) FineTune.Sample.job.named (by decide))

def strangers : List FineTuneJob :=
  rollOut (trainable (str "acme") (str "bot") (str "k1") (by decide) FineTune.Sample.job.named (by decide))
    (trainable (str "beta") (str "owl") (str "k2") (by decide) (by decide) (by decide))

end Sample

open Sample

theorem adapters_apart_strangers
    : (hosted base strangers).length = 2 ∧ (hosted base strangers).Pairwise Separate := by
  refine ⟨by decide +kernel, ?_⟩
  have hbase : stored.mapM toDeployment = .ok base := by
    decide +kernel
  have hjobs : (strangers.map fun job => (job.spec.tenant, job.name)).Nodup := by
    decide +kernel
  rcases adapters_apart_iff hbase (by decide) hjobs with ⟨_, hadapters, hiff, _⟩
  rw [← ok.inj hadapters] at hiff
  exact (hiff.mp ⟨by decide +kernel, by decide +kernel⟩).1

theorem adapters_collide
    : (Database.mk stored (dashed.map (·.row))).buildDeployments
        = .error (.invalidRequest (str "duplicate deployment id 'h+acme-eu-bot'")) ∧
      namesakes.map (fun job => (job.spec.tenant, job.rollingOut))
        = [(str "acme", true), (str "beta", true)] ∧
      (adapterDeployments base (namesakes.map (·.row))).map (List.map (·.key))
        = .ok [⟨str "m", str "bot"⟩, ⟨str "m", str "bot"⟩] := by
  refine ⟨?_, ?_, ?_⟩
  . decide +kernel
  . decide +kernel
  . decide +kernel

end ModelGateway.Control
