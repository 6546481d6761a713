import ModelGateway.Control.Catalog
import ModelGateway.Core.Acceptance
import ModelGateway.Gateway.PipelineLemmas
import ModelGateway.Gateway.Pipeline

namespace ModelGateway.Control

open Except List
open Gateway (Pipeline Ports World Request)

def AdapterOf (row : FineTuneJobRow) (d : ModelGateway.Deployment) : Prop :=
  ∃ host adapter m, adapterDeployment host row = .ok adapter ∧ encodeDeployment adapter = .ok m ∧
    d = decodeDeployment m

structure Shadowing (row : FineTuneJobRow) : Prop where
  rolling : 0 ≤ row.rolloutStep
  weight : row.rolloutWeight = 0
  share : 0 < row.shadowPercent

variable {d : Deployment}

theorem postInit_eq_ok {d' : Deployment} (h : d.postInit = .ok d') : d' = d := by
  unfold Deployment.postInit at h
  split at h
  . simp at h
  . split at h
    . simp at h
    . split at h
      . simp at h
      . split at h
        . apply (ok.inj h).symm
        . simp at h

theorem toDeployment_shadowPercent {row : DeploymentRow} (h : toDeployment row = .ok d)
    : d.shadowPercent = 0 := by
  unfold toDeployment at h
  simp only [bind_eq_ok_iff] at h
  rcases h with ⟨_, _, _, _, _, _, _, _, h⟩
  rw [postInit_eq_ok h]

theorem adapterDeployment_eq_ok {host : Deployment} {row : FineTuneJobRow}
    (h : adapterDeployment host row = .ok d)
    : d.key = ⟨row.baseModel, row.name⟩ ∧
      d.shadowPercent = if row.rolloutWeight = 0 then row.shadowPercent else 0 := by
  unfold adapterDeployment at h
  rw [bind_eq_ok_iff] at h
  rcases h with ⟨key, hkey, h⟩
  rw [postInit_eq_ok h]
  unfold routingKey at hkey
  split at hkey
  . simp at hkey
  . exact ⟨(ok.inj hkey).symm, rfl⟩

theorem mem_adapterDeployments {base adapters : List Deployment} {jobs : List FineTuneJobRow}
    (h : adapterDeployments base jobs = .ok adapters) (hd : d ∈ adapters)
    : ∃ row ∈ jobs, 0 ≤ row.rolloutStep ∧
        ∃ host, hostOf base row.baseModel = some host ∧ adapterDeployment host row = .ok d := by
  unfold adapterDeployments at h
  rw [bind_eq_ok_iff] at h
  rcases h with ⟨_, hfound, h⟩
  rw [← ok.inj h, mem_filterMap] at hd
  rcases hd with ⟨d', hd', rfl⟩
  rcases mem_of_mapM_ok _ hfound hd' with ⟨row, hrow, hmade⟩
  rw [mem_filter] at hrow
  split at hmade
  . simp at hmade
  . next host hhost =>
    refine ⟨row, hrow.1, of_decide_eq_true hrow.2, host, hhost, ?_⟩
    cases hadapter : adapterDeployment host row with
    | error e =>
      rw [hadapter] at hmade
      simp [Except.map] at hmade
    | ok adapter =>
      rw [hadapter] at hmade
      simp only [Except.map, ok.injEq, Option.some.injEq] at hmade
      exact congrArg _ hmade

theorem buildDeployments_shadowing {db : Database} {messages : List DeploymentMsg}
    (hbuild : db.buildDeployments = .ok messages) {d : ModelGateway.Deployment}
    (hd : d ∈ messages.map decodeDeployment) (hshadowing : d.shadowing = true)
    : ∃ row ∈ db.finetuneJobs, Shadowing row ∧ row.baseModel = d.key.baseModel ∧
        AdapterOf row d := by
  rw [mem_map] at hd
  rcases hd with ⟨m, hm, rfl⟩
  unfold Database.buildDeployments at hbuild
  rw [bind_eq_ok_iff] at hbuild
  rcases hbuild with ⟨_, hload, hbuild⟩
  split at hbuild
  . simp at hbuild
  . rcases mem_of_mapM_ok _ hbuild hm with ⟨d, hd, hencode⟩
    rcases encodeDeployment_eq_ok hencode with ⟨_, hkey, _, _, hpercent⟩
    have hpos : 0 < d.shadowPercent := by
      unfold ModelGateway.Deployment.shadowing decodeDeployment at hshadowing
      simp only [Bool.and_eq_true, decide_eq_true_eq] at hshadowing
      omega
    unfold Database.loadDeployments at hload
    simp only [bind_eq_ok_iff] at hload
    rcases hload with ⟨base, hbase, _, hadapters, hload⟩
    rw [← ok.inj hload, mem_append] at hd
    rcases hd with hd | hd
    . rcases mem_of_mapM_ok _ hbase hd with ⟨row, _, hrow⟩
      rw [toDeployment_shadowPercent hrow] at hpos
      omega
    . rcases mem_adapterDeployments hadapters hd with ⟨row, hrow, hstep, host, _, hadapter⟩
      rcases adapterDeployment_eq_ok hadapter with ⟨hdkey, hdpercent⟩
      rw [hdpercent] at hpos
      refine ⟨row, hrow, ?_, ?_, host, d, m, hadapter, hencode, rfl⟩
      . split at hpos
        . next hweight => exact ⟨hstep, hweight, hpos⟩
        . omega
      . change row.baseModel = m.key.baseModel
        rw [hkey, hdkey]

theorem mirrored_adapters {db : Database} {messages : List DeploymentMsg} {spec : GlobalSpec}
    {global : GlobalLayer} {layers : List TenantLayer} {snap : Snapshot}
    (hbuild : db.buildDeployments = .ok messages)
    (hspec : spec.deployments = messages.map decodeDeployment)
    (hglobal : newGlobalLayer spec = .ok global) (hcompose : compose global layers = .ok snap)
    (p : Pipeline) (ports : Ports) (req : Request) (w : World)
    : ∃ new, (p.handle ports snap req w).2.jobs = w.jobs ++ new ∧
        ∀ job ∈ new, ∃ prep w' served resp, p.prepare ports snap req w = (.ok prep, w') ∧
          (p.adapt ports prep false w').result = .ok (served, resp) ∧
          job.request.tenant = prep.principal.tenant ∧
          ∃ row ∈ db.finetuneJobs, Shadowing row ∧ row.baseModel = served.key.baseModel ∧
            AdapterOf row job.deployment := by
  rcases p.handle_jobs ports snap req w with ⟨new, hjobs, hnew⟩
  refine ⟨new, hjobs, ?_⟩
  intro job hjob
  rcases hnew job hjob with ⟨prep, w', served, resp, hprep, hserved, _, _, hmem, _, hrequest⟩
  refine ⟨prep, w', served, resp, hprep, hserved, by rw [hrequest]; rfl, ?_⟩
  unfold Snapshot.shadows at hmem
  rw [(compose_eq_ok hcompose).1] at hmem
  rw [newGlobalLayer_shadows hglobal, mem_filter, hspec, Bool.and_eq_true,
    decide_eq_true_eq] at hmem
  rcases hmem with ⟨hmem, hshadowing, hbase⟩
  rw [← hbase]
  apply buildDeployments_shadowing hbuild hmem hshadowing

namespace Sample

def db : Database where
  deployments :=
    [⟨str "d1", str "m", [], str "p", str "https://p", str "r", 1, str "ref", 100, ⟨0, 0, 0, 0⟩, []⟩]
  finetuneJobs := [⟨str "beta", str "ft", str "m", 0, 0, 100⟩]

def messages : List DeploymentMsg :=
  [⟨str "d1", ⟨str "m", []⟩, str "p", str "https://p", str "r", 1, str "ref", 100, 0, ⟨0, 0, 0, 0⟩, []⟩,
    ⟨str "d1+beta-ft", ⟨str "m", str "ft"⟩, str "p", str "https://p", str "r", 1, str "ref", 0, 100,
      ⟨0, 0, 0, 0⟩, []⟩]

def spec : GlobalSpec :=
  { Gateway.Sample.globalSpec (messages.map decodeDeployment) [] with
    tenantPrefixes :=
      ((∅ : GoMap Str Str).insert (str "ac") (str "acme")).insert (str "be") (str "beta") }

def global : GlobalLayer :=
  match newGlobalLayer spec with
  | .ok global => global
  | .error _ => .init spec

def beta : TenantLayer :=
  .init { Gateway.Sample.tenantSpec .publicData .external with
    tenant := str "beta", principals := [], keys := ∅ }

def layers : List TenantLayer := [Gateway.Sample.layer .publicData .external, beta]

def snapshot : Snapshot :=
  match compose global layers with
  | .ok snap => snap
  | .error _ => ⟨global, ∅⟩

def run : World :=
  (Gateway.Sample.pipeline.handle Gateway.Sample.calm snapshot (Gateway.Sample.request (str "hi"))
    .zero).2

theorem messages_eq : db.buildDeployments = .ok messages := by
  decide +kernel

end Sample

open Sample

theorem mirrored_adapters_sample
    : ∃ new, run.jobs = World.zero.jobs ++ new ∧ new.map (·.deployment.id) = [str "d1+beta-ft"] ∧
        ∀ job ∈ new, ∃ row ∈ db.finetuneJobs, Shadowing row ∧ AdapterOf row job.deployment := by
  have hglobal : newGlobalLayer spec = .ok global := rfl
  have hcompose : compose global layers = .ok snapshot := rfl
  rcases mirrored_adapters messages_eq rfl hglobal hcompose Gateway.Sample.pipeline
    Gateway.Sample.calm (Gateway.Sample.request (str "hi")) .zero with ⟨new, hjobs, hnew⟩
  refine ⟨new, hjobs, ?_, ?_⟩
  . have hids : run.jobs.map (·.deployment.id) = [str "d1+beta-ft"] := by
      decide +kernel
    have hjobs : run.jobs = [] ++ new := hjobs
    rwa [hjobs] at hids
  . intro job hjob
    rcases hnew job hjob with ⟨_, _, _, _, _, _, _, row, hrow, hshadowing, _, hadapter⟩
    exact ⟨row, hrow, hshadowing, hadapter⟩

theorem mirrored_across_tenants
    : run.jobs.map (·.request.tenant) = [str "acme"] ∧ ¬ ∀ job ∈ run.jobs, ∃ row ∈ db.finetuneJobs,
        row.tenantID = job.request.tenant ∧ AdapterOf row job.deployment := by
  have htenants : run.jobs.map (·.request.tenant) = [str "acme"] := by
    decide +kernel
  refine ⟨htenants, ?_⟩
  intro h
  rcases map_eq_singleton_iff.mp htenants with ⟨job, hjobs, htenant⟩
  rcases h job (by simp [hjobs]) with ⟨row, hrow, hrowTenant, _⟩
  rw [htenant] at hrowTenant
  revert hrowTenant
  rw [mem_singleton.mp hrow]
  decide

end ModelGateway.Control
