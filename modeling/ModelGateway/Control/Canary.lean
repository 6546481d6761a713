import ModelGateway.Control.AdapterNames
import ModelGateway.Core.Routes
import ModelGateway.Router.Draw

namespace ModelGateway.Control

open List Except

open FineTune (FineTuneJob)
open Router (Provider SelectionInput select eligible routable headed share)
open Lottery (Fraction)

section

structure AliasRow where
  tenantID : Option Str
  name : Str
  targets : List RoutingKey

def ensureAlias (rows : List AliasRow) (name : Str) (targets : List Str) (tenantID : Option Str)
    : Except Error (List AliasRow) :=
  if targets = [] then
    .error (.invalidRequest (str "alias " ++ Control.repr name ++ str " needs at least one target"))
  else
    .ok ((rows.filter fun row => !(row.name = name ∧ row.tenantID = tenantID))
      ++ [⟨tenantID, name, targets.map fun target => ⟨target, []⟩⟩])

structure AliasCall where
  name : Str
  targets : List Str
  tenantID : Option Str

def provisionAliases (calls : List AliasCall) : List AliasRow :=
  calls.foldl (fun rows c => (ensureAlias rows c.name c.targets c.tenantID).toOption.getD rows) []

def aliasesOf (rows : List AliasRow) (tenantID : Option Str) : List ModelAlias :=
  (rows.filter fun row => row.tenantID = tenantID).map fun row => ⟨row.name, row.targets⟩

theorem ensureAlias_targets {rows : List AliasRow}
    (h : ∀ row ∈ rows, ∀ key ∈ row.targets, key.adapterID = []) (c : AliasCall)
    : ∀ row ∈ (ensureAlias rows c.name c.targets c.tenantID).toOption.getD rows,
        ∀ key ∈ row.targets, key.adapterID = [] := by
  unfold ensureAlias
  split
  . exact h
  . intro row hrow key hkey
    change row ∈ _ ++ _ at hrow
    rw [mem_append, mem_filter, mem_singleton] at hrow
    rcases hrow with ⟨hrow, _⟩ | rfl
    . exact h row hrow key hkey
    . rcases mem_map.mp hkey with ⟨_, _, rfl⟩
      rfl

theorem provisionAliases_targets (calls : List AliasCall)
    : ∀ row ∈ provisionAliases calls, ∀ key ∈ row.targets, key.adapterID = [] := by
  apply foldlRecOn
    (motive := fun rows : List AliasRow => ∀ row ∈ rows, ∀ key ∈ row.targets, key.adapterID = [])
  . simp
  . intro rows h c _
    exact ensureAlias_targets h c

theorem aliasesOf_targets (calls : List AliasCall) (tenantID : Option Str)
    : ∀ a ∈ aliasesOf (provisionAliases calls) tenantID, ∀ key ∈ a.targets, key.adapterID = [] := by
  intro a ha key hkey
  rcases mem_map.mp ha with ⟨row, hrow, rfl⟩
  exact provisionAliases_targets calls row (mem_filter.mp hrow).1 key hkey

end

section

variable {spec : GlobalSpec} {global : GlobalLayer} {specs : List TenantSpec}
  {layers : List TenantLayer} {snap : Snapshot}

structure Canaried (providers : Str → Option Provider) (health : Str → ℚ) (snap : Snapshot)
    (input : SelectionInput) (d : ModelGateway.Deployment)
    : Prop where
  candidate : ∀ draw, ∃ candidates, select providers health draw snap input = .ok candidates ∧
    ∃ c ∈ candidates, c.deployment = d
  fraction : Fraction (headed providers health snap input d) (share providers snap input d)

variable {providers : Str → Option Provider} {input : SelectionInput} {d : ModelGateway.Deployment}

theorem mem_routable_iff (hglobal : newGlobalLayer spec = .ok global)
    (hcompose : compose global layers = .ok snap) (hd : d ∈ spec.deployments)
    (heligible : eligible providers input d = true)
    : d ∈ routable providers snap input ↔ d.key ∈ snap.resolveAlias input.tenant input.model := by
  unfold routable
  rw [mem_filter, mem_flatMap]
  constructor
  . rintro ⟨⟨key, hkey, hmem⟩, _⟩
    rw [((mem_deployments_iff hglobal hcompose).mp hmem).2]
    exact hkey
  . intro hkey
    exact ⟨⟨d.key, hkey, (mem_deployments_iff hglobal hcompose).mpr ⟨hd, rfl⟩⟩, heligible⟩

theorem mem_candidates_iff {health : Str → ℚ} (draw : ℚ)
    : (∃ candidates, select providers health draw snap input = .ok candidates ∧
        ∃ c ∈ candidates, c.deployment = d) ↔ d ∈ routable providers snap input := by
  constructor
  . rintro ⟨candidates, hselect, c, hc, rfl⟩
    exact (Router.select_eq_ok hselect).2.subset (mem_map_of_mem hc)
  . intro hd
    have hselect := Router.select_eq_promote providers health snap input (ne_nil_of_mem hd) draw
    have hmem := (Router.select_eq_ok hselect).2.mem_iff.mpr hd
    rcases mem_map.mp hmem with ⟨c, hc, hdeployment⟩
    exact ⟨_, hselect, c, hc, hdeployment⟩

theorem canaried_iff (hglobal : newGlobalLayer spec = .ok global)
    (hcompose : compose global layers = .ok snap) {health : Str → ℚ} (hd : d ∈ spec.deployments)
    (heligible : eligible providers input d = true) {healthy : ℚ} (hpos : 0 < healthy)
    (hhealth : ∀ d ∈ routable providers snap input, health d.id = healthy)
    : Canaried providers health snap input d ↔ d.key ∈ snap.resolveAlias input.tenant input.model ∧
        ((∃ d' ∈ routable providers snap input, d'.weight ≠ d.weight) ∨
          ∀ d' ∈ routable providers snap input, d' = d) := by
  rw [← mem_routable_iff hglobal hcompose hd heligible]
  constructor
  . rintro ⟨hcandidate, hfraction⟩
    have hmem := (mem_candidates_iff 0).mp (hcandidate 0)
    exact ⟨hmem, (Router.headed_fraction_iff hmem hpos hhealth).mp hfraction⟩
  . rintro ⟨hmem, hweights⟩
    exact ⟨fun draw => (mem_candidates_iff draw).mpr hmem,
      (Router.headed_fraction_iff hmem hpos hhealth).mpr hweights⟩

theorem key_not_mem_of_provisioned (hglobal : newGlobalLayer spec = .ok global)
    (hlayers : specs.mapM newTenantLayer = .ok layers) (hcompose : compose global layers = .ok snap)
    {calls : List AliasCall} (haliases : spec.aliases = aliasesOf (provisionAliases calls) none)
    (hoverrides : ∀ s ∈ specs, s.aliasOverrides = aliasesOf (provisionAliases calls) (some s.tenant))
    {key : RoutingKey} (hkey : key.adapterID ≠ []) (tenant name : Str)
    : key ∉ snap.resolveAlias tenant name := by
  intro hmem
  rcases mem_resolveAlias hglobal hlayers hcompose hmem with rfl | ⟨a, ha, htarget⟩ | ⟨s, hs, a, ha, htarget⟩
  . exact hkey rfl
  . rw [haliases] at ha
    exact hkey (aliasesOf_targets calls none a ha key htarget)
  . rw [hoverrides s hs] at ha
    exact hkey (aliasesOf_targets calls (some s.tenant) a ha key htarget)

theorem hosted_mem_messages {deployments : List DeploymentRow} {base : List Deployment}
    (hbase : deployments.mapM toDeployment = .ok base) {jobs : List FineTuneJob}
    {messages : List DeploymentMsg}
    (hbuild : (Database.mk deployments (jobs.map (·.row))).buildDeployments = .ok messages)
    {placed : Deployment × FineTuneJob} (hplaced : placed ∈ hosted base jobs)
    : ∃ m ∈ messages, encodeDeployment (adapterOf placed) = .ok m := by
  unfold Database.buildDeployments Database.loadDeployments at hbuild
  simp only [bind_eq_ok_iff] at hbuild
  rcases hbuild with ⟨loaded, ⟨_, hbase', _, hadapters, hload⟩, hbuild⟩
  rw [hbase] at hbase'
  rw [← ok.inj hbase', adapterDeployments_eq hbase] at hadapters
  have hmem : adapterOf placed ∈ loaded := by
    rw [← ok.inj hload, ← ok.inj hadapters, mem_append]
    exact .inr (mem_map_of_mem hplaced)
  cases hfirst : Database.buildDeployments.firstDuplicate [] loaded with
  | some id => simp [hfirst] at hbuild
  | none =>
    rw [hfirst] at hbuild
    rcases List.exists_mem_of_mapM_ok _ hbuild hmem with ⟨m, hm, hencode⟩
    exact ⟨m, hm, hencode⟩

theorem canary_traffic_iff {deployments : List DeploymentRow} {base : List Deployment}
    (hbase : deployments.mapM toDeployment = .ok base) {jobs : List FineTuneJob}
    {messages : List DeploymentMsg}
    (hbuild : (Database.mk deployments (jobs.map (·.row))).buildDeployments = .ok messages)
    (hspec : spec.deployments = messages.map decodeDeployment)
    (hglobal : newGlobalLayer spec = .ok global) (hlayers : specs.mapM newTenantLayer = .ok layers)
    (hcompose : compose global layers = .ok snap) {placed : Deployment × FineTuneJob}
    (hplaced : placed ∈ hosted base jobs)
    : ∃ d ∈ spec.deployments, d.id = adapterID placed.1 placed.2 ∧
        d.key = ⟨placed.2.spec.baseModel, placed.2.name⟩ ∧
        (d.weight : Int) = placed.2.status.rolloutWeight ∧
        (∀ providers health input healthy, eligible providers input d = true → 0 < healthy →
          (∀ d' ∈ routable providers snap input, health d'.id = healthy) →
          (Canaried providers health snap input d
            ↔
          d.key ∈ snap.resolveAlias input.tenant input.model ∧
            ((∃ d' ∈ routable providers snap input, d'.weight ≠ d.weight) ∨
              ∀ d' ∈ routable providers snap input, d' = d))) ∧
        ∀ calls, spec.aliases = aliasesOf (provisionAliases calls) none →
          (∀ s ∈ specs, s.aliasOverrides = aliasesOf (provisionAliases calls) (some s.tenant)) →
          ∀ tenant name, d.key ∉ snap.resolveAlias tenant name := by
  rcases hosted_mem_messages hbase hbuild hplaced with ⟨m, hm, hencode⟩
  rcases encodeDeployment_eq_ok hencode with ⟨hid, hkey, _, hweight, _⟩
  have hd : decodeDeployment m ∈ spec.deployments := by
    rw [hspec]
    exact mem_map_of_mem hm
  refine ⟨decodeDeployment m, hd, hid, hkey, hweight, ?_, ?_⟩
  . intro providers health input healthy heligible hpos hhealth
    exact canaried_iff hglobal hcompose hd heligible hpos hhealth
  . intro calls haliases hoverrides tenant name
    apply key_not_mem_of_provisioned hglobal hlayers hcompose haliases hoverrides
    change m.key.adapterID ≠ []
    rw [hkey]
    exact placed.2.name_ne_nil

end

namespace Sample

def canaryJobs : List FineTuneJob :=
  let ops : List FineTune.Op :=
    FineTune.Sample.started ++ [.advanceRollout (str "acme") (str "bot") 0]
  (ops.foldl FineTune.Table.step []).map (·.job)

def canaryMessages : List DeploymentMsg :=
  [⟨str "h", ⟨str "m", []⟩, str "p", str "https://p", str "r", 1, str "ref", 100, 0, ⟨0, 0, 0, 0⟩, []⟩,
    ⟨str "h+acme-bot", ⟨str "m", str "bot"⟩, str "p", str "https://p", str "r", 1, str "ref", 1, 0,
      ⟨0, 0, 0, 0⟩, []⟩]

def canarySpec (aliases : List ModelAlias) : GlobalSpec :=
  { Gateway.Sample.globalSpec (canaryMessages.map decodeDeployment) [] with aliases := aliases }

def canaryGlobal (aliases : List ModelAlias) : GlobalLayer :=
  match newGlobalLayer (canarySpec aliases) with
  | .ok global => global
  | .error _ => .init (canarySpec aliases)

def canarySnapshot (aliases : List ModelAlias) : Snapshot :=
  match compose (canaryGlobal aliases) [Gateway.Sample.layer .publicData .external] with
  | .ok snap => snap
  | .error _ => ⟨canaryGlobal aliases, ∅⟩

def chat : SelectionInput :=
  ⟨str "acme", str "m", .chatCompletions, .external, [], .balanced, str "r", 0⟩

def split : List ModelAlias := [⟨str "m", [⟨str "m", []⟩, ⟨str "m", str "bot"⟩]⟩]

theorem canaryMessages_eq
    : (Database.mk stored (canaryJobs.map (·.row))).buildDeployments = .ok canaryMessages := by
  decide +kernel

end Sample

open Sample

theorem canary_traffic_split
    : ∃ d ∈ (canarySpec split).deployments, d.id = str "h+acme-bot" ∧ d.weight = 1 ∧
        Canaried Gateway.Sample.pipeline.providers (fun _ => 1) (canarySnapshot split)
          chat d := by
  have hbase : stored.mapM toDeployment = .ok base := by
    decide +kernel
  have hglobal : newGlobalLayer (canarySpec split)
      = .ok (canaryGlobal split) := rfl
  have hlayers : [Gateway.Sample.tenantSpec .publicData .external].mapM newTenantLayer
      = .ok [Gateway.Sample.layer .publicData .external] := rfl
  have hcompose : compose (canaryGlobal split)
      [Gateway.Sample.layer .publicData .external] = .ok (canarySnapshot split) := rfl
  have hlength : (hosted base canaryJobs).length = 1 := by
    decide +kernel
  rcases length_eq_one_iff.mp hlength with ⟨placed, hplaced⟩
  have hmem : placed ∈ hosted base canaryJobs := by
    simp [hplaced]
  rcases canary_traffic_iff hbase canaryMessages_eq rfl hglobal hlayers hcompose hmem with
    ⟨d, hd, hid, _, _, hiff, _⟩
  have hname : (hosted base canaryJobs).map (fun placed => adapterID placed.1 placed.2)
      = [str "h+acme-bot"] := by
    decide +kernel
  rw [hplaced, map_singleton, singleton_inj] at hname
  rw [hname] at hid
  rcases mem_map.mp hd with ⟨m, hm, rfl⟩
  rcases mem_cons.mp hm with rfl | hm
  . exact absurd hid (by decide)
  . rw [mem_singleton] at hm
    subst hm
    refine ⟨_, hd, hid, rfl, (hiff _ _ _ 1 ?_ one_pos fun _ _ => rfl).mpr ⟨?_, .inl ?_⟩⟩
    . decide +kernel
    . decide +kernel
    . decide +kernel

theorem canary_unserved
    : ((canarySnapshot []).deployments ⟨str "m", str "bot"⟩).map (fun d => (d.id, d.weight))
        = [(str "h+acme-bot", 1)] ∧
      ∀ draw candidates, select Gateway.Sample.pipeline.providers (fun _ => 1) draw
          (canarySnapshot []) chat = .ok candidates →
        candidates.map (·.deployment.id) = [str "h"] := by
  refine ⟨by decide +kernel, ?_⟩
  intro draw candidates hselect
  have hperm := ((Router.select_eq_ok hselect).2).map (·.id)
  have hroutable : (routable Gateway.Sample.pipeline.providers (canarySnapshot []) chat).map
      (·.id) = [str "h"] := by
    decide +kernel
  rw [map_map] at hperm
  exact perm_singleton.mp (hroutable ▸ hperm)

end ModelGateway.Control
