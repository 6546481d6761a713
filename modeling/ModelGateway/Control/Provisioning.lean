import ModelGateway.Control.Store

namespace ModelGateway.Control

open FineTune (Failure)
open Keys (IssueKeyRequest NewKey Secret Settings)
open TextColumn (varchar)

def column {α : Type} : Option α → Except Failure α
  | some a => .ok a
  | none => .error .external

abbrev Tier := { tier : TrustTier // tier ≤ .internal }

abbrev Rule := { rule : PolicyRule // rule.Constructed }

structure DeploymentSpec where
  id : Str
  baseModel : Str
  provider : Str
  endpoint : Str
  trustTier : Tier
  adapterID : Str
  region : Str
  credentialRef : Str
  weight : Int
  cost : Cost
  capabilities : List Str

namespace DeploymentSpec

variable (spec : DeploymentSpec)

def postInit : Except Error DeploymentSpec :=
  if spec.id = [] ∨ spec.baseModel = [] then
    .error (.invalidRequest (str "a deployment needs an id and a base model"))
  else if spec.endpoint = [] then
    .error (.invalidRequest (str "deployment " ++ Control.repr spec.id ++ str " needs an endpoint"))
  else if ¬ (0 ≤ spec.weight ∧ spec.weight ≤ 100) then
    .error (.invalidRequest (str "deployment " ++ Control.repr spec.id ++ str " has weight "
      ++ decimal spec.weight))
  else if spec.trustTier.val = .unset then
    .error (.invalidRequest (str "deployment " ++ Control.repr spec.id ++ str " needs a trust tier"))
  else
    .ok spec

def row : Option DeploymentRow := do
  let id ← varchar 64 spec.id
  let baseModel ← varchar 255 spec.baseModel
  let adapterID ← varchar 255 spec.adapterID
  let provider ← varchar 64 spec.provider
  let endpoint ← varchar 1024 spec.endpoint
  let region ← varchar 64 spec.region
  let credentialRef ← varchar 512 spec.credentialRef
  return {
    id := id
    baseModel := baseModel
    adapterID := adapterID
    provider := provider
    endpoint := endpoint
    region := region
    trustTier := spec.trustTier.val
    credentialRef := credentialRef
    weight := spec.weight
    cost := spec.cost
    capabilities := []
  }

end DeploymentSpec

structure BudgetSpec where
  id : Str
  tenantID : Str
  limitMicroUSD : Int
  scope : BudgetScope
  hard : Bool
  headroomBasisPoints : Int

def BudgetSpec.row (spec : BudgetSpec) : Option BudgetRow := do
  let id ← varchar 64 spec.id
  let tenantID ← varchar 64 spec.tenantID
  return {
    id := id
    tenantID := tenantID
    scope := spec.scope
    limitMicroUSD := spec.limitMicroUSD
    spentMicroUSD := 0
    hard := spec.hard
    headroomBasisPoints := spec.headroomBasisPoints
  }

def BudgetSpec.write (spec : BudgetSpec) (row : BudgetRow) : BudgetRow :=
  { row with
    scope := spec.scope
    limitMicroUSD := spec.limitMicroUSD
    hard := spec.hard
    headroomBasisPoints := spec.headroomBasisPoints }

def conditionKinds : List ConditionKind :=
  [.model, .endpoint, .role, .region, .cidr]

def PolicyRule.field (rule : PolicyRule) : ConditionKind → List Str
  | .model => rule.models
  | .endpoint => rule.endpoints
  | .role => rule.roles
  | .region => rule.regions
  | .cidr => rule.sourceCidrs

def PolicyRule.conditions (rule : PolicyRule) : List (ConditionKind × Str) :=
  conditionKinds.flatMap fun kind => (rule.field kind).map fun value => (kind, value)

def PolicyRule.row (rule : PolicyRule) (tenantID : Option Str) (position : Nat)
    : Option PolicyRuleRow := do
  let ruleID ← varchar 64 rule.id
  let dataClass ← varchar 32 rule.dataClass
  let reason ← varchar 512 rule.reason
  let conditions ← rule.conditions.mapM fun (kind, value) => (varchar 255 value).map (kind, ·)
  return {
    tenantID := tenantID
    ruleID := ruleID
    position := position
    effect := rule.effect
    maxPayloadBytes := rule.maxPayloadBytes
    dataClass := dataClass
    minTrustTier := rule.minTrustTier
    reason := reason
    conditions := conditions
  }

def Keys.IssueKeyRequest.stored (body : IssueKeyRequest) : Option IssueKeyRequest := do
  let keyID ← varchar 64 body.keyID
  let applicationID ← body.applicationID.mapM (varchar 64)
  let userID ← body.userID.mapM (varchar 64)
  return { body with keyID := keyID, applicationID := applicationID, userID := userID }

namespace Tables

variable (t : Tables)

def bump (tenantID : Str) : List TenantRow :=
  Table.update TenantRow.id t.tenants tenantID fun row => { row with version := row.version + 1 }

section

def writeTenant (tenantID tier : Str) (minTrustTier : Tier) : Except Failure (List TenantRow) := do
  let tier ← column (varchar 32 tier)
  match Table.get TenantRow.id t.tenants tenantID with
  | none => do
    let id ← column (varchar 64 tenantID)
    return t.tenants ++ [⟨id, tier, minTrustTier.val, 1⟩]
  | some _ =>
    return Table.update TenantRow.id t.tenants tenantID fun row =>
      ⟨row.id, tier, minTrustTier.val, row.version + 1⟩

def ensure (rows : List (Str × Str)) (key parent : Str) : Except Failure (List (Str × Str)) :=
  match Table.get Prod.fst rows key with
  | some _ => .ok rows
  | none => do
    let key ← column (varchar 64 key)
    let parent ← column (varchar 64 parent)
    return rows ++ [(key, parent)]

def ensureTenant (tenantID tier : Str) (minTrustTier : Tier) : Except Failure Tables :=
  if tenantID = [] then
    .error (.invalidRequest (str "a tenant needs an id"))
  else do
    let tenants ← t.writeTenant tenantID tier minTrustTier
    let keyPrefixes ← ensure t.keyPrefixes tenantID tenantID
    let orgs ← ensure t.orgs (tenantID ++ str "-org") tenantID
    let teams ← ensure t.teams (tenantID ++ str "-team") (tenantID ++ str "-org")
    let applications ← ensure t.applications (tenantID ++ str "-app") (tenantID ++ str "-team")
    return { t with
      tenants := tenants
      keyPrefixes := keyPrefixes
      orgs := orgs
      teams := teams
      applications := applications }

def writeDeployment (row : DeploymentRow) (id : Str) : List DeploymentRow :=
  match Table.get DeploymentRow.id t.deployments id with
  | none => t.deployments ++ [row]
  | some _ => Table.update DeploymentRow.id t.deployments id fun _ => row

def ensureDeployment (spec : DeploymentSpec) : Except Failure Tables := do
  let spec ← raised spec.postInit
  -- the rows of the capabilities are constructed with a name, which is not one of their columns
  if spec.capabilities ≠ [] then
    .error .external
  else do
    let row ← column spec.row
    return { t with deployments := t.writeDeployment row spec.id }

def removeDeployment (id : Str) : Except Failure Tables :=
  match Table.get DeploymentRow.id t.deployments id with
  | none => .error (.notFound (str "no deployment " ++ Control.repr id))
  | some _ => .ok { t with deployments := t.deployments.filter fun row => row.id ≠ id }

def ensureAlias (name : Str) (targets : List Str) (tenantID : Option Str) : Except Failure Tables :=
  if targets = [] then
    .error (.invalidRequest (str "alias " ++ Control.repr name ++ str " needs at least one target"))
  else do
    let stored ← column (varchar 255 name)
    let targets ← column (targets.mapM (varchar 255))
    let owner ← column (tenantID.mapM (varchar 64))
    return { t with
      aliases := (t.aliases.eraseP fun row => row.name = name ∧ row.tenantID = tenantID)
        ++ [⟨owner, stored, targets.map fun target => ⟨target, []⟩⟩] }

def writeBudget (spec : BudgetSpec) : Except Failure (List BudgetRow) :=
  match Table.get BudgetRow.id t.budgets spec.id with
  | none => do
    let row ← column spec.row
    return t.budgets ++ [row]
  | some _ => .ok (Table.update BudgetRow.id t.budgets spec.id spec.write)

def ensureBudget (spec : BudgetSpec) : Except Failure Tables :=
  if spec.limitMicroUSD < 0 then
    .error (.invalidRequest (str "budget " ++ Control.repr spec.id ++ str " has a negative limit"))
  else do
    let budgets ← t.writeBudget spec
    match Table.get TenantRow.id t.tenants spec.tenantID with
    | none => .error (.notFound (str "no tenant " ++ Control.repr spec.tenantID))
    | some _ => return { t with budgets := budgets, tenants := t.bump spec.tenantID }

end

section

def replacePolicy (tenant : Option Str) (rules : List Rule) : Except Failure Tables :=
  match tenant.filter fun id => (Table.get TenantRow.id t.tenants id).isNone with
  | some id => .error (.notFound (str "no tenant " ++ Control.repr id))
  | none => do
    let bundle ← raised (PolicyBundle.postInit ⟨policyID tenant, 1, rules.map (·.val), .allow⟩)
    let rows ← column (bundle.rules.zipIdx.mapM fun (rule, position) => rule.row tenant position)
    return { t with policyRules := (t.policyRules.filter fun row => row.tenantID ≠ tenant) ++ rows }

end

section

def keyDatabase : Keys.Database where
  tenants := (t.tenants.map fun row => (⟨row.id, row.version⟩ : Sigma fun _ : Str => Int)).toAList
  keyPrefixes := t.keyPrefixes
  apiKeys := t.apiKeys
  keyRoles := t.keyRoles
  keyModels := t.keyModels
  keyBudgets := t.keyBudgets
  idempotencyRecords := []

def withKeys (db : Keys.Database) : Tables :=
  { t with
    tenants := t.tenants.map fun row =>
      { row with version := ((db.tenants.lookup row.id).getD row.version).toNat.toPNat' }
    apiKeys := db.apiKeys
    keyRoles := db.keyRoles
    keyModels := db.keyModels
    keyBudgets := db.keyBudgets }

def keyResult {α : Type} : Except Keys.Failure α → Except Failure α
  | .ok a => .ok a
  | .error (.gateway err) => .error (.gateway err)
  | .error (.conflict message) => .error (.conflict message)
  | .error .database => .error .external

variable (settings : Settings) (secret : Secret)

def keySettings : Settings :=
  { settings with acceptsKey := fun _ => true }

def issueKey (tenantID : Str) (body : IssueKeyRequest) (tier : Tier)
    : Except Failure (NewKey × Tables) := do
  let body ← column body.stored
  let (minted, db) ← keyResult
    (Keys.issue (keySettings settings) t.keyDatabase secret tenantID body tier.val)
  return (minted, t.withKeys db)

def rotateKey (keyID : Str) (newKeyID : Option Str) (namedAt deprecatedAt : Int)
    : Except Failure (NewKey × Tables) := do
  let newKeyID ← column (newKeyID.mapM (varchar 64))
  let (minted, db) ← keyResult
    (Keys.rotate (keySettings settings) t.keyDatabase secret keyID newKeyID namedAt deprecatedAt)
  return (minted, t.withKeys db)

def revokeKey (keyID : Str) (now : Int) : Except Failure Tables := do
  let db ← keyResult (Keys.revoke t.keyDatabase keyID now)
  return t.withKeys db

end

end Tables

inductive KeyOp where
  | issue (tenantID : Str) (body : IssueKeyRequest) (tier : Tier) (secret : Secret)
  | rotate (keyID : Str) (newKeyID : Option Str) (namedAt deprecatedAt : Int) (secret : Secret)
  | revoke (keyID : Str) (now : Int)

inductive Op where
  | ensureTenant (tenantID tier : Str) (minTrustTier : Tier)
  | ensureDeployment (spec : DeploymentSpec)
  | removeDeployment (id : Str)
  | ensureAlias (name : Str) (targets : List Str) (tenantID : Option Str)
  | ensureBudget (spec : BudgetSpec)
  | key (op : KeyOp)

variable (settings : Settings)

def Tables.keyStep (t : Tables) : KeyOp → Except Failure Tables
  | .issue tenantID body tier secret => (t.issueKey settings secret tenantID body tier).map (·.2)
  | .rotate keyID newKeyID namedAt deprecatedAt secret =>
    (t.rotateKey settings secret keyID newKeyID namedAt deprecatedAt).map (·.2)
  | .revoke keyID now => t.revokeKey keyID now

def Tables.step (t : Tables) : Op → Except Failure Tables
  | .ensureTenant tenantID tier minTrustTier => t.ensureTenant tenantID tier minTrustTier
  | .ensureDeployment spec => t.ensureDeployment spec
  | .removeDeployment id => t.removeDeployment id
  | .ensureAlias name targets tenantID => t.ensureAlias name targets tenantID
  | .ensureBudget spec => t.ensureBudget spec
  | .key op => t.keyStep settings op

def Store.step (s : Store) (op : Op) : Except Failure Store := do
  let t ← s.val.step settings op
  commit t

end ModelGateway.Control
