import ModelGateway.Core.Basic
import ModelGateway.Lib.Fold

namespace ModelGateway.Control

open Except

inductive Error where
  | invalidRequest (message : Str)
  | notFound (message : Str)
  | forbidden (message : Str)
  | value (message : Str)
  deriving DecidableEq, Repr

def Error.message : Error → Str
  | .invalidRequest message => message
  | .notFound message => message
  | .forbidden message => message
  | .value message => message

def repr (s : Str) : Str :=
  str "'" ++ s ++ str "'"

def decimal (n : Int) : Str :=
  if n < 0 then str "-" ++ Str.ofNat n.natAbs else Str.ofNat n.natAbs

structure DeploymentRow where
  id : Str
  baseModel : Str
  adapterID : Str
  provider : Str
  endpoint : Str
  region : Str
  trustTier : Int
  credentialRef : Str
  weight : Int
  cost : Cost
  capabilities : List Str

structure FineTuneJobRow where
  tenantID : Str
  name : Str
  baseModel : Str
  rolloutStep : Int
  rolloutWeight : Int
  shadowPercent : Int

structure Database where
  deployments : List DeploymentRow
  finetuneJobs : List FineTuneJobRow

structure Deployment where
  id : Str
  key : RoutingKey
  provider : Str
  endpoint : Str
  region : Str
  trustTier : TrustTier
  credentialRef : Str
  weight : Int
  shadowPercent : Int
  cost : Cost
  capabilities : List Str

def routingKey (baseModel adapterID : Str) : Except Error RoutingKey :=
  if baseModel = [] then
    .error (.invalidRequest (str "a routing key needs a base model"))
  else
    .ok ⟨baseModel, adapterID⟩

def checkCost (c : Cost) : Except Error Cost :=
  if min (min c.inputPer1K c.outputPer1K) (min c.cachedInputPer1K c.cacheWritePer1K) < 0 then
    .error (.invalidRequest (str "a price cannot be negative"))
  else
    .ok c

def trustTier (n : Int) : Except Error TrustTier :=
  if 0 ≤ n ∧ n ≤ 3 then
    .ok n.toNat
  else
    .error (.value (decimal n ++ str " is not a valid TrustTier"))

def capability (name : Str) : Except Error Str :=
  if [str "streaming", str "tool_calling", str "vision", str "embeddings"].contains name then
    .ok name
  else
    .error (.value (repr name ++ str " is not a valid Capability"))

def Deployment.postInit (d : Deployment) : Except Error Deployment :=
  if d.id = [] then
    .error (.invalidRequest (str "a deployment needs an id"))
  else if d.provider = [] then
    .error (.invalidRequest (str "deployment " ++ repr d.id ++ str " names no provider"))
  else if d.trustTier = .unset then
    .error (.invalidRequest (str "deployment " ++ repr d.id ++ str " has an unset trust tier"))
  else if 0 ≤ d.weight ∧ d.weight ≤ 100 then
    .ok d
  else
    .error (.invalidRequest (str "deployment " ++ repr d.id ++ str " weight " ++ decimal d.weight
      ++ str " is out of range"))

def toDeployment (row : DeploymentRow) : Except Error Deployment := do
  let key ← routingKey row.baseModel row.adapterID
  let tier ← trustTier row.trustTier
  let cost ← checkCost row.cost
  let capabilities ← (row.capabilities.mergeSort fun s t => s ≤ t).mapM capability
  Deployment.postInit {
    id := row.id
    key := key
    provider := row.provider
    endpoint := row.endpoint
    region := row.region
    trustTier := tier
    credentialRef := row.credentialRef
    weight := row.weight
    shadowPercent := 0
    cost := cost
    capabilities := capabilities
  }

def hostOf (base : List Deployment) (baseModel : Str) : Option Deployment :=
  (base.filter fun d => d.key.adapterID = [] ∧ d.key.baseModel = baseModel).getLast?

def adapterDeployment (host : Deployment) (row : FineTuneJobRow) : Except Error Deployment := do
  let key ← routingKey row.baseModel row.name
  Deployment.postInit { host with
    id := host.id ++ str "+" ++ row.tenantID ++ str "-" ++ row.name
    key := key
    weight := row.rolloutWeight
    shadowPercent := if row.rolloutWeight = 0 then row.shadowPercent else 0 }

def adapterDeployments (base : List Deployment) (jobs : List FineTuneJobRow)
    : Except Error (List Deployment) := do
  let rolling := jobs.filter fun row => 0 ≤ row.rolloutStep
  let adapters ← rolling.mapM fun row =>
    match hostOf base row.baseModel with
    -- a job of a retired model is skipped
    | none => .ok none
    | some host => (adapterDeployment host row).map some
  return adapters.filterMap id

def Database.loadDeployments (db : Database) : Except Error (List Deployment) := do
  let base ← db.deployments.mapM toDeployment
  let adapters ← adapterDeployments base db.finetuneJobs
  return base ++ adapters

structure DeploymentMsg where
  id : Str
  key : RoutingKey
  provider : Str
  endpoint : Str
  region : Str
  trustTier : Nat
  credentialRef : Str
  weight : Nat
  shadowPercent : Nat
  cost : Cost
  capabilities : List Str
  deriving DecidableEq, Repr

def uint32 (n : Int) : Except Error Nat :=
  if 0 ≤ n ∧ n < 2 ^ 32 then
    .ok n.toNat
  else
    .error (.value (str "Value out of range: " ++ decimal n))

def int64Field (n : Int) : Except Error Int :=
  if -2 ^ 63 ≤ n ∧ n < 2 ^ 63 then
    .ok n
  else
    .error (.value (str "Value out of range: " ++ decimal n))

def encodeCost (c : Cost) : Except Error Cost := do
  let input ← int64Field c.inputPer1K
  let output ← int64Field c.outputPer1K
  let cachedInput ← int64Field c.cachedInputPer1K
  let cacheWrite ← int64Field c.cacheWritePer1K
  return ⟨input, output, cachedInput, cacheWrite⟩

def encodeTrustTier (t : TrustTier) : Nat :=
  if t = .external then 1 else if t = .privateCloud then 2 else if t = .internal then 3 else 0

def encodeDeployment (d : Deployment) : Except Error DeploymentMsg := do
  let weight ← uint32 d.weight
  let shadowPercent ← uint32 d.shadowPercent
  let cost ← encodeCost d.cost
  return {
    id := d.id
    key := d.key
    provider := d.provider
    endpoint := d.endpoint
    region := d.region
    trustTier := encodeTrustTier d.trustTier
    credentialRef := d.credentialRef
    weight := weight
    shadowPercent := shadowPercent
    cost := cost
    capabilities := d.capabilities
  }

def Database.buildDeployments (db : Database) : Except Error (List DeploymentMsg) := do
  let deployments ← db.loadDeployments
  match firstDuplicate [] deployments with
  | some id => .error (.invalidRequest (str "duplicate deployment id " ++ repr id))
  | none => deployments.mapM encodeDeployment
where
  firstDuplicate (seen : List Str) : List Deployment → Option Str
    | [] => none
    | d :: rest => if d.id ∈ seen then some d.id else firstDuplicate (d.id :: seen) rest

def decodeTrustTier : Nat → TrustTier
  | 1 => .external
  | 2 => .privateCloud
  | 3 => .internal
  | _ => .unset

def decodeDeployment (m : DeploymentMsg) : ModelGateway.Deployment where
  id := m.id
  key := m.key
  provider := m.provider
  endpoint := m.endpoint
  region := m.region
  trustTier := decodeTrustTier m.trustTier
  credentialRef := m.credentialRef
  weight := m.weight
  shadowPercent := m.shadowPercent
  cost := m.cost
  capabilities := m.capabilities

theorem uint32_eq_ok {n : Int} {m : Nat} (h : uint32 n = .ok m) : (m : Int) = n := by
  unfold uint32 at h
  split at h
  . rw [← ok.inj h]
    omega
  . simp at h

theorem encodeDeployment_eq_ok {d : Deployment} {m : DeploymentMsg} (h : encodeDeployment d = .ok m)
    : m.id = d.id ∧ m.key = d.key ∧ m.trustTier = encodeTrustTier d.trustTier ∧
        (m.weight : Int) = d.weight ∧ (m.shadowPercent : Int) = d.shadowPercent := by
  unfold encodeDeployment at h
  simp only [bind_eq_ok_iff] at h
  rcases h with ⟨weight, hweight, shadowPercent, hshadow, cost, _, h⟩
  rw [← ok.inj h]
  exact ⟨rfl, rfl, rfl, uint32_eq_ok hweight, uint32_eq_ok hshadow⟩

end ModelGateway.Control
