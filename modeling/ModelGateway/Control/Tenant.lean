import ModelGateway.Control.Component
import ModelGateway.Control.Policy

namespace ModelGateway.Control

structure Budget where
  id : Str
  scope : BudgetScope
  limitMicroUSD : Int
  spentMicroUSD : Int
  hard : Bool
  headroomBasisPoints : Int
  deriving DecidableEq, Repr

structure RateLimit where
  requestsPerMinute : Int
  tokensPerMinute : Int
  maxConcurrent : Int
  deriving DecidableEq, Repr

structure Principal where
  keyID : Str
  tenant : Str
  org : Str
  team : Str
  user : Str
  app : Str
  roles : List Str
  modelsAllowAll : Bool
  models : List Str
  budgets : List BudgetRef
  defaultDataClass : Str
  minTrustTier : TrustTier
  limits : RateLimit
  deprecated : Bool
  notAfter : Option Int
  deriving DecidableEq, Repr

structure PluginBinding where
  port : Port
  component : Str
  version : Str
  configRef : Str
  deriving DecidableEq, Repr

structure GuardrailBinding where
  component : Str
  version : Str
  configRef : Str
  timeoutMs : Int
  failureMode : FailureMode
  blocking : Bool
  phases : List Str
  deriving DecidableEq, Repr

structure Tenant where
  id : Str
  tier : Str
  version : Int
  keyPrefixes : List Str
  principals : List Principal
  keys : GoMap Str Str
  aliasOverrides : List ModelAlias
  budgets : List Budget
  plugins : List PluginBinding
  guardrails : List GuardrailBinding
  policy : Option PolicyBundle
  minTrustTier : TrustTier

structure Fleet where
  version : Int
  deployments : List Deployment
  aliases : List ModelAlias
  registry : Registry
  defaultPlugins : List PluginBinding
  defaultGuardrails : List GuardrailBinding
  defaultPolicy : Option PolicyBundle
  policyBundleRef : Str

def Budget.postInit (b : Budget) : Except Error Budget :=
  if b.id = [] then
    .error (.invalidRequest (str "a budget needs an id"))
  else if b.scope = .unset then
    .error (.invalidRequest (str "budget " ++ repr b.id ++ str " has an unset scope"))
  else if b.limitMicroUSD < 0 ∨ b.spentMicroUSD < 0 then
    .error (.invalidRequest (str "budget " ++ repr b.id ++ str " has a negative amount"))
  else if ¬ (0 ≤ b.headroomBasisPoints ∧ b.headroomBasisPoints ≤ 10000) then
    .error (.invalidRequest (str "budget " ++ repr b.id ++ str " headroom is out of range"))
  else
    .ok b

def RateLimit.postInit (l : RateLimit) : Except Error RateLimit :=
  if min l.requestsPerMinute (min l.tokensPerMinute l.maxConcurrent) < 0 then
    .error (.invalidRequest (str "a rate limit cannot be negative"))
  else
    .ok l

def Principal.postInit (p : Principal) : Except Error Principal :=
  if p.keyID = [] then
    .error (.invalidRequest (str "a principal needs a key id"))
  else if p.tenant = [] then
    .error (.invalidRequest (str "principal " ++ repr p.keyID ++ str " names no tenant"))
  else
    .ok p

def modelAlias (name : Str) (targets : List RoutingKey) : Except Error ModelAlias :=
  if name = [] then
    .error (.invalidRequest (str "an alias needs a name"))
  else if targets = [] then
    .error (.invalidRequest (str "alias " ++ repr name ++ str " has no targets"))
  else
    .ok ⟨name, targets⟩

def GuardrailBinding.postInit (g : GuardrailBinding) : Except Error GuardrailBinding :=
  if g.component = [] then
    .error (.invalidRequest (str "a guardrail binding needs a component"))
  else if g.timeoutMs ≤ 0 then
    .error (.invalidRequest (str "guardrail " ++ repr g.component ++ str " needs a positive timeout"))
  else
    match g.phases.find? fun phase => !([str "request", str "response"].contains phase) with
    | some phase => .error (.invalidRequest (str "unknown guardrail phase " ++ repr phase))
    | none => .ok g

def Tenant.postInit (t : Tenant) : Except Error Tenant :=
  if t.id = [] then
    .error (.invalidRequest (str "a tenant needs an id"))
  else if t.version < 1 then
    .error (.invalidRequest (str "tenant " ++ repr t.id ++ str " version must be at least 1"))
  else if t.keyPrefixes = [] then
    .error (.invalidRequest (str "tenant " ++ repr t.id ++ str " has no key prefix"))
  else
    .ok t

def Fleet.postInit (fleet : Fleet) : Except Error Fleet :=
  if fleet.version < 1 then
    .error (.invalidRequest (str "fleet version must be at least 1"))
  else
    .ok fleet

/-
A value is constructed if its constructor and those of its parts accept it, and what it takes from an
enumeration is a member of that.
-/

def RoutingKeyConstructed (k : RoutingKey) : Prop :=
  routingKey k.baseModel k.adapterID = .ok k

structure AliasConstructed (a : ModelAlias) : Prop where
  targets : ∀ t ∈ a.targets, RoutingKeyConstructed t
  accepted : modelAlias a.name a.targets = .ok a

structure Deployment.Constructed (d : Deployment) : Prop where
  key : RoutingKeyConstructed d.key
  trustTier_le : d.trustTier ≤ .internal
  cost : checkCost d.cost = .ok d.cost
  capabilities : ∀ c ∈ d.capabilities, capability c = .ok c
  accepted : d.postInit = .ok d

structure Principal.Constructed (p : Principal) : Prop where
  minTrustTier_le : p.minTrustTier ≤ .internal
  limits : p.limits.postInit = .ok p.limits
  accepted : p.postInit = .ok p

structure Tenant.Constructed (t : Tenant) : Prop where
  principals : ∀ p ∈ t.principals, p.Constructed
  aliasOverrides : ∀ a ∈ t.aliasOverrides, AliasConstructed a
  budgets : ∀ b ∈ t.budgets, b.postInit = .ok b
  guardrails : ∀ g ∈ t.guardrails, g.postInit = .ok g
  policy : ∀ bundle, t.policy = some bundle → bundle.Constructed
  minTrustTier_le : t.minTrustTier ≤ .internal
  accepted : t.postInit = .ok t

structure Fleet.Constructed (sha256 : Str → Str) (fleet : Fleet) : Prop where
  deployments : ∀ d ∈ fleet.deployments, d.Constructed
  aliases : ∀ a ∈ fleet.aliases, AliasConstructed a
  registry : fleet.registry.Constructed sha256
  defaultGuardrails : ∀ g ∈ fleet.defaultGuardrails, g.postInit = .ok g
  defaultPolicy : ∀ bundle, fleet.defaultPolicy = some bundle → bundle.Constructed
  accepted : fleet.postInit = .ok fleet

end ModelGateway.Control
