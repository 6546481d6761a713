import Mathlib

/-!
This module contains the types of the data plane's core: tiers, classes, principals, budgets and plugins.
-/

namespace ModelGateway

/-- A Go string. Python's `str` is carried as its UTF-8 encoding. -/
abbrev Str := List UInt8

def str (s : String) : Str :=
  s.toUTF8.data.toList

/-- A Go map, which is iterated in the order of its entries. -/
abbrev GoMap (K V : Type) := AList (fun _ : K => V)

/-
Times are nanoseconds since the zero `time.Time`, so that `IsZero` is `t = 0`, and durations are
nanoseconds. Both are plain integers.
-/

def second : Int := 1000000000

def millisecond : Int := 1000000

def int64 (x : Int) : Int :=
  x.bmod (2 ^ 64)

namespace Str

def ofNat (n : Nat) : Str :=
  str (toString n)

def quoteByte (b : UInt8) : Str :=
  if b = 34 ∨ b = 92 then
    [92, b]
  else if b = 7 then
    str "\\a"
  else if b = 8 then
    str "\\b"
  else if b = 9 then
    str "\\t"
  else if b = 10 then
    str "\\n"
  else if b = 11 then
    str "\\v"
  else if b = 12 then
    str "\\f"
  else if b = 13 then
    str "\\r"
  else if b < 32 ∨ b = 127 then
    str "\\x" ++ [hexDigit (b / 16), hexDigit (b % 16)]
  else
    [b]
where
  hexDigit (n : UInt8) : UInt8 :=
    if n < 10 then 48 + n else 87 + n

def quote (s : Str) : Str :=
  [34] ++ s.flatMap quoteByte ++ [34]

end Str

inductive Code where
  | unauthenticated
  | forbidden
  | invalidRequest
  | modelNotFound
  | noCandidates
  | trustTierDenied
  | rateLimited
  | budgetExhausted
  | endpointUnsupported
  | guardrailDenied
  | upstreamError
  | upstreamTimeout
  | unavailable
  | internal
  deriving DecidableEq, Repr

inductive GoError where
  | new (code : Code) (message : Str) (retryable : Bool)
  | wrap (code : Code) (message : Str) (retryable : Bool) (cause : GoError)
  | foreign (text : Str)
  | foreignWrap (text : Str) (cause : GoError)
  deriving DecidableEq, Repr

namespace GoError

def ofCode (code : Code) (message : Str) : GoError :=
  .new code message false

def invalid (message : Str) : GoError :=
  .ofCode .invalidRequest message

def codeOf : GoError → Code
  | .new code _ _ => code
  | .wrap code _ _ _ => code
  | .foreign _ => .internal
  | .foreignWrap _ cause => cause.codeOf

def isRetryable : GoError → Bool
  | .new _ _ retryable => retryable
  | .wrap _ _ retryable _ => retryable
  | .foreign _ => false
  | .foreignWrap _ cause => cause.isRetryable

end GoError

/-- The source's `uint8`, of which only the order is used. -/
abbrev TrustTier := Nat

namespace TrustTier

def unset : TrustTier := 0
def external : TrustTier := 1
def privateCloud : TrustTier := 2
def internal : TrustTier := 3

def valid (t : TrustTier) : Bool :=
  external ≤ t && t ≤ internal

def atLeast (t min : TrustTier) : Bool :=
  min ≤ t

@[simp]
theorem atLeast_iff (t min : TrustTier) : atLeast t min = true ↔ min ≤ t := by
  simp [atLeast]

end TrustTier

inductive DataClass where
  | unset
  | publicData
  | internal
  | confidential
  | restricted
  | other (name : Str)
  deriving DecidableEq, Repr

def DataClass.ofStr (s : Str) : DataClass :=
  if s = [] then .unset
  else if s = str "public" then .publicData
  else if s = str "internal" then .internal
  else if s = str "confidential" then .confidential
  else if s = str "restricted" then .restricted
  else .other s

def DataClass.name : DataClass → Str
  | .unset => []
  | .publicData => str "public"
  | .internal => str "internal"
  | .confidential => str "confidential"
  | .restricted => str "restricted"
  | .other name => name

inductive Endpoint where
  | chatCompletions
  | messages
  | embeddings
  deriving DecidableEq, Repr

def Endpoint.name : Endpoint → Str
  | .chatCompletions => str "chat_completions"
  | .messages => str "messages"
  | .embeddings => str "embeddings"

structure RoutingKey where
  baseModel : Str
  adapterID : Str
  deriving DecidableEq, Repr

def RoutingKey.isAdapter (k : RoutingKey) : Bool :=
  k.adapterID ≠ []

def RoutingKey.toStr (k : RoutingKey) : Str :=
  if k.adapterID = [] then k.baseModel else k.baseModel ++ str "+" ++ k.adapterID

structure TokenUsage where
  input : Int
  cachedInput : Int
  cacheWrite : Int
  output : Int
  deriving DecidableEq, Repr

def TokenUsage.zero : TokenUsage := ⟨0, 0, 0, 0⟩

def TokenUsage.total (u : TokenUsage) : Int :=
  int64 (u.input + u.cachedInput + u.cacheWrite + u.output)

structure Cost where
  inputPer1K : Int
  outputPer1K : Int
  cachedInputPer1K : Int
  cacheWritePer1K : Int
  deriving DecidableEq, Repr

def Cost.forUsage (c : Cost) (usage : TokenUsage) : Int :=
  let cached := if c.cachedInputPer1K = 0 then c.inputPer1K else c.cachedInputPer1K
  let write := if c.cacheWritePer1K = 0 then c.inputPer1K else c.cacheWritePer1K
  let total :=
    int64
      (usage.input * c.inputPer1K + usage.cachedInput * cached + usage.cacheWrite * write
        + usage.output * c.outputPer1K)
  total.tdiv 1000

structure Deployment where
  id : Str
  key : RoutingKey
  provider : Str
  endpoint : Str
  region : Str
  trustTier : TrustTier
  credentialRef : Str
  weight : Nat
  shadowPercent : Nat
  cost : Cost
  capabilities : List Str
  deriving DecidableEq, Repr

namespace Deployment

def supports (d : Deployment) (required : List Str) : Bool :=
  required.all (d.capabilities.contains ·)

def serving (d : Deployment) : Bool :=
  0 < d.weight

def shadowing (d : Deployment) : Bool :=
  0 < d.shadowPercent && d.key.isAdapter

end Deployment

structure ModelAlias where
  name : Str
  targets : List RoutingKey
  deriving DecidableEq, Repr

inductive BudgetScope where
  | unset
  | key
  | app
  | user
  | team
  | org
  | model
  | training
  deriving DecidableEq, Repr

structure BudgetRef where
  id : Str
  scope : BudgetScope
  deriving DecidableEq, Repr

structure BudgetState where
  id : Str
  scope : BudgetScope
  limitMicroUSD : Int
  spentMicroUSD : Int
  hard : Bool
  headroomBasisPoints : Nat
  deriving DecidableEq, Repr

def basisPointsPerUnit : Nat := 10000

def BudgetState.available (b : BudgetState) : Int :=
  let reserved := (int64 (b.limitMicroUSD * b.headroomBasisPoints)).tdiv basisPointsPerUnit
  let remaining := int64 (b.limitMicroUSD - reserved - b.spentMicroUSD)
  if remaining < 0 then 0 else remaining

def BudgetState.denies (b : BudgetState) : Bool :=
  b.hard && b.available = 0

structure ModelAllowlist where
  allowAll : Bool
  names : List Str
  deriving DecidableEq, Repr

def ModelAllowlist.permits (a : ModelAllowlist) (name : Str) : Bool :=
  a.allowAll || a.names.contains name

structure RateLimit where
  requestsPerMinute : Nat
  tokensPerMinute : Nat
  maxConcurrent : Nat
  deriving DecidableEq, Repr

structure Principal where
  keyID : Str
  tenant : Str
  org : Str
  team : Str
  user : Str
  app : Str
  roles : List Str
  models : ModelAllowlist
  budgets : List BudgetRef
  defaultClass : DataClass
  minTrustTier : TrustTier
  limits : RateLimit
  deprecated : Bool
  notAfter : Int
  deriving DecidableEq, Repr

def Principal.zero : Principal where
  keyID := []
  tenant := []
  org := []
  team := []
  user := []
  app := []
  roles := []
  models := ⟨false, []⟩
  budgets := []
  defaultClass := .unset
  minTrustTier := .unset
  limits := ⟨0, 0, 0⟩
  deprecated := false
  notAfter := 0

inductive Addr where
  | v4 (bits : BitVec 32)
  | v6 (bits : BitVec 128) (zone : Str)
  deriving DecidableEq, Repr

structure Prefix where
  addr : Addr
  bits : Nat
  deriving DecidableEq, Repr

def Prefix.contains (p : Prefix) (ip : Addr) : Bool :=
  match p.addr, ip with
  | .v4 net, .v4 a => net >>> (32 - p.bits) == a >>> (32 - p.bits)
  | .v6 net _, .v6 a zone => zone == [] && net >>> (128 - p.bits) == a >>> (128 - p.bits)
  | _, _ => false

structure RequestMeta where
  requestID : Str
  model : Str
  endpoint : Endpoint
  stream : Bool
  payloadBytes : Int
  sourceIP : Option Addr
  idempotencyKey : Str
  deadline : Int
  deriving DecidableEq, Repr

inductive Phase where
  | request
  | response
  deriving DecidableEq, Repr

inductive FailureMode where
  | failOpen
  | failClosed
  deriving DecidableEq, Repr

structure GuardrailBudget where
  timeout : Int
  mode : FailureMode
  blocking : Bool
  phases : List Phase
  deriving DecidableEq, Repr

structure GuardrailBinding where
  component : Str
  version : Str
  configRef : Str
  execution : Str
  moduleDigest : Str
  budget : GuardrailBudget
  deriving DecidableEq, Repr

def GuardrailBinding.inspects (b : GuardrailBinding) (phase : Phase) : Bool :=
  if b.budget.phases = [] then phase = .request else b.budget.phases.contains phase

structure GuardrailInput where
  phase : Phase
  requestMeta : RequestMeta
  dataClass : DataClass
  tier : TrustTier
  payload : Str
  deriving DecidableEq, Repr

structure Credential where
  ref : Str
  secret : Str
  deriving DecidableEq, Repr

structure ProviderCall where
  deployment : Deployment
  requestMeta : RequestMeta
  body : Str
  credential : Credential
  deriving DecidableEq, Repr

structure ProviderResponse where
  statusCode : Int
  body : Str
  usage : TokenUsage
  deriving DecidableEq, Repr

end ModelGateway
