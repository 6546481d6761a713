import ModelGateway.Guardrails.Chain
import ModelGateway.Pii.Transform
import ModelGateway.Policy.Evaluate
import ModelGateway.Router.Execute
import ModelGateway.Shadow.Mirror

namespace ModelGateway.Gateway

structure Request where
  requestMeta : RequestMeta
  apiKey : Str
  body : Str
  deepInspection : Bool
  deriving DecidableEq, Repr

structure Pipeline where
  providers : Str → Option Router.Provider
  router : Router
  vault : Bool
  ner : Bool
  shadows : Bool
  region : Str
  pepper : Str
  hmac : Str → Str → Str
  codec : Policy.Codec

structure LimitDecision where
  allowed : Bool
  reason : Code
  retryAfter : Int

abbrev GuardrailOutcome := Guardrails.Outcome

abbrev Reply : Bool → Type
  | true => Nat
  | false => ProviderResponse

structure Ports where
  now : Nat → Int
  limiterAdmit : Nat → Principal → LimitDecision
  guardrails : Nat → List GuardrailBinding → GuardrailInput → Except GoError GuardrailOutcome
  health : Nat → Str → ℚ
  draw : Nat → ℚ
  situation : Nat → Nat → Router.Situation
  resolve : Nat → Str → Except GoError Credential
  ner : Nat → Str → Except GoError (List Pii.DetectedEntity)
  storeSet : Nat → Str → Option GoError
  storeDelete : Nat → Str → Bool
  invoke : Nat → ProviderCall → Except (GoError × Option ProviderResponse) ProviderResponse
  stream : Nat → ProviderCall → Except GoError Nat
  mirrorDraw : Nat → Nat → ℚ
  mirrorRoom : Nat → Nat → Bool

def Ports.answer (ports : Ports) (n : Nat) (call : ProviderCall)
    : (stream : Bool) → Except GoError (Reply stream)
  | true => ports.stream n call
  | false =>
    match ports.invoke n call with
    | .ok response => .ok response
    | .error (err, _) => .error err

theorem Ports.answer_false_eq_ok_iff {ports : Ports} {n : Nat} {call : ProviderCall}
    {response : ProviderResponse}
    : ports.answer n call false = .ok response ↔ ports.invoke n call = .ok response := by
  unfold Ports.answer
  cases ports.invoke n call with
  | ok r => simp
  | error e => simp

structure UsageEvent where
  requestID : Str
  tenant : Str
  keyID : Str
  tier : Str
  deployment : Str
  route : RoutingKey
  provider : Str
  stream : Bool
  shadow : Bool
  usage : TokenUsage
  costMicroUSD : Int
  priceMicroUSD : Int
  outcome : Option Code
  snapshotVersion : Nat
  budgets : List Str
  deriving DecidableEq, Repr

structure AuditEvent where
  eventID : Str
  requestID : Str
  tenant : Str
  actor : Str
  action : Str
  resource : Str
  outcome : Option Code
  reason : Str
  sourceIP : Option Addr
  snapshotVersion : Nat
  deriving DecidableEq, Repr

inductive Event where
  | usage (e : UsageEvent)
  | audit (e : AuditEvent)
  deriving DecidableEq, Repr

inductive LimiterCall where
  | admitted (p : Principal)
  | release (p : Principal)
  | recordTokens (p : Principal) (tokens : Int)
  deriving DecidableEq, Repr

structure Sent where
  call : ProviderCall
  stream : Bool
  tick : Nat
  deriving DecidableEq, Repr

structure GuardrailRun where
  bindings : List GuardrailBinding
  input : GuardrailInput
  answer : Except GoError GuardrailOutcome

structure World where
  tick : Nat
  breakers : Router.Breakers
  policies : Policy.Cache
  store : GoMap Str Str
  stored : List Str
  runs : List GuardrailRun
  sent : List Sent
  limiter : List LimiterCall
  events : List Event
  jobs : List Shadow.Job

namespace World

def zero : World := ⟨0, ∅, .new, ∅, [], [], [], [], [], []⟩

@[simps]
def advance (w : World) : World :=
  { w with tick := w.tick + 1 }

@[simps]
def guarded (w : World) (run : GuardrailRun) : World :=
  { w with runs := w.runs ++ [run] }

@[simps]
def hand (w : World) (n : Nat) (call : ProviderCall) (stream : Bool) : World :=
  { w with sent := w.sent ++ [⟨call, stream, n⟩] }

@[simps]
def emit (w : World) (events : List Event) : World :=
  { w with events := w.events ++ events }

@[simps]
def limit (w : World) (call : LimiterCall) : World :=
  { w with limiter := w.limiter ++ [call] }

@[simps]
def vaulted (w : World) (store : GoMap Str Str) (stored : List Str) : World :=
  { w with store := store, stored := w.stored ++ stored }

end World

end ModelGateway.Gateway
