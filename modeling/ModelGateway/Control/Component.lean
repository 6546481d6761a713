import ModelGateway.Control.Signing
import ModelGateway.Pii.Transform

namespace ModelGateway.Control

open Signing (Signature)

inductive Port where
  | provider
  | guardrail
  | store
  | telemetry
  | trainer
  | eval
  deriving DecidableEq, Repr

def Port.value : Port → Str
  | .provider => str "provider"
  | .guardrail => str "guardrail"
  | .store => str "store"
  | .telemetry => str "telemetry"
  | .trainer => str "trainer"
  | .eval => str "eval"

def failureModeValue : FailureMode → Str
  | .failOpen => str "open"
  | .failClosed => str "closed"

inductive Execution where
  | inProcess
  | sidecar
  | builtin
  deriving DecidableEq, Repr

def Execution.value : Execution → Str
  | .inProcess => str "in_process"
  | .sidecar => str "sidecar"
  | .builtin => str "builtin"

inductive Status where
  | pending
  | active
  | retired
  deriving DecidableEq, Repr

def Status.value : Status → Str
  | .pending => str "pending"
  | .active => str "active"
  | .retired => str "retired"

structure Manifest where
  name : Str
  version : Str
  port : Port
  configSchema : Str
  latencyBudgetMs : Int
  failureMode : FailureMode
  execution : Execution
  capabilities : List Str
  image : Str
  moduleDigest : Str
  deriving DecidableEq, Repr

def Manifest.ref (m : Manifest) : Str :=
  m.name ++ str "@" ++ m.version

def jsonByte (b : UInt8) : Str :=
  if b = 0x22 then str "\\\""
  else if b = 0x5c then str "\\\\"
  else if b = 0x0a then str "\\n"
  else if b = 0x0d then str "\\r"
  else if b = 0x09 then str "\\t"
  else if b = 0x0c then str "\\f"
  else if b = 0x08 then str "\\b"
  else if b < 0x20 then str "\\u00" ++ Pii.hexEncode [b]
  else [b]

def jsonString (s : Str) : Str :=
  str "\"" ++ s.flatMap jsonByte ++ str "\""

def jsonStrings (l : List Str) : Str :=
  str "[" ++ List.intercalate (str ",") (l.map jsonString) ++ str "]"

def jsonObject (members : List (Str × Str)) : Str :=
  str "\x7b"
    ++ List.intercalate (str ",") (members.map fun (name, value) => jsonString name ++ str ":" ++ value)
    ++ str "\x7d"

def Manifest.payload (m : Manifest) : Str :=
  jsonObject [
    (str "capabilities", jsonStrings (m.capabilities.mergeSort fun s t => s ≤ t)),
    (str "config_schema", jsonString m.configSchema),
    (str "execution", jsonString m.execution.value),
    (str "failure_mode", jsonString (failureModeValue m.failureMode)),
    (str "image", jsonString m.image),
    (str "latency_budget_ms", decimal m.latencyBudgetMs),
    (str "module", jsonString m.moduleDigest),
    (str "name", jsonString m.name),
    (str "port", jsonString m.port.value),
    (str "version", jsonString m.version)]

def Manifest.digest (sha256 : Str → Str) (m : Manifest) : Str :=
  Pii.hexEncode (sha256 m.payload)

structure Admission where
  suite : Port
  suiteVersion : Str
  manifestDigest : Str
  passed : Bool
  runner : Str
  deriving DecidableEq, Repr

def Admission.postInit (a : Admission) : Except Error Admission :=
  if a.runner = [] then
    .error (.invalidRequest (str "an admission must name what ran the suite"))
  else if a.suiteVersion = [] then
    .error (.invalidRequest (str "an admission must name the suite version that ran"))
  else if a.manifestDigest.length ≠ 64 then
    .error (.invalidRequest (str "an admission must bind to a manifest digest"))
  else
    .ok a

structure Component where
  manifest : Manifest
  status : Status
  admission : Option Admission
  signature : Option Signature
  deriving DecidableEq, Repr

def Component.isBindable (c : Component) : Bool :=
  c.status = .active

structure Registry where
  components : List Component

namespace Registry

def empty : Registry := ⟨[]⟩

def resolve (r : Registry) (port : Port) (name version : Str) : Except Error Component :=
  if version ≠ [] then
    match r.components.find? fun c =>
        c.manifest.port = port ∧ c.manifest.name = name ∧ c.manifest.version = version with
    | none =>
      .error (.notFound (str "no " ++ port.value ++ str " component " ++ name ++ str "@" ++ version
        ++ str " is registered"))
    | some component => .ok component
  else
    match r.components.filter fun c =>
        c.manifest.port = port ∧ c.manifest.name = name ∧ c.isBindable with
    | [] =>
      .error (.notFound (str "no bindable " ++ port.value ++ str " component named " ++ repr name
        ++ str " is registered"))
    | [component] => .ok component
    | candidates =>
      let versions := (candidates.map fun c => c.manifest.version).mergeSort fun s t => s ≤ t
      .error (.invalidRequest (repr name ++ str " is bindable at more than one version ("
        ++ List.intercalate (str ", ") versions ++ str "); name one"))

end Registry

section

variable (sha256 : Str → Str)

def Component.isAdmitted (c : Component) : Bool :=
  match c.admission with
  | none => false
  | some a => a.passed && a.manifestDigest = c.manifest.digest sha256 && a.suite = c.manifest.port

def Component.postInit (c : Component) : Except Error Component :=
  if c.status = .active ∧ !c.isAdmitted sha256 then
    .error (.invalidRequest (str "component " ++ c.manifest.ref
      ++ str " cannot be active without a passing admission bound to its current manifest"))
  else
    .ok c

def Registry.add (index : List (Port × Str × Str)) (c : Component)
    : Except Error (List (Port × Str × Str)) :=
  let key := (c.manifest.port, c.manifest.name, c.manifest.version)
  if key ∈ index then
    .error (.invalidRequest (str "component " ++ c.manifest.ref ++ str " is registered twice"))
  else
    .ok (key :: index)

def Registry.postInit (r : Registry) : Except Error Registry := do
  let _ ← r.components.foldlM Registry.add []
  return r

structure Component.Constructed (c : Component) : Prop where
  admission : ∀ a, c.admission = some a → a.postInit = .ok a
  signature : ∀ s, c.signature = some s → s.postInit = .ok s
  accepted : c.postInit sha256 = .ok c

structure Registry.Constructed (r : Registry) : Prop where
  components : ∀ c ∈ r.components, c.Constructed sha256
  accepted : ∃ r', r.postInit = .ok r'

end

end ModelGateway.Control
