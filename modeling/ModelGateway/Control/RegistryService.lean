import ModelGateway.Accounting.Columns
import ModelGateway.Control.Manifest

namespace ModelGateway.Control

open Accounting.Postgres (InRange)
open FineTune (Failure)
open Signing (Signature TrustStore)
open TextColumn (varchar)

section

structure ComponentRow where
  name : Str
  version : Str
  port : Port
  status : Status
  manifestDigest : Str
  configSchema : Str
  latencyBudgetMs : Int
  failureMode : FailureMode
  execution : Execution
  image : Str
  moduleDigest : Str
  signingKeyID : Str
  signature : Str
  capabilities : List Str
  admissions : List Admission
  deriving DecidableEq

namespace ComponentRow

variable (rt : Runtime) (row : ComponentRow)

def manifest : Manifest where
  name := row.name
  version := row.version
  port := row.port
  configSchema := row.configSchema
  latencyBudgetMs := row.latencyBudgetMs
  failureMode := row.failureMode
  execution := row.execution
  capabilities := row.capabilities.mergeSort fun s t => s ≤ t
  image := row.image
  moduleDigest := row.moduleDigest

def toManifest : Except Error Manifest :=
  row.manifest.postInit rt

def toSignature : Except Error (Option Signature) :=
  if row.signingKeyID = [] ∨ row.signature = [] then
    .ok none
  else
    (Signature.decode row.signingKeyID row.signature).map some

def toAdmission : Except Error (Option Admission) :=
  match row.admissions.getLast? with
  | none => .ok none
  | some a => a.postInit.map some

def toComponent : Except Error Component := do
  let manifest ← row.toManifest rt
  let admission ← row.toAdmission
  let signature ← row.toSignature
  Component.postInit rt.sha256 ⟨manifest, row.status, admission, signature⟩

end ComponentRow

def Manifest.columns (m : Manifest) : Option Manifest := do
  let name ← varchar 64 m.name
  let version ← varchar 64 m.version
  let image ← varchar 512 m.image
  let moduleDigest ← varchar 128 m.moduleDigest
  let capabilities ← m.capabilities.mapM (varchar 64)
  if capabilities.Nodup ∧ InRange m.latencyBudgetMs ∧ m.configSchema.contains 0 = false then
    some { m with
      name := name
      version := version
      image := image
      moduleDigest := moduleDigest
      capabilities := capabilities }
  else
    none

def Admission.columns (a : Admission) : Option Admission := do
  let suiteVersion ← varchar 64 a.suiteVersion
  let manifestDigest ← varchar 64 a.manifestDigest
  let runner ← varchar 255 a.runner
  return { a with suiteVersion := suiteVersion, manifestDigest := manifestDigest, runner := runner }

def componentRow (m : Manifest) (digest : Str) (signature : Option Signature)
    : Option ComponentRow := do
  let stored ← m.columns
  let manifestDigest ← varchar 64 digest
  let signingKeyID ← varchar 128 ((signature.map (·.keyID)).getD [])
  let encoded ← varchar 256 ((signature.map (·.encoded)).getD [])
  return {
    name := stored.name
    version := stored.version
    port := stored.port
    status := .pending
    manifestDigest := manifestDigest
    configSchema := stored.configSchema
    latencyBudgetMs := stored.latencyBudgetMs
    failureMode := stored.failureMode
    execution := stored.execution
    image := stored.image
    moduleDigest := stored.moduleDigest
    signingKeyID := signingKeyID
    signature := encoded
    capabilities := stored.capabilities
    admissions := []
  }

end

section

abbrev ComponentTable := List ComponentRow

def raised {α : Type} (result : Except Error α) : Except Failure α :=
  match result with
  | .error err => .error (.gateway err)
  | .ok a => .ok a

@[simp]
theorem raised_eq_ok_iff {α : Type} {result : Except Error α} {a : α}
    : raised result = .ok a ↔ result = .ok a := by
  unfold raised
  cases result with
  | error err => simp
  | ok b => simp

variable (rt : Runtime)

def ComponentRow.record (row : ComponentRow) (m : Manifest) (a : Admission)
    : Except Failure ComponentRow :=
  if a.manifestDigest ≠ m.digest rt.sha256 then
    .error (.conflict (str "the admission for " ++ m.ref
      ++ str " covers a different manifest; it was edited after the suite ran"))
  else if a.suite ≠ m.port then
    .error (.conflict (m.ref ++ str " fills " ++ m.port.value ++ str " but was tested against the "
      ++ a.suite.value ++ str " suite"))
  else
    match a.columns with
    | none => .error .external
    | some stored =>
      let recorded := { row with
        admissions := row.admissions ++ [stored]
        -- no run brings a retired component back
        status :=
          if row.status = .retired then .retired else if a.passed then .active else .pending }
      (raised (recorded.toComponent rt)).map fun _ => recorded

def ComponentRow.retire (row : ComponentRow) : Except Failure ComponentRow :=
  let retired := { row with status := .retired }
  (raised (retired.toComponent rt)).map fun _ => retired

namespace ComponentTable

def find (t : ComponentTable) (name version : Str) : Option Nat :=
  t.findIdx? fun row => row.name = name ∧ row.version = version

def require (t : ComponentTable) (name version : Str) : Except Failure (Nat × ComponentRow) :=
  match (t.find name version).bind fun i => t[i]?.map fun row => (i, row) with
  | none => .error (.notFound (str "no component " ++ name ++ str "@" ++ version ++ str " is registered"))
  | some found => .ok found

def register (t : ComponentTable) (trust : TrustStore) (m : Manifest) (signature : Option Signature)
    : Except Failure ComponentTable := do
  let m ← raised (m.postInit rt)
  let signature ← raised (signature.mapM Signature.postInit)
  if (t.find m.name m.version).isSome then
    .error (.conflict (m.ref ++ str " is already registered; publish a new version instead"))
  else do
    let _ ← raised (trust.verifyForRegistration rt.ed25519 (m.digest rt.sha256) signature)
    match componentRow m (m.digest rt.sha256) signature with
    | none => .error .external
    | some row => return t ++ [row]

def update (t : ComponentTable) (name version : Str)
    (change : ComponentRow → Except Failure ComponentRow)
    : Except Failure ComponentTable := do
  let (i, row) ← t.require name version
  let row ← change row
  return t.set i row

def admitComponent (t : ComponentTable) (name version : Str) (gate : Manifest → Except Failure Admission)
    : Except Failure ComponentTable :=
  t.update name version fun row => do
    let m ← raised (row.toManifest rt)
    let a ← gate m
    let a ← raised a.postInit
    row.record rt m a

def recordAdmission (t : ComponentTable) (name version : Str) (a : Admission)
    : Except Failure ComponentTable := do
  let a ← raised a.postInit
  t.update name version fun row => do
    let m ← raised (row.toManifest rt)
    row.record rt m a

def retire (t : ComponentTable) (name version : Str) : Except Failure ComponentTable :=
  t.update name version fun row => row.retire rt

inductive Op where
  | register (trust : TrustStore) (m : Manifest) (signature : Option Signature)
  | admitComponent (name version : Str) (gate : Manifest → Except Failure Admission)
  | recordAdmission (name version : Str) (a : Admission)
  | retire (name version : Str)

def step (t : ComponentTable) : Op → ComponentTable
  | .register trust m signature => (t.register rt trust m signature).toOption.getD t
  | .admitComponent name version gate => (t.admitComponent rt name version gate).toOption.getD t
  | .recordAdmission name version a => (t.recordAdmission rt name version a).toOption.getD t
  | .retire name version => (t.retire rt name version).toOption.getD t

end ComponentTable

end

end ModelGateway.Control
