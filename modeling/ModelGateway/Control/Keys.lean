import ModelGateway.Control.Component

/-!
This module contains the key service: issue, rotate and revoke, with their idempotency records.
-/

namespace ModelGateway.Control.Keys

structure KeyColumns where
  id : Str
  tenantID : Str
  applicationID : Option Str
  userID : Option Str
  modelsAllowAll : Bool
  defaultDataClass : Str
  minTrustTier : Int
  requestsPerMinute : Nat
  tokensPerMinute : Nat
  maxConcurrent : Nat
  deprecated : Bool
  notAfter : Option Int
  revokedAt : Option Int
  deriving DecidableEq

structure ApiKey where
  columns : KeyColumns
  lookup : Str
  deriving DecidableEq

structure IdempotencyRecord where
  key : Str
  endpoint : Str
  requestFingerprint : Str
  statusCode : Nat
  responseBody : Str
  deriving DecidableEq

structure Database where
  tenants : GoMap Str Int
  keyPrefixes : List (Str × Str)
  apiKeys : List ApiKey
  keyRoles : List (Str × Str)
  keyModels : List (Str × Str)
  keyBudgets : List (Str × Str)
  idempotencyRecords : List IdempotencyRecord
  deriving DecidableEq

inductive Failure where
  | gateway (err : Error)
  | conflict (message : Str)
  /-- An error of the database, which the API does not map. -/
  | database
  deriving DecidableEq

def Failure.invalidRequest (message : Str) : Failure :=
  .gateway (.invalidRequest message)

def Failure.notFound (message : Str) : Failure :=
  .gateway (.notFound message)

structure Settings where
  pepper : Str
  overlap : Int
  hmac : Str → Str → Str
  sha256 : Str → Str
  upper : Str → Str
  acceptsKey : KeyColumns → Bool
  acceptsRecord : Str → Bool

def urlSafe (b : UInt8) : Bool :=
  (0x30 ≤ b && b ≤ 0x39) || (0x41 ≤ b && b ≤ 0x5a) || (0x61 ≤ b && b ≤ 0x7a) || b = 0x2d || b = 0x5f

/--
What `secrets.token_urlsafe` can return for `KEY_SECRET_BYTES`.
-/
abbrev Secret := { s : Str // s.length = 43 ∧ s.all urlSafe = true }

structure IssuedKey where
  keyID : Str
  tenantPrefix : Str
  presented : Str
  lookup : Str

structure NewKey where
  keyID : Str
  presented : Str

def minPepperBytes : Nat := 32

def keyScheme : Str := str "gw_"

section

variable (s : Settings)

def computeKeyLookup (secret : Str) : Except Failure Str :=
  if s.pepper.length < minPepperBytes then
    .error (.invalidRequest (str "the key pepper must be at least " ++ Str.ofNat minPepperBytes
      ++ str " bytes, got " ++ Str.ofNat s.pepper.length))
  else
    .ok (s.hmac s.pepper secret)

def presented (tenantPrefix : Str) (secret : Secret) : Str :=
  keyScheme ++ tenantPrefix ++ str "_" ++ secret.val

def issueKey (tenantPrefix keyID : Str) (secret : Secret) : Except Failure IssuedKey :=
  if tenantPrefix = [] ∨ tenantPrefix.contains 0x5f then
    .error (.invalidRequest (str "a tenant prefix must be non-empty and contain no underscore"))
  else if keyID = [] then
    .error (.invalidRequest (str "an issued key needs an id"))
  else
    match computeKeyLookup s secret.val with
    | .error f => .error f
    | .ok lookup => .ok ⟨keyID, tenantPrefix, presented tenantPrefix secret, lookup⟩

end

namespace Database

variable (s : Settings) (db : Database)

def key (id : Str) : Option KeyColumns :=
  (db.apiKeys.map (·.columns)).find? fun columns => columns.id = id

def lookups : List Str :=
  db.apiKeys.map (·.lookup)

def insertKey (row : ApiKey) : Except Failure Database :=
  if s.acceptsKey row.columns ∧ !db.lookups.contains row.lookup then
    .ok { db with apiKeys := db.apiKeys ++ [row] }
  else
    .error .database

def firstPrefix (tenantID : Str) : Except Failure Str :=
  let owned := (db.keyPrefixes.filter fun p => p.2 = tenantID).map (·.1)
  match owned.insertionSort (· ≤ ·) with
  | [] =>
    .error (.invalidRequest (str "tenant " ++ repr tenantID
      ++ str " has no key prefix, so a key cannot be routed to it"))
  | pre :: _ => .ok pre

def bumpTenantVersion (tenantID : Str) : Database :=
  match db.tenants.lookup tenantID with
  | none => db
  | some version => { db with tenants := db.tenants.insert tenantID (version + 1) }

def inherited (grants : List (Str × Str)) (keyID successorID : Str) : List (Str × Str) :=
  (grants.filter fun g => g.1 = keyID).map fun g => (successorID, g.2)

def inherit (keyID successorID : Str) : Except Failure Database :=
  if [db.keyRoles, db.keyModels, db.keyBudgets].all fun grants =>
      (inherited grants keyID successorID).all fun g => !grants.contains g then
    .ok { db with
      keyRoles := db.keyRoles ++ inherited db.keyRoles keyID successorID
      keyModels := db.keyModels ++ inherited db.keyModels keyID successorID
      keyBudgets := db.keyBudgets ++ inherited db.keyBudgets keyID successorID }
  else
    .error .database

def markDeprecated (keyID : Str) (notAfter : Int) : Database :=
  { db with
    apiKeys := db.apiKeys.map fun row =>
      if row.columns.id = keyID then
        { row with columns := { row.columns with deprecated := true, notAfter := some notAfter } }
      else
        row }

def markRevoked (keyID : Str) (now : Int) : Database :=
  { db with
    apiKeys := db.apiKeys.map fun row =>
      if row.columns.id = keyID then
        { row with columns := { row.columns with revokedAt := some now } }
      else
        row }

end Database

structure IssueKeyRequest where
  keyID : Str
  applicationID : Option Str
  userID : Option Str
  modelsAllowAll : Bool
  minTrustTier : Str
  requestsPerMinute : Nat
  tokensPerMinute : Nat
  maxConcurrent : Nat

structure RotateKeyRequest where
  newKeyID : Option Str

inductive Operation where
  | issueKey (tenantID : Str) (body : IssueKeyRequest)
  | rotateKey (keyID : Str) (body : RotateKeyRequest)

structure Call where
  operation : Operation
  dryRun : Bool
  idempotencyKey : Option Str
  namedAt : Int
  deprecatedAt : Int

def Call.retryKey (call : Call) : Option Str :=
  call.idempotencyKey.filter (· ≠ [])

section

variable (s : Settings) (db : Database) (secret : Secret)

def IssueKeyRequest.columns (body : IssueKeyRequest) (tenantID : Str) (tier : Int)
    : KeyColumns where
  id := body.keyID
  tenantID := tenantID
  applicationID := body.applicationID
  userID := body.userID
  modelsAllowAll := body.modelsAllowAll
  defaultDataClass := []
  minTrustTier := tier
  requestsPerMinute := body.requestsPerMinute
  tokensPerMinute := body.tokensPerMinute
  maxConcurrent := body.maxConcurrent
  deprecated := false
  notAfter := none
  revokedAt := none

def issue (tenantID : Str) (body : IssueKeyRequest) (tier : Int)
    : Except Failure (NewKey × Database) :=
  if body.applicationID.isNone = body.userID.isNone then
    .error (.invalidRequest (str "a key belongs to exactly one application or user"))
  else if (db.tenants.lookup tenantID).isNone then
    .error (.notFound (str "no tenant " ++ repr tenantID))
  else if (db.key body.keyID).isSome then
    .error (.conflict (str "key " ++ repr body.keyID ++ str " already exists"))
  else do
    let pre ← db.firstPrefix tenantID
    let minted ← issueKey s pre body.keyID secret
    let db ← db.insertKey s ⟨body.columns tenantID tier, minted.lookup⟩
    .ok (⟨body.keyID, minted.presented⟩, db.bumpTenantVersion tenantID)

def successorID (keyID : Str) (newKeyID : Option Str) (now : Int) : Str :=
  match newKeyID.filter (· ≠ []) with
  | some id => id
  | none => keyID ++ str "-" ++ decimal (now.tdiv 1000000)

def KeyColumns.successor (existing : KeyColumns) (id : Str) : KeyColumns :=
  { existing with id := id, deprecated := false, notAfter := none, revokedAt := none }

def rotate (keyID : Str) (newKeyID : Option Str) (namedAt deprecatedAt : Int)
    : Except Failure (NewKey × Database) :=
  match db.key keyID with
  | none => .error (.notFound (str "no key " ++ repr keyID))
  | some existing =>
    let id := successorID keyID newKeyID namedAt
    if existing.revokedAt.isSome then
      .error (.conflict (str "key " ++ repr keyID ++ str " is revoked; issue a new one instead"))
    else if (db.key id).isSome then
      .error (.conflict (str "key " ++ repr id ++ str " already exists"))
    else do
      let pre ← db.firstPrefix existing.tenantID
      let minted ← issueKey s pre id secret
      let db ← db.insertKey s ⟨existing.successor id, minted.lookup⟩
      let db ← db.inherit keyID id
      .ok (⟨id, minted.presented⟩,
        (db.markDeprecated keyID (deprecatedAt + s.overlap)).bumpTenantVersion existing.tenantID)

def revoke (keyID : Str) (now : Int) : Except Failure Database :=
  match db.key keyID with
  | none => .error (.notFound (str "no key " ++ repr keyID))
  | some existing =>
    if existing.revokedAt.isSome then
      .ok db
    else
      .ok ((db.markRevoked keyID now).bumpTenantVersion existing.tenantID)

end

section

variable (s : Settings) (db : Database)

def fingerprint (payload : Str) : Str :=
  Pii.hexEncode (s.sha256 payload)

structure Response where
  statusCode : Nat
  body : Str

def Database.record (key endpoint : Str) : Option IdempotencyRecord :=
  db.idempotencyRecords.find? fun r => r.key = key ∧ r.endpoint = endpoint

-- The stored text is read and written back, which gives the same text.
def Database.replay (key endpoint payload : Str) : Except Failure (Option Response) :=
  match db.record key endpoint with
  | none => .ok none
  | some record =>
    if record.requestFingerprint = fingerprint s payload then
      .ok (some ⟨record.statusCode, record.responseBody⟩)
    else
      .error (.conflict (str "idempotency key " ++ repr key
        ++ str " was already used with a different request body"))

def Database.remember (key endpoint payload : Str) (status : Nat) (response : Str)
    : Except Failure Database :=
  if s.acceptsRecord key then
    .ok { db with
      idempotencyRecords := db.idempotencyRecords ++
        [⟨key, endpoint, fingerprint s payload, status, response⟩] }
  else
    .error .database

end

section

def jsonDumps (members : List (Str × Str)) : Str :=
  str "\x7b"
    ++ List.intercalate (str ", ")
      (members.map fun (name, value) => jsonString name ++ str ": " ++ value)
    ++ str "\x7d"

def jsonBool (b : Bool) : Str :=
  if b then str "true" else str "false"

def jsonOptional (s : Option Str) : Str :=
  s.elim (str "null") jsonString

def NewKey.response (minted : NewKey) : Str :=
  jsonDumps [(str "key_id", jsonString minted.keyID), (str "presented", jsonString minted.presented)]

def Operation.payload : Operation → Str
  | .issueKey tenantID body =>
    jsonObject [
      (str "application_id", jsonOptional body.applicationID),
      (str "key_id", jsonString body.keyID),
      (str "max_concurrent", Str.ofNat body.maxConcurrent),
      (str "min_trust_tier", jsonString body.minTrustTier),
      (str "models_allow_all", jsonBool body.modelsAllowAll),
      (str "requests_per_minute", Str.ofNat body.requestsPerMinute),
      (str "tenant_id", jsonString tenantID),
      (str "tokens_per_minute", Str.ofNat body.tokensPerMinute),
      (str "user_id", jsonOptional body.userID)]
  | .rotateKey keyID body =>
    jsonObject [(str "key_id", jsonString keyID), (str "new_key_id", jsonOptional body.newKeyID)]

variable (s : Settings) (db : Database) (call : Call)

def trustTier (name : Str) : Except Failure Int :=
  if s.upper name = str "UNSET" then .ok 0
  else if s.upper name = str "EXTERNAL" then .ok 1
  else if s.upper name = str "PRIVATE_CLOUD" then .ok 2
  else if s.upper name = str "INTERNAL" then .ok 3
  else .error (.invalidRequest (str "unknown trust tier " ++ repr name))

def mutate (endpoint : Str) (status : Nat) (mint : Except Failure (NewKey × Database))
    : Except Failure Response × Database :=
  match call.retryKey.elim (.ok none) (db.replay s · endpoint call.operation.payload) with
  | .error f => (.error f, db)
  | .ok (some response) => (.ok response, db)
  | .ok none =>
    match mint with
    | .error f => (.error f, db)
    | .ok (minted, written) =>
      if call.dryRun then
        (.ok ⟨200, jsonDumps [(str "dry_run", jsonBool true), (str "key_id", jsonString minted.keyID)]⟩,
          db)
      else
        match call.retryKey.elim (.ok written)
            (written.remember s · endpoint call.operation.payload status minted.response) with
        | .error f => (.error f, db)
        | .ok db => (.ok ⟨status, minted.response⟩, db)

def mint (secret : Secret) : Except Failure (NewKey × Database) :=
  match call.operation with
  | .issueKey tenantID body => do
    let tier ← trustTier s body.minTrustTier
    issue s db secret tenantID body tier
  | .rotateKey keyID body => rotate s db secret keyID body.newKeyID call.namedAt call.deprecatedAt

def serve (secret : Secret) : Except Failure Response × Database :=
  match call.operation with
  | .issueKey _ _ => mutate s db call (str "issue_key") 201 (mint s db call secret)
  | .rotateKey _ _ => mutate s db call (str "rotate_key") 200 (mint s db call secret)

def run (calls : List (Call × Secret)) : Database :=
  calls.foldl (fun db (call, secret) => (serve s db call secret).2) db

end

end ModelGateway.Control.Keys
