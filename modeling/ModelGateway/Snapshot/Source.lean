import ModelGateway.Control.Builder
import ModelGateway.Wire.Convert

namespace ModelGateway

open Wire

def Wire.SnapshotMsg.globalDigest (msg : SnapshotMsg) : Str :=
  (msg.globalLayer.map (·.version.digest)).getD []

structure Response where
  status : Nat
  digest : Str
  body : Except Str Str

namespace Control

structure Config where
  load : Except Error (Fleet × List Tenant)
  now : Int
  trust : Option Signing.TrustStore

def statusOf : Error → Nat
  | .invalidRequest _ => 400
  | .forbidden _ => 403
  | .notFound _ => 404
  | .value _ => 500

variable (f : Format) (ed25519 : Str → Str → Str → Bool)

def Config.build (c : Config) : Except Error SnapshotMsg := do
  let (fleet, tenants) ← c.load
  buildSnapshot f ed25519 fleet tenants c.now c.trust

def current (c : Config) : Response :=
  match c.build f ed25519 with
  | .error err => ⟨statusOf err, [], .ok []⟩
  | .ok msg => ⟨200, msg.globalDigest, .ok (f.snapshot.marshal msg)⟩

end Control

structure Fetched where
  snapshot : Option Snapshot
  digest : Str
  unchanged : Bool

variable (f : Format) (ed25519 : Str → Str → Str → Bool)

def FileSource.fetch (contents : Except Str Str) (knownDigest : Str) : Except GoError Fetched :=
  match contents with
  | .error err => .error (.wrap .unavailable (str "reading the snapshot file") false (.foreign err))
  | .ok b =>
    match decodeAndVerify f b with
    | .error err => .error err
    | .ok (snap, digest) =>
      if digest ≠ [] ∧ digest = knownDigest then
        .ok ⟨none, digest, true⟩
      else
        .ok ⟨some snap, digest, false⟩

def maxSnapshotBytes : Nat := 64 * 2 ^ 20

def HTTPSource.fetch (response : Except Str Response) (knownDigest : Str) : Except GoError Fetched :=
  match response with
  | .error err => .error (.wrap .unavailable (str "fetching the snapshot") false (.foreign err))
  | .ok resp =>
    if resp.status = 304 then
      .ok ⟨none, knownDigest, true⟩
    else if resp.status ≠ 200 then
      .error (.ofCode .unavailable (str "control plane returned " ++ Str.ofNat resp.status
        ++ str " fetching the snapshot"))
    -- nothing is decoded when the reported digest is the known one
    else if resp.digest ≠ [] ∧ resp.digest = knownDigest then
      .ok ⟨none, knownDigest, true⟩
    else
      match resp.body with
      | .error err =>
        .error (.wrap .unavailable (str "reading the snapshot response") false (.foreign err))
      | .ok body =>
        if maxSnapshotBytes < body.length then
          .error (.ofCode .unavailable (str "snapshot exceeds the " ++ Str.ofNat maxSnapshotBytes
            ++ str " byte limit"))
        else
          match decodeAndVerify f body with
          | .error err => .error err
          | .ok (snap, digest) => .ok ⟨some snap, digest, false⟩

inductive Offer where
  | file (contents : Except Str Str)
  | unreachable (err : Str)
  | endpoint (config : Control.Config) (broken : Option Str)

namespace Offer

def fetch : Offer → Str → Except GoError Fetched
  | .file contents => FileSource.fetch f contents
  | .unreachable err => HTTPSource.fetch f (.error err)
  | .endpoint config none => HTTPSource.fetch f (.ok (Control.current f ed25519 config))
  | .endpoint config (some err) =>
    HTTPSource.fetch f (.ok { Control.current f ed25519 config with body := .error err })

def message : Offer → Option SnapshotMsg
  | .file (.error _) => none
  | .file (.ok b) =>
    match decodeAndVerify f b with
    | .error _ => none
    | .ok _ => (f.snapshot.unmarshal b).toOption
  | .unreachable _ => none
  | .endpoint config _ => (config.build f ed25519).toOption

end Offer

end ModelGateway
