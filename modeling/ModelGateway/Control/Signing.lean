import ModelGateway.Control.Catalog
import ModelGateway.Lib.Base64

namespace ModelGateway.Control.Signing

def signingContext : Str := str "model-gateway/manifest/v1:"

inductive KeyStatus where
  | active
  | retired
  | revoked
  deriving DecidableEq, Repr

inductive Policy where
  | optional
  | required
  deriving DecidableEq, Repr

structure Signature where
  keyID : Str
  value : Str
  deriving DecidableEq, Repr

structure PublisherKey where
  keyID : Str
  publisher : Str
  publicKey : Str
  status : KeyStatus
  deriving DecidableEq, Repr

structure TrustStore where
  keys : GoMap Str PublisherKey
  policy : Policy

def TrustStore.empty : TrustStore := ⟨∅, .optional⟩

def Signature.postInit (s : Signature) : Except Error Signature :=
  if s.keyID = [] then
    .error (.invalidRequest (str "a signature must name the key that produced it"))
  else if s.value.length ≠ 64 then
    .error (.invalidRequest (str "signature from " ++ repr s.keyID ++ str " is "
      ++ Str.ofNat s.value.length ++ str " bytes, not the 64 an Ed25519 signature is"))
  else
    .ok s

def Signature.encoded (s : Signature) : Str :=
  Base64.encode s.value

def decodeBase64 (value place : Str) : Except Error Str :=
  if value = [] then
    .error (.invalidRequest (place ++ str " is empty"))
  else
    match Base64.decode value with
    | none => .error (.invalidRequest (place ++ str " is not valid base64"))
    | some bytes => .ok bytes

def Signature.decode (keyID value : Str) : Except Error Signature := do
  let bytes ← decodeBase64 value (str "signature from " ++ repr keyID)
  Signature.postInit ⟨keyID, bytes⟩

def signingPayload (digest : Str) : Except Error Str :=
  if digest = [] then
    .error (.invalidRequest (str "there is nothing to sign without a manifest digest"))
  else
    .ok (signingContext ++ digest)

/-- No key means that there was no signature, and none was required. -/
def TrustStore.verify (ed25519 : Str → Str → Str → Bool) (trust : TrustStore) (digest : Str)
    : Option Signature → Except Error (Option PublisherKey)
  | none =>
    if trust.policy = .required then
      .error (.forbidden
        (str "this control plane requires a publisher signature on every component"))
    else
      .ok none
  | some signature =>
    match trust.keys.lookup signature.keyID with
    | none =>
      .error (.forbidden (str "signature names key " ++ repr signature.keyID
        ++ str ", which is not a trusted publisher key"))
    | some key =>
      if key.status = .revoked then
        .error (.forbidden (str "key " ++ repr key.keyID ++ str " (" ++ key.publisher
          ++ str ") is revoked; nothing it signed is trusted"))
      else do
        let payload ← signingPayload digest
        if ed25519 key.publicKey signature.value payload then
          return some key
        else
          .error (.forbidden (str "the signature from " ++ repr key.keyID
            ++ str " does not match this manifest"))

def TrustStore.verifyForRegistration (ed25519 : Str → Str → Str → Bool) (trust : TrustStore)
    (digest : Str) (signature : Option Signature)
    : Except Error (Option PublisherKey) := do
  match ← trust.verify ed25519 digest signature with
  | none => return none
  | some key =>
    if key.status = .retired then
      .error (.forbidden (str "key " ++ repr key.keyID ++ str " (" ++ key.publisher
        ++ str ") is retired and cannot sign new components"))
    else
      return some key

end ModelGateway.Control.Signing
