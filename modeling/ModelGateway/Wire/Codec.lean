import ModelGateway.Core.Snapshot
import ModelGateway.Policy.Evaluate
import ModelGateway.Control.Catalog
import ModelGateway.Pii.Transform

namespace ModelGateway.Wire

open Function
open Policy (PolicyBundleMsg)
open Control (DeploymentMsg)

/-
An enum of the wire may hold any number, and a sub-message whose absence makes a difference is
optional. An absent layer version reads as the zero one.
-/

structure BudgetRefMsg where
  id : Str
  scope : Nat
  deriving DecidableEq

structure BudgetStateMsg where
  id : Str
  scope : Nat
  limitMicroUSD : Int
  spentMicroUSD : Int
  hard : Bool
  headroomBasisPoints : Nat
  deriving DecidableEq

structure PluginBindingMsg where
  port : Nat
  component : Str
  version : Str
  configRef : Str
  deriving DecidableEq

structure GuardrailBindingMsg where
  component : Str
  version : Str
  configRef : Str
  timeoutMs : Nat
  failureMode : Nat
  blocking : Bool
  phases : List Str
  execution : Str
  moduleDigest : Str
  deriving DecidableEq

structure PrincipalMsg where
  keyID : Str
  tenant : Str
  org : Str
  team : Str
  user : Str
  app : Str
  roles : List Str
  modelsAllowAll : Bool
  models : List Str
  budgets : List BudgetRefMsg
  defaultDataClass : Str
  minTrustTier : Nat
  maxConcurrent : Nat
  deprecated : Bool
  notAfterUnixMs : Int
  limits : Option RateLimit
  deriving DecidableEq

structure KeyEntryMsg where
  lookup : Str
  keyID : Str
  deriving DecidableEq

structure GlobalLayerMsg where
  version : LayerVersion
  builtAtUnixMs : Int
  deployments : List DeploymentMsg
  aliases : List ModelAlias
  tenantPrefixes : Finmap fun _ : Str => Str
  defaultPlugins : List PluginBindingMsg
  policyBundleRef : Str
  defaultGuardrails : List GuardrailBindingMsg
  defaultPolicy : Option PolicyBundleMsg
  deriving DecidableEq

structure TenantLayerMsg where
  tenant : Str
  version : LayerVersion
  builtAtUnixMs : Int
  tier : Str
  principals : List PrincipalMsg
  keys : List KeyEntryMsg
  aliasOverrides : List ModelAlias
  budgets : List BudgetStateMsg
  plugins : List PluginBindingMsg
  minTrustTier : Nat
  guardrails : List GuardrailBindingMsg
  policy : Option PolicyBundleMsg
  deriving DecidableEq

structure SnapshotMsg where
  globalLayer : Option GlobalLayerMsg
  tenants : List TenantLayerMsg
  deriving DecidableEq

structure Serializer (α : Type) where
  marshal : α → Str
  unmarshal : Str → Except Str α
  unmarshal_marshal : ∀ m, unmarshal (marshal m) = .ok m

theorem Serializer.marshal_injective {α : Type} (s : Serializer α) : Injective s.marshal := by
  intro m m' h
  have hm := s.unmarshal_marshal m
  rw [h, s.unmarshal_marshal m'] at hm
  exact (Except.ok.inj hm).symm

structure Format where
  policy : Serializer PolicyBundleMsg
  globalLayer : Serializer GlobalLayerMsg
  tenantLayer : Serializer TenantLayerMsg
  snapshot : Serializer SnapshotMsg
  sha256 : Str → Str
  policy_nil : policy.unmarshal [] = .ok ⟨[], 0, [], 0⟩

namespace Sample

/-
A message is carried as the bytes of its number, least significant first. The zero message has the number
zero, as protobuf marshals it to no bytes.
-/

instance uint8Encodable : Encodable UInt8 :=
  .ofLeftInverse UInt8.toNat UInt8.ofNat fun _ => UInt8.ofNat_toNat

deriving instance Encodable for RoutingKey, Cost, ModelAlias, RateLimit, LayerVersion, DeploymentMsg,
  Policy.PolicyRuleMsg, PolicyBundleMsg, BudgetRefMsg, BudgetStateMsg, PluginBindingMsg,
  GuardrailBindingMsg, PrincipalMsg, KeyEntryMsg

instance finmapEncodable : Encodable (Finmap fun _ : Str => Str) :=
  .ofLeftInjection Finmap.entries (fun s => if h : s.keys.Nodup then some ⟨s, Multiset.nodup_keys.mp h⟩ else none)
    fun m => dif_pos (Multiset.nodup_keys.mpr m.nodupKeys)

deriving instance Encodable for GlobalLayerMsg, TenantLayerMsg, SnapshotMsg

section

variable {α : Type} [Encodable α] [DecidableEq α] (zero : α)

def number (m : α) : Nat :=
  if m = zero then 0 else Encodable.encode m + 1

def message? : Nat → Option α
  | 0 => some zero
  | n + 1 => Encodable.decode n

theorem message?_number (m : α) : message? zero (number zero m) = some m := by
  unfold number
  split
  . next h => rw [message?, h]
  . rw [message?, Encodable.encodek]

def bytes (n : Nat) : Str :=
  (Nat.digits 256 n).map UInt8.ofNat

theorem ofDigits_bytes (n : Nat) : Nat.ofDigits 256 ((bytes n).map UInt8.toNat) = n := by
  have hdigit : ∀ d ∈ Nat.digits 256 n, (UInt8.ofNat d).toNat = d := by
    intro d hd
    rw [UInt8.toNat_ofNat']
    exact Nat.mod_eq_of_lt (Nat.digits_lt_base (by decide) hd)
  have hdigits : (bytes n).map UInt8.toNat = Nat.digits 256 n := by
    rw [bytes, List.map_map]
    exact (List.map_congr_left hdigit).trans (List.map_id _)
  rw [hdigits, Nat.ofDigits_digits]

def serializer : Serializer α where
  marshal m := bytes (number zero m)
  unmarshal b := (message? zero (Nat.ofDigits 256 (b.map UInt8.toNat))).elim (.error []) .ok
  unmarshal_marshal m := by rw [ofDigits_bytes, message?_number, Option.elim_some]

end

@[irreducible]
def format : Format where
  policy := serializer ⟨[], 0, [], 0⟩
  globalLayer := serializer ⟨⟨0, []⟩, 0, [], [], ∅, [], [], [], none⟩
  tenantLayer := serializer ⟨[], ⟨0, []⟩, 0, [], [], [], [], [], [], 0, [], none⟩
  snapshot := serializer ⟨none, []⟩
  sha256 := id
  policy_nil := rfl

theorem sha256_injective : Injective format.sha256 := by
  unfold format
  exact injective_id

end Sample

variable (f : Format)

def digestPrefix : Str := str "sha256:"

def digestOf (bytes : Str) : Str :=
  digestPrefix ++ Pii.hexEncode (f.sha256 bytes)

def GlobalLayerMsg.withDigest (m : GlobalLayerMsg) (digest : Str) : GlobalLayerMsg :=
  { m with version := ⟨m.version.number, digest⟩ }

def TenantLayerMsg.withDigest (m : TenantLayerMsg) (digest : Str) : TenantLayerMsg :=
  { m with version := ⟨m.version.number, digest⟩ }

def digestGlobal (m : GlobalLayerMsg) : Str :=
  digestOf f (f.globalLayer.marshal (m.withDigest []))

def digestTenant (m : TenantLayerMsg) : Str :=
  digestOf f (f.tenantLayer.marshal (m.withDigest []))

def verifyGlobal (m : GlobalLayerMsg) : Except GoError Unit :=
  if m.version.digest = [] then
    .ok ()
  else if digestGlobal f m ≠ m.version.digest then
    .error <| .invalid (str "global layer digest mismatch: computed " ++ digestGlobal f m
      ++ str ", layer claims " ++ m.version.digest)
  else
    .ok ()

def verifyTenant (m : TenantLayerMsg) : Except GoError Unit :=
  if m.version.digest = [] then
    .ok ()
  else if digestTenant f m ≠ m.version.digest then
    .error <| .invalid (str "tenant " ++ m.tenant.quote ++ str " layer digest mismatch: computed "
      ++ digestTenant f m ++ str ", layer claims " ++ m.version.digest)
  else
    .ok ()

def unmarshalSnapshot (b : Str) : Except GoError SnapshotMsg :=
  match f.snapshot.unmarshal b with
  | .ok msg => .ok msg
  | .error err => .error (.wrap .invalidRequest (str "parsing a snapshot") false (.foreign err))

end ModelGateway.Wire
