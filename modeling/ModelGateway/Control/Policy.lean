import ModelGateway.Control.Catalog
import ModelGateway.Policy.Evaluate
import ModelGateway.Net.Ipaddress

namespace ModelGateway.Control

open List
open Policy (PolicyRuleMsg PolicyBundleMsg)

inductive PolicyEffect where
  | allow
  | deny
  deriving DecidableEq, Repr

structure PolicyRule where
  id : Str
  effect : PolicyEffect
  models : List Str
  endpoints : List Str
  roles : List Str
  regions : List Str
  sourceCidrs : List Str
  maxPayloadBytes : Int
  dataClass : Str
  minTrustTier : TrustTier
  reason : Str
  deriving DecidableEq, Repr

structure PolicyBundle where
  id : Str
  version : Int
  rules : List PolicyRule
  defaultEffect : PolicyEffect
  deriving DecidableEq, Repr

def knownEndpoints : List Str :=
  [str "chat_completions", str "messages", str "embeddings"]

def PolicyRule.postInit (rule : PolicyRule) : Except Error PolicyRule :=
  if rule.id = [] then
    .error (.invalidRequest (str "a policy rule needs an id"))
  else if rule.maxPayloadBytes < 0 then
    .error (.invalidRequest (str "rule " ++ repr rule.id ++ str " has a negative payload bound"))
  else
    match rule.sourceCidrs.find? fun cidr => (Ipaddress.ipNetwork cidr).isNone with
    | some cidr =>
      .error (.invalidRequest (str "rule " ++ repr rule.id ++ str " has an unparseable network "
        ++ repr cidr))
    | none =>
      match rule.endpoints.find? fun endpoint => !knownEndpoints.contains endpoint with
      | some endpoint =>
        .error (.invalidRequest (str "rule " ++ repr rule.id ++ str " names unknown endpoint "
          ++ repr endpoint))
      | none => .ok rule

def duplicateID (seen : List Str) : List Str → Option Str
  | [] => none
  | id :: rest => if seen.contains id then some id else duplicateID (id :: seen) rest

def PolicyBundle.postInit (bundle : PolicyBundle) : Except Error PolicyBundle :=
  match duplicateID [] (bundle.rules.map (·.id)) with
  | some id => .error (.invalidRequest (str "duplicate policy rule id " ++ repr id))
  | none => .ok bundle

structure PolicyRule.Constructed (rule : PolicyRule) : Prop where
  accepted : rule.postInit = .ok rule
  minTrustTier_le : rule.minTrustTier ≤ .internal

structure PolicyBundle.Constructed (bundle : PolicyBundle) : Prop where
  rules : ∀ rule ∈ bundle.rules, rule.Constructed
  accepted : bundle.postInit = .ok bundle

def uint64 (n : Int) : Except Error Nat :=
  if 0 ≤ n ∧ n < 2 ^ 64 then
    .ok n.toNat
  else
    .error (.value (str "Value out of range: " ++ decimal n))

def encodePolicyEffect : PolicyEffect → Nat
  | .allow => 1
  | .deny => 2

def encodePolicyRule (rule : PolicyRule) : Except Error PolicyRuleMsg := do
  let maxPayloadBytes ← uint64 rule.maxPayloadBytes
  return {
    id := rule.id
    effect := encodePolicyEffect rule.effect
    models := rule.models
    endpoints := rule.endpoints
    roles := rule.roles
    regions := rule.regions
    sourceCidrs := rule.sourceCidrs
    maxPayloadBytes := maxPayloadBytes
    dataClass := rule.dataClass
    minTrustTier := encodeTrustTier rule.minTrustTier
    deepInspection := false
    reason := rule.reason
  }

def encodePolicy (bundle : PolicyBundle) : Except Error PolicyBundleMsg := do
  let version ← uint64 bundle.version
  let rules ← bundle.rules.mapM encodePolicyRule
  return ⟨bundle.id, version, rules, encodePolicyEffect bundle.defaultEffect⟩

theorem duplicateID_eq_none_iff {seen ids : List Str}
    : duplicateID seen ids = none ↔ ids.Nodup ∧ ∀ id ∈ ids, id ∉ seen := by
  induction ids generalizing seen with
  | nil => simp [duplicateID]
  | cons id ids ih =>
    unfold duplicateID
    split
    . next hseen =>
      rw [contains_iff_mem] at hseen
      simp [hseen]
    . next hseen =>
      rw [contains_iff_mem] at hseen
      rw [ih, nodup_cons]
      simp only [mem_cons, forall_eq_or_imp, not_or]
      constructor
      . rintro ⟨hnodup, hids⟩
        exact ⟨⟨fun hmem => (hids id hmem).1 rfl, hnodup⟩, hseen, fun id' hid' => (hids id' hid').2⟩
      . rintro ⟨⟨hid, hnodup⟩, _, hids⟩
        exact ⟨hnodup, fun id' hid' => ⟨fun heq => hid (heq ▸ hid'), hids id' hid'⟩⟩

theorem uint64_eq_ok {n : Int} {m : Nat} (h : uint64 n = .ok m) : (m : Int) = n := by
  unfold uint64 at h
  split at h
  . rw [← Except.ok.inj h]
    omega
  . simp at h

end ModelGateway.Control
