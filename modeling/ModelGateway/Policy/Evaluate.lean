import ModelGateway.Core.Basic

/-!
This module contains the worker's policy: rules, the first match, and the decoding of its messages.
-/

namespace ModelGateway.Policy

inductive Effect where
  | unset
  | allow
  | deny
  deriving DecidableEq, Repr

-- The endpoints of a rule are whatever strings the bundle lists.
structure Rule where
  id : Str
  effect : Effect
  models : List Str
  endpoints : List Str
  roles : List Str
  regions : List Str
  sourceNets : List Prefix
  maxPayloadBytes : Nat
  dataClass : DataClass
  minTrustTier : TrustTier
  deepInspection : Bool
  reason : Str
  deriving DecidableEq, Repr

structure Bundle where
  id : Str
  version : Nat
  rules : List Rule
  defaultEffect : Effect
  deriving DecidableEq, Repr

def Bundle.zero : Bundle := ⟨[], 0, [], .unset⟩

structure Input where
  model : Str
  endpoint : Endpoint
  roles : List Str
  region : Str
  source : Option Addr
  payload : Nat

structure Decision where
  allowed : Bool
  ruleID : Str
  reason : Str
  dataClass : DataClass
  minTrustTier : TrustTier
  deepInspection : Bool
  deriving DecidableEq, Repr

def hasAnyRole (required held : List Str) : Bool :=
  held.any (required.contains ·)

def inAnyNet (nets : List Prefix) (addr : Option Addr) : Bool :=
  match addr with
  | none => false
  | some addr => nets.any (·.contains addr)

def matchesRule (rule : Rule) (input : Input) : Bool :=
  (rule.models.isEmpty || rule.models.contains input.model)
    && (rule.endpoints.isEmpty || rule.endpoints.contains input.endpoint.name)
    && (rule.regions.isEmpty || rule.regions.contains input.region)
    && (rule.maxPayloadBytes == 0 || input.payload ≤ rule.maxPayloadBytes)
    && (rule.roles.isEmpty || hasAnyRole rule.roles input.roles)
    && (rule.sourceNets.isEmpty || inAnyNet rule.sourceNets input.source)

def evaluate (bundle : Bundle) (input : Input) : Decision :=
  go bundle.rules
where
  go : List Rule → Decision
    | [] => ⟨decide (bundle.defaultEffect ≠ .deny), [], [], .unset, .unset, false⟩
    | rule :: rules =>
      if !matchesRule rule input then
        go rules
      else if rule.effect = .deny then
        ⟨false, rule.id, rule.reason, .unset, .unset, false⟩
      else
        ⟨true, rule.id, [], rule.dataClass, rule.minTrustTier, rule.deepInspection⟩

/-
The messages of snapshot.proto a bundle is decoded from. An enum of the wire may hold any number.
-/

structure PolicyRuleMsg where
  id : Str
  effect : Nat
  models : List Str
  endpoints : List Str
  roles : List Str
  regions : List Str
  sourceCidrs : List Str
  maxPayloadBytes : Nat
  dataClass : Str
  minTrustTier : Nat
  deepInspection : Bool
  reason : Str
  deriving DecidableEq, Repr

structure PolicyBundleMsg where
  id : Str
  version : Nat
  rules : List PolicyRuleMsg
  defaultEffect : Nat
  deriving DecidableEq, Repr

structure Codec where
  unmarshal : Str → Except Str PolicyBundleMsg
  parsePrefix : Str → Except Str Prefix

def decodeEffect : Nat → Effect
  | 1 => .allow
  | 2 => .deny
  | _ => .unset

def decodeTier : Nat → TrustTier
  | 1 => .external
  | 2 => .privateCloud
  | 3 => .internal
  | _ => .unset

def decodeNets (codec : Codec) (id : Str) (cidrs : List Str) : Except GoError (List Prefix) :=
  cidrs.mapM fun cidr =>
    match codec.parsePrefix cidr with
    | .ok net => .ok net
    | .error err =>
      .error <| .wrap .invalidRequest
        (str "policy rule " ++ id.quote ++ str " has an unparseable network " ++ cidr.quote) false
        (.foreign err)

def decodeRule (codec : Codec) (r : PolicyRuleMsg) : Except GoError Rule :=
  if decodeEffect r.effect = .unset then
    .error <| .invalid (str "policy rule " ++ r.id.quote ++ str " has no effect")
  else do
    let nets ← decodeNets codec r.id r.sourceCidrs
    return {
      id := r.id
      effect := decodeEffect r.effect
      models := r.models
      endpoints := r.endpoints
      roles := r.roles
      regions := r.regions
      sourceNets := nets
      maxPayloadBytes := r.maxPayloadBytes
      dataClass := .ofStr r.dataClass
      minTrustTier := decodeTier r.minTrustTier
      deepInspection := r.deepInspection
      reason := r.reason
    }

def decode (codec : Codec) (raw : Str) : Except GoError Bundle :=
  if raw = [] then
    .ok .zero
  else
    match codec.unmarshal raw with
    | .error err =>
      .error <| .wrap .invalidRequest (str "parsing the policy bundle") false (.foreign err)
    | .ok msg => do
      let rules ← msg.rules.mapM (decodeRule codec)
      return ⟨msg.id, msg.version, rules, decodeEffect msg.defaultEffect⟩

structure Cache where
  digest : Str
  bundles : GoMap Str Bundle

def Cache.new : Cache := ⟨[], ∅⟩

def Cache.forTenant (codec : Codec) (c : Cache) (tenant digest raw : Str)
    : Except GoError Bundle × Cache :=
  match if c.digest = digest then c.bundles.lookup tenant else none with
  | some bundle => (.ok bundle, c)
  | none =>
    match decode codec raw with
    | .error err => (.error err, c)
    | .ok bundle =>
      let bundles := if c.digest = digest then c.bundles else ∅
      (.ok bundle, ⟨digest, bundles.insert tenant bundle⟩)

def firstMatch (bundle : Bundle) (input : Input) : Option Rule :=
  bundle.rules.find? (matchesRule · input)

def Rule.decision (rule : Rule) : Decision :=
  if rule.effect = .deny then
    ⟨false, rule.id, rule.reason, .unset, .unset, false⟩
  else
    ⟨true, rule.id, [], rule.dataClass, rule.minTrustTier, rule.deepInspection⟩

def Bundle.defaultDecision (bundle : Bundle) : Decision :=
  ⟨decide (bundle.defaultEffect ≠ .deny), [], [], .unset, .unset, false⟩

theorem evaluate_eq (bundle : Bundle) (input : Input)
    : evaluate bundle input
        =
      ((firstMatch bundle input).map Rule.decision).getD bundle.defaultDecision := by
  unfold evaluate firstMatch
  generalize bundle.rules = rules
  induction rules with
  | nil => rfl
  | cons rule rules ih =>
    unfold evaluate.go
    rw [List.find?_cons]
    cases matchesRule rule input with
    | true => rfl
    | false => exact ih

variable {rule : Rule}

theorem evaluate_eq_of_firstMatch {bundle : Bundle} {input : Input}
    (h : firstMatch bundle input = some rule)
    : evaluate bundle input = rule.decision := by
  rw [evaluate_eq, h]
  rfl

theorem evaluate_eq_of_firstMatch_none {bundle : Bundle} {input : Input}
    (h : firstMatch bundle input = none)
    : evaluate bundle input = bundle.defaultDecision := by
  rw [evaluate_eq, h]
  rfl

@[simp]
theorem Rule.decision_allowed : rule.decision.allowed = true ↔ rule.effect ≠ .deny := by
  unfold Rule.decision
  split
  . next h => simp [h]
  . next h => simp [h]

theorem Rule.decision_dataClass_of_ne_deny (h : rule.effect ≠ .deny)
    : rule.decision.dataClass = rule.dataClass := by
  unfold Rule.decision
  rw [if_neg h]

end ModelGateway.Policy
