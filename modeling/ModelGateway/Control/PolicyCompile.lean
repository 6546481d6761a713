import ModelGateway.Control.Policy
import ModelGateway.Net.Agreement
import ModelGateway.Policy.Evaluate
import ModelGateway.Wire.Codec

/-!
This module contains the compilation of authored policies to messages, and when their decisions survive it.
-/

namespace ModelGateway.Control

open List Except

open Policy (Input Decision)

def inNetwork (cidr : Str) (addr : Addr) : Bool :=
  match Ipaddress.ipNetwork cidr with
  | some net => net.contains addr
  | none => false

def PolicyRule.sourceHolds (rule : PolicyRule) (source : Option Addr) : Bool :=
  rule.sourceCidrs.isEmpty ||
    match source with
    | some addr => rule.sourceCidrs.any (inNetwork · addr)
    | none => false

def PolicyRule.holds (rule : PolicyRule) (input : Input) : Bool :=
  (rule.models.isEmpty || rule.models.contains input.model)
    && (rule.endpoints.isEmpty || rule.endpoints.contains input.endpoint.name)
    && (rule.regions.isEmpty || rule.regions.contains input.region)
    && (rule.maxPayloadBytes == 0 || input.payload ≤ rule.maxPayloadBytes)
    && (rule.roles.isEmpty || input.roles.any (rule.roles.contains ·))
    && rule.sourceHolds input.source

def PolicyRule.decision (rule : PolicyRule) : Decision :=
  match rule.effect with
  | .deny => ⟨false, rule.id, rule.reason, .unset, .unset, false⟩
  | .allow => ⟨true, rule.id, [], .ofStr rule.dataClass, rule.minTrustTier, false⟩

def PolicyBundle.firstHolding (bundle : PolicyBundle) (input : Input) : Option PolicyRule :=
  bundle.rules.find? (·.holds input)

def PolicyBundle.defaultDecision (bundle : PolicyBundle) : Decision :=
  ⟨bundle.defaultEffect = .allow, [], [], .unset, .unset, false⟩

def PolicyBundle.decision (bundle : PolicyBundle) (input : Input) : Decision :=
  ((bundle.firstHolding input).map PolicyRule.decision).getD bundle.defaultDecision

def codec (f : Wire.Format) : Policy.Codec :=
  ⟨f.policy.unmarshal, Netip.parsePrefix⟩

def compiledDecision (f : Wire.Format) (msg : Policy.PolicyBundleMsg) (input : Input)
    : Except GoError Decision := do
  let compiled ← Policy.decode (codec f) (f.policy.marshal msg)
  return Policy.evaluate compiled input

def zonedSource (input : Input) : Bool :=
  input.source.any Addr.zoned

variable {rule : PolicyRule}

theorem PolicyRule.Constructed.id_ne (h : rule.Constructed) : rule.id ≠ [] := by
  intro hid
  have haccepted := h.accepted
  unfold PolicyRule.postInit at haccepted
  rw [if_pos hid] at haccepted
  simp at haccepted

theorem PolicyRule.Constructed.ipNetwork_isSome (h : rule.Constructed) {cidr : Str}
    (hcidr : cidr ∈ rule.sourceCidrs)
    : ∃ net, Ipaddress.ipNetwork cidr = some net := by
  have haccepted := h.accepted
  unfold PolicyRule.postInit at haccepted
  split at haccepted
  . simp at haccepted
  . split at haccepted
    . simp at haccepted
    . split at haccepted
      . simp at haccepted
      . next hfind =>
        rw [find?_eq_none] at hfind
        have hsome := hfind cidr hcidr
        rw [Option.isNone_iff_eq_none] at hsome
        exact Option.ne_none_iff_exists'.mp hsome

variable {bundle : PolicyBundle}

theorem PolicyBundle.Constructed.ids_nodup (h : bundle.Constructed)
    : (bundle.rules.map (·.id)).Nodup := by
  have haccepted := h.accepted
  unfold PolicyBundle.postInit at haccepted
  split at haccepted
  . simp at haccepted
  . next hnone => exact (duplicateID_eq_none_iff.mp hnone).1

variable {nets : List Prefix}

theorem decodeNets_eq_ok_iff {c : Policy.Codec} {id : Str} {cidrs : List Str}
    : Policy.decodeNets c id cidrs = .ok nets
        ↔
      List.Forall₂ (fun cidr net => c.parsePrefix cidr = .ok net) cidrs nets := by
  unfold Policy.decodeNets
  rw [List.mapM_eq_ok_iff_forall₂]
  constructor
  . intro h
    refine h.imp fun cidr net hnet => ?_
    split at hnet
    . next hparse => rw [hparse, ok.inj hnet]
    . simp at hnet
  . intro h
    refine h.imp fun cidr net hnet => ?_
    rw [hnet]

theorem any_inNetwork {cidrs : List Str}
    (hcidrs : ∀ cidr ∈ cidrs, ∃ net, Ipaddress.ipNetwork cidr = some net)
    (hnets : List.Forall₂ (fun cidr net => Netip.parsePrefix cidr = .ok net) cidrs nets) {addr : Addr}
    (haddr : addr.zoned = false)
    : nets.any (·.contains addr) = cidrs.any (inNetwork · addr) := by
  induction hnets with
  | nil => rfl
  | @cons cidr net cidrs nets hnet _ ih =>
    rw [forall_mem_cons] at hcidrs
    rcases hcidrs.1 with ⟨_, hparsed⟩
    rcases parsePrefix_of_canonical hparsed (canonical_of_parsePrefix hnet) with ⟨net', hnet', hcontains⟩
    rw [hnet, ok.injEq] at hnet'
    subst hnet'
    rw [any_cons, any_cons, ih hcidrs.2, hcontains addr haddr]
    unfold inNetwork
    rw [hparsed]

theorem inAnyNet_eq (hrule : rule.Constructed)
    (hnets : List.Forall₂ (fun cidr net => Netip.parsePrefix cidr = .ok net) rule.sourceCidrs nets)
    (source : Option Addr)
    : (nets.isEmpty || Policy.inAnyNet nets source)
        =
      (rule.sourceHolds source && (rule.sourceCidrs.isEmpty || !source.any Addr.zoned)) := by
  have hempty : nets.isEmpty = rule.sourceCidrs.isEmpty := by
    rw [Bool.eq_iff_iff, isEmpty_iff_length_eq_zero, isEmpty_iff_length_eq_zero, hnets.length_eq]
  unfold Policy.inAnyNet PolicyRule.sourceHolds
  rw [hempty]
  cases source with
  | none => simp
  | some addr =>
    cases hzoned : addr.zoned with
    | true =>
      have hnone : nets.any (·.contains addr) = false := by
        rw [any_eq_false]
        intro net _
        simp [net.contains_of_zoned hzoned]
      cases rule.sourceCidrs.isEmpty with
      | true => rfl
      | false => simp [hnone, hzoned]
    | false =>
      dsimp only
      rw [any_inNetwork (fun _ => hrule.ipNetwork_isSome) hnets hzoned]
      simp [hzoned]

theorem decodeTier_encodeTrustTier {t : TrustTier} (h : t ≤ .internal)
    : Policy.decodeTier (encodeTrustTier t) = t := by
  match t, h with
  | 0, _ => rfl
  | 1, _ => rfl
  | 2, _ => rfl
  | 3, _ => rfl

variable {f : Wire.Format}

theorem decodeRule_encodePolicyRule (hrule : rule.Constructed) {msg : Policy.PolicyRuleMsg}
    {compiled : Policy.Rule} (hencode : encodePolicyRule rule = .ok msg)
    (hdecode : Policy.decodeRule (codec f) msg = .ok compiled)
    : (∀ input, Policy.matchesRule compiled input
          = (rule.holds input && (rule.sourceCidrs.isEmpty || !zonedSource input))) ∧
        compiled.decision = rule.decision := by
  unfold encodePolicyRule at hencode
  rw [bind_eq_ok_iff] at hencode
  rcases hencode with ⟨maxPayloadBytes, hmax, hencode⟩
  rw [← ok.inj hencode] at hdecode
  unfold Policy.decodeRule at hdecode
  split at hdecode
  . simp at hdecode
  . rw [bind_eq_ok_iff] at hdecode
    rcases hdecode with ⟨nets, hnets, hdecode⟩
    rw [← ok.inj hdecode]
    rw [decodeNets_eq_ok_iff] at hnets
    constructor
    . intro input
      have hpayload : (maxPayloadBytes == 0 || decide (input.payload ≤ maxPayloadBytes))
          = (rule.maxPayloadBytes == 0 || decide ((input.payload : Int) ≤ rule.maxPayloadBytes)) := by
        rw [← uint64_eq_ok hmax, Bool.eq_iff_iff]
        simp
      unfold Policy.matchesRule PolicyRule.holds Policy.hasAnyRole
      rw [hpayload, inAnyNet_eq hrule hnets]
      simp only [Bool.and_assoc]
      rfl
    . unfold Policy.Rule.decision PolicyRule.decision
      rw [decodeTier_encodeTrustTier hrule.minTrustTier_le]
      cases rule.effect with
      | allow => rfl
      | deny => rfl

theorem decodeRule_isOk_iff (hrule : rule.Constructed) {msg : Policy.PolicyRuleMsg}
    (hencode : encodePolicyRule rule = .ok msg)
    : (∃ compiled, Policy.decodeRule (codec f) msg = .ok compiled)
        ↔
      ∀ cidr ∈ rule.sourceCidrs, Canonical cidr := by
  unfold encodePolicyRule at hencode
  rw [bind_eq_ok_iff] at hencode
  rcases hencode with ⟨_, hmax, hencode⟩
  rw [← ok.inj hencode]
  unfold Policy.decodeRule
  have heffect : Policy.decodeEffect (encodePolicyEffect rule.effect) ≠ .unset := by
    cases rule.effect with
    | allow => simp [encodePolicyEffect, Policy.decodeEffect]
    | deny => simp [encodePolicyEffect, Policy.decodeEffect]
  rw [if_neg heffect]
  constructor
  . rintro ⟨compiled, h⟩
    rw [bind_eq_ok_iff] at h
    rcases h with ⟨nets, hnets, _⟩
    rw [decodeNets_eq_ok_iff, ← List.mapM_eq_ok_iff_forall₂] at hnets
    intro cidr hcidr
    rcases (List.mapM_isOk_iff _ _).mp ⟨nets, hnets⟩ cidr hcidr with ⟨net, hnet⟩
    exact canonical_of_parsePrefix hnet
  . intro hcanonical
    have hnets : ∃ nets, rule.sourceCidrs.mapM Netip.parsePrefix = .ok nets := by
      rw [List.mapM_isOk_iff]
      intro cidr hcidr
      rcases hrule.ipNetwork_isSome hcidr with ⟨net, hnet⟩
      rcases parsePrefix_of_canonical hnet (hcanonical cidr hcidr) with ⟨p, hp, _⟩
      exact ⟨p, hp⟩
    rcases hnets with ⟨nets, hnets⟩
    rw [List.mapM_eq_ok_iff_forall₂] at hnets
    have hdecode : Policy.decodeNets (codec f) rule.id rule.sourceCidrs = .ok nets :=
      decodeNets_eq_ok_iff.mpr hnets
    rw [hdecode]
    exact ⟨_, rfl⟩

def PolicyBundle.firstCompiled (bundle : PolicyBundle) (input : Input) : Option PolicyRule :=
  bundle.rules.find? fun rule => rule.holds input && (rule.sourceCidrs.isEmpty || !zonedSource input)

variable {msg : Policy.PolicyBundleMsg}

theorem marshal_ne_nil (hencode : encodePolicy bundle = .ok msg) : f.policy.marshal msg ≠ [] := by
  intro hnil
  have hmsg := f.policy.unmarshal_marshal msg
  rw [hnil, f.policy_nil, ok.injEq] at hmsg
  unfold encodePolicy at hencode
  simp only [bind_eq_ok_iff] at hencode
  rcases hencode with ⟨_, _, _, _, hencode⟩
  rw [← hmsg] at hencode
  have heffect := congrArg Policy.PolicyBundleMsg.defaultEffect (ok.inj hencode)
  cases heq : bundle.defaultEffect with
  | allow => simp [heq, encodePolicyEffect] at heffect
  | deny => simp [heq, encodePolicyEffect] at heffect

variable {compiled : Policy.Bundle}

theorem decode_marshal_eq_ok_iff (hencode : encodePolicy bundle = .ok msg)
    : Policy.decode (codec f) (f.policy.marshal msg) = .ok compiled
        ↔
      ∃ rules, msg.rules.mapM (Policy.decodeRule (codec f)) = .ok rules ∧
        compiled = ⟨msg.id, msg.version, rules, Policy.decodeEffect msg.defaultEffect⟩ := by
  unfold Policy.decode
  rw [if_neg (marshal_ne_nil hencode)]
  have hunmarshal : (codec f).unmarshal (f.policy.marshal msg) = .ok msg :=
    f.policy.unmarshal_marshal msg
  rw [hunmarshal]
  rw [bind_eq_ok_iff]
  simp only [pure, Except.pure, ok.injEq, eq_comm]

theorem encodePolicy_eq_ok (h : encodePolicy bundle = .ok msg)
    : List.Forall₂ (fun rule m => encodePolicyRule rule = .ok m) bundle.rules msg.rules ∧
        msg.defaultEffect = encodePolicyEffect bundle.defaultEffect := by
  unfold encodePolicy at h
  simp only [bind_eq_ok_iff] at h
  rcases h with ⟨_, _, rules, hrules, h⟩
  rw [← ok.inj h]
  exact ⟨List.mapM_eq_ok_iff_forall₂.mp hrules, rfl⟩

theorem decode_isOk_iff (hbundle : bundle.Constructed) (hencode : encodePolicy bundle = .ok msg)
    : (∃ compiled, Policy.decode (codec f) (f.policy.marshal msg) = .ok compiled)
        ↔
      ∀ rule ∈ bundle.rules, ∀ cidr ∈ rule.sourceCidrs, Canonical cidr := by
  have hrules : (∃ rules, msg.rules.mapM (Policy.decodeRule (codec f)) = .ok rules)
      ↔ ∀ rule ∈ bundle.rules, ∀ cidr ∈ rule.sourceCidrs, Canonical cidr := by
    have hforall := (encodePolicy_eq_ok hencode).1
    rw [List.mapM_isOk_iff]
    have hconstructed := hbundle.rules
    generalize bundle.rules = rules, msg.rules = msgs at hforall hconstructed
    induction hforall with
    | nil => simp
    | cons h _ ih =>
      rw [forall_mem_cons] at hconstructed
      rw [forall_mem_cons, forall_mem_cons]
      exact and_congr (decodeRule_isOk_iff hconstructed.1 h) (ih hconstructed.2)
  rw [← hrules]
  simp only [decode_marshal_eq_ok_iff hencode]
  constructor
  . rintro ⟨_, rules, h, _⟩
    exact ⟨rules, h⟩
  . rintro ⟨rules, h⟩
    exact ⟨_, rules, h, rfl⟩

theorem evaluate_decode (hbundle : bundle.Constructed) (hencode : encodePolicy bundle = .ok msg)
    (hdecode : Policy.decode (codec f) (f.policy.marshal msg) = .ok compiled) (input : Input)
    : Policy.evaluate compiled input
        =
      ((bundle.firstCompiled input).map PolicyRule.decision).getD bundle.defaultDecision := by
  rcases (decode_marshal_eq_ok_iff hencode).mp hdecode with ⟨rules, hrules, rfl⟩
  rcases encodePolicy_eq_ok hencode with ⟨hforall, heffect⟩
  rw [List.mapM_eq_ok_iff_forall₂] at hrules
  have hfind : (bundle.firstCompiled input).map PolicyRule.decision
      = (rules.find? (Policy.matchesRule · input)).map Policy.Rule.decision := by
    apply List.Forall₂.find?_map
    have hconstructed := hbundle.rules
    clear hdecode
    generalize bundle.rules = authored, msg.rules = msgs at hforall hconstructed hrules
    induction hforall generalizing rules with
    | nil =>
      cases hrules with
      | nil => exact .nil
    | cons h _ ih =>
      rw [forall_mem_cons] at hconstructed
      cases hrules with
      | cons hrule hrules =>
        rcases decodeRule_encodePolicyRule hconstructed.1 h hrule with ⟨hmatches, hdecision⟩
        exact .cons ⟨(hmatches input).symm, hdecision.symm⟩ (ih _ hconstructed.2 hrules)
  have hdefault : Policy.Bundle.defaultDecision
      ⟨msg.id, msg.version, rules, Policy.decodeEffect msg.defaultEffect⟩ = bundle.defaultDecision := by
    unfold Policy.Bundle.defaultDecision PolicyBundle.defaultDecision
    rw [heffect]
    cases bundle.defaultEffect with
    | allow => rfl
    | deny => rfl
  rw [Policy.evaluate_eq, hdefault, hfind]
  rfl

theorem PolicyRule.decision_ruleID (rule : PolicyRule) : rule.decision.ruleID = rule.id := by
  unfold PolicyRule.decision
  cases rule.effect with
  | allow => rfl
  | deny => rfl

theorem firstCompiled_decision_iff (hbundle : bundle.Constructed) (input : Input)
    : ((bundle.firstCompiled input).map PolicyRule.decision).getD bundle.defaultDecision
          = bundle.decision input
        ↔
      (zonedSource input = true → ∀ rule, bundle.firstHolding input = some rule → rule.sourceCidrs = [])
    := by
  unfold PolicyBundle.decision
  cases hzoned : zonedSource input with
  | false =>
    have hsame : bundle.firstCompiled input = bundle.firstHolding input := by
      unfold PolicyBundle.firstCompiled PolicyBundle.firstHolding
      simp [hzoned]
    simp [hsame]
  | true =>
    cases hfirst : bundle.firstHolding input with
    | none =>
      have hnone : bundle.firstCompiled input = none := by
        unfold PolicyBundle.firstHolding at hfirst
        unfold PolicyBundle.firstCompiled
        rw [find?_eq_none] at hfirst ⊢
        intro rule hrule
        simp [hfirst rule hrule]
      simp [hnone]
    | some rule =>
      unfold PolicyBundle.firstHolding at hfirst
      have hmem := mem_of_find?_eq_some hfirst
      by_cases hsource : rule.sourceCidrs = []
      . have hsame : bundle.firstCompiled input = some rule := by
          unfold PolicyBundle.firstCompiled
          rw [find?_eq_some_iff_append] at hfirst ⊢
          rcases hfirst with ⟨hholds, before, after, hrules, hbefore⟩
          refine ⟨by simp [hholds, hsource], before, after, hrules, ?_⟩
          intro earlier hearlier
          simp [Bool.not_eq_true' _ |>.mp (hbefore earlier hearlier)]
        simp [hsame, hsource]
      . -- the decision of another rule, or of none, names another rule
        have hother : ∀ other, bundle.firstCompiled input = some other → other.id ≠ rule.id := by
          intro other hcompiled hid
          have heq := inj_on_of_nodup_map hbundle.ids_nodup (mem_of_find?_eq_some hcompiled)
            hmem hid
          have hholds := find?_some hcompiled
          simp [heq, hsource, hzoned] at hholds
        have hdiffer : ((bundle.firstCompiled input).map PolicyRule.decision).getD bundle.defaultDecision
            ≠ rule.decision := by
          intro heq
          have hid := congrArg Decision.ruleID heq
          rw [rule.decision_ruleID] at hid
          cases hcompiled : bundle.firstCompiled input with
          | none =>
            rw [hcompiled] at hid
            exact (hbundle.rules rule hmem).id_ne hid.symm
          | some other =>
            rw [hcompiled] at hid
            apply hother other hcompiled
            rw [← other.decision_ruleID]
            exact hid
        simp [hdiffer, hsource]

theorem compiledDecision_iff (f : Wire.Format) {bundle : PolicyBundle} (hbundle : bundle.Constructed)
    {msg : Policy.PolicyBundleMsg} (hencode : encodePolicy bundle = .ok msg) (input : Input)
    : compiledDecision f msg input = .ok (bundle.decision input)
        ↔
      (∀ rule ∈ bundle.rules, ∀ cidr ∈ rule.sourceCidrs, Canonical cidr) ∧
        (zonedSource input = true → ∀ rule, bundle.firstHolding input = some rule →
          rule.sourceCidrs = []) := by
  unfold compiledDecision
  rw [← firstCompiled_decision_iff hbundle, bind_eq_ok_iff]
  constructor
  . rintro ⟨compiled, hdecode, h⟩
    refine ⟨(decode_isOk_iff hbundle hencode).mp ⟨compiled, hdecode⟩, ?_⟩
    rw [← ok.inj h, evaluate_decode hbundle hencode hdecode]
  . rintro ⟨hcanonical, h⟩
    rcases (decode_isOk_iff hbundle hencode).mpr hcanonical with ⟨compiled, hdecode⟩
    refine ⟨compiled, hdecode, ?_⟩
    rw [← h, ← evaluate_decode hbundle hencode hdecode]
    rfl

namespace Sample

def denying (cidr : Str) : PolicyBundle where
  id := str "b"
  version := 1
  rules := [⟨str "r", .deny, [], [], [], [], [cidr], 0, [], .unset, str "not from there"⟩]
  defaultEffect := .allow

def denyingMsg (cidr : Str) : Policy.PolicyBundleMsg where
  id := str "b"
  version := 1
  rules := [⟨str "r", 2, [], [], [], [], [cidr], 0, [], 0, false, str "not from there"⟩]
  defaultEffect := 1

theorem encodePolicy_denying (cidr : Str) : encodePolicy (denying cidr) = .ok (denyingMsg cidr) := by
  rfl

theorem denying_constructed {cidr : Str} (h : (Ipaddress.ipNetwork cidr).isSome)
    : (denying cidr).Constructed := by
  refine ⟨?_, rfl⟩
  intro rule hrule
  rw [mem_singleton.mp hrule]
  refine ⟨?_, Nat.zero_le _⟩
  rw [Option.isSome_iff_exists] at h
  rcases h with ⟨net, hnet⟩
  have hid : str "r" ≠ [] := by decide
  simp [PolicyRule.postInit, hnet, hid]

def insider : Input :=
  ⟨str "m", .messages, [], [], some (.v4 0x0a000001), 0⟩

end Sample

open Sample

theorem compiledDecision_denying
    : compiledDecision Wire.Sample.format (denyingMsg (str "10.0.0.0/8")) insider
        =
      .ok ⟨false, str "r", str "not from there", .unset, .unset, false⟩ := by
  have hconstructed : (denying (str "10.0.0.0/8")).Constructed :=
    denying_constructed (by decide +kernel)
  have hdecision : (denying (str "10.0.0.0/8")).decision insider
      = ⟨false, str "r", str "not from there", .unset, .unset, false⟩ := by
    decide +kernel
  have hcanonical : Canonical (str "10.0.0.0/8") := by
    have hparse : Netip.parsePrefix (str "10.0.0.0/8") = .ok ⟨.v4 0x0a000000, 8⟩ := by
      decide +kernel
    exact canonical_of_parsePrefix hparse
  rw [← hdecision, compiledDecision_iff Wire.Sample.format hconstructed (encodePolicy_denying _)]
  refine ⟨?_, by simp [zonedSource, insider, Addr.zoned]⟩
  intro rule hrule cidr hcidr
  rw [mem_singleton.mp hrule] at hcidr
  rw [mem_singleton.mp hcidr]
  exact hcanonical

theorem host_undecodable
    : (denying (str "10.0.0.1")).Constructed ∧
        encodePolicy (denying (str "10.0.0.1")) = .ok (denyingMsg (str "10.0.0.1")) ∧
        ¬ ∃ decision, compiledDecision Wire.Sample.format (denyingMsg (str "10.0.0.1")) insider
          = .ok decision := by
  have hconstructed : (denying (str "10.0.0.1")).Constructed :=
    denying_constructed (by decide +kernel)
  refine ⟨hconstructed, encodePolicy_denying _, ?_⟩
  rintro ⟨decision, h⟩
  unfold compiledDecision at h
  rw [bind_eq_ok_iff] at h
  rcases h with ⟨compiled, hdecode, _⟩
  have hcanonical := (decode_isOk_iff hconstructed (encodePolicy_denying _)).mp ⟨compiled, hdecode⟩
  rcases hcanonical _ mem_cons_self _ mem_cons_self with ⟨addr, bits, _, htext, _⟩
  have hslash : (47 : UInt8) ∈ str "10.0.0.1" := by
    rw [htext]
    simp
  revert hslash
  decide +kernel

end ModelGateway.Control
