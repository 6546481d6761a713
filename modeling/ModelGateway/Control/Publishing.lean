import ModelGateway.Control.Attachments
import ModelGateway.Control.Effects
import ModelGateway.Control.PolicyCompile

/-!
This module contains the path of a policy from the call that replaces it to the layer that the worker serves.
-/

namespace ModelGateway.Control

open Except Tables PolicyRule
open List hiding format

open FineTune (Failure)
open Keys (Settings)
open Policy (PolicyBundleMsg PolicyRuleMsg)
open Signing (TrustStore)
open TextColumn (Fits varchar)
open Wire

def Store.replacePolicy (s : Store) (tenant : Option Str) (rules : List Rule) : Except Failure Store := do
  let t ← s.val.replacePolicy tenant rules
  commit t

variable {rules : List Rule}

theorem Store.replacePolicy_eq_ok_iff {s s' : Store} {tenant : Option Str}
    : s.replacePolicy tenant rules = .ok s' ↔ s.val.replacePolicy tenant rules = .ok s'.val := by
  unfold Store.replacePolicy
  simp only [bind_eq_ok_iff, commit_eq_ok_iff]
  constructor
  . rintro ⟨t, hreplace, rfl⟩
    exact hreplace
  . intro hreplace
    exact ⟨_, hreplace, rfl⟩

section

def fieldOf (q : PolicyRuleMsg) : ConditionKind → List Str
  | .model => q.models
  | .endpoint => q.endpoints
  | .role => q.roles
  | .region => q.regions
  | .cidr => q.sourceCidrs

structure Delivers (rule : PolicyRule) (q : PolicyRuleMsg) : Prop where
  id : q.id = rule.id
  effect : q.effect = encodePolicyEffect rule.effect
  conditions : ∀ kind value, value ∈ fieldOf q kind ↔ value ∈ rule.field kind
  maxPayloadBytes : (q.maxPayloadBytes : Int) = rule.maxPayloadBytes
  dataClass : q.dataClass = rule.dataClass
  minTrustTier : q.minTrustTier = encodeTrustTier rule.minTrustTier
  reason : q.reason = rule.reason

structure PolicyRule.Storable (rule : PolicyRule) : Prop where
  id : Fits 64 rule.id
  dataClass : Fits 32 rule.dataClass
  reason : Fits 512 rule.reason
  conditions : ∀ c ∈ rule.conditions, Fits 255 c.2

end

section

def PolicyRuleRow.msg (row : PolicyRuleRow) : PolicyRuleMsg where
  id := row.ruleID
  effect := encodePolicyEffect row.effect
  models := row.values .model
  endpoints := row.values .endpoint
  roles := row.values .role
  regions := row.values .region
  sourceCidrs := row.values .cidr
  maxPayloadBytes := row.maxPayloadBytes.toNat
  dataClass := row.dataClass
  minTrustTier := encodeTrustTier row.minTrustTier.toNat
  deepInspection := false
  reason := row.reason

theorem PolicyRuleRow.fieldOf_msg (row : PolicyRuleRow) (kind : ConditionKind)
    : fieldOf row.msg kind = row.values kind := by
  cases kind with
  | model | endpoint | role | region | cidr => rfl

variable {row : PolicyRuleRow}

theorem PolicyRuleRow.mem_values {kind : ConditionKind} {value : Str}
    : value ∈ row.values kind ↔ (kind, value) ∈ row.conditions := by
  unfold values
  rw [mem_mergeSort, mem_map]
  constructor
  . rintro ⟨⟨_, _⟩, hmem, rfl⟩
    rw [mem_filter, decide_eq_true_eq] at hmem
    rcases hmem with ⟨hmem, rfl⟩
    exact hmem
  . intro hmem
    exact ⟨(kind, value), mem_filter.mpr ⟨hmem, by simp⟩, rfl⟩

variable {rule : PolicyRule}

theorem PolicyRule.mem_conditions {kind : ConditionKind} {value : Str}
    : (kind, value) ∈ rule.conditions ↔ value ∈ rule.field kind := by
  have hkind : kind ∈ conditionKinds := by
    cases kind with
    | model | endpoint | role | region | cidr => decide
  unfold conditions
  simp only [mem_flatMap, mem_map, Prod.mk.injEq]
  constructor
  . rintro ⟨_, _, _, hvalue, rfl, rfl⟩
    exact hvalue
  . intro hvalue
    exact ⟨kind, hkind, value, hvalue, rfl, rfl⟩

theorem encode_toPolicyRule (hread : toPolicyRule row = .ok rule) {q : PolicyRuleMsg}
    (hencode : encodePolicyRule rule = .ok q)
    : q = row.msg := by
  unfold toPolicyRule at hread
  simp only [bind_eq_ok_iff, trustTier_eq_ok_iff] at hread
  rcases hread with ⟨_, ⟨_, rfl⟩, hread⟩
  rw [PolicyRule.postInit_eq_ok hread] at hencode
  unfold encodePolicyRule uint64 at hencode
  split at hencode
  . exact (ok.inj hencode).symm
  . cases hencode

variable {rows : List PolicyRuleRow}

theorem encode_rules {rules : List PolicyRule} {qs : List PolicyRuleMsg}
    (hread : List.Forall₂ (fun row rule => toPolicyRule row = .ok rule) rows rules)
    (hencode : List.Forall₂ (fun rule q => encodePolicyRule rule = .ok q) rules qs)
    : qs = rows.map PolicyRuleRow.msg := by
  induction hread generalizing qs with
  | nil =>
    cases hencode
    rfl
  | cons hrow _ ih =>
    cases hencode with
    | cons hq hqs => rw [map_cons, ← encode_toPolicyRule hrow hq, ← ih hqs]

variable {tenantID : Option Str}

theorem PolicyRule.row_eq_some {position : Nat} (h : rule.row tenantID position = some row)
    : varchar 64 rule.id = some row.ruleID ∧ varchar 32 rule.dataClass = some row.dataClass ∧
        varchar 512 rule.reason = some row.reason ∧
        List.Forall₂ (fun c c' => c'.1 = c.1 ∧ varchar 255 c.2 = some c'.2) rule.conditions row.conditions ∧
        row.tenantID = tenantID ∧ row.position = position ∧ row.effect = rule.effect ∧
        row.maxPayloadBytes = rule.maxPayloadBytes ∧ row.minTrustTier = rule.minTrustTier := by
  unfold PolicyRule.row at h
  simp only [Option.bind_eq_bind, Option.bind_eq_some_iff, pure, Option.some.injEq] at h
  rcases h with ⟨ruleID, hid, dataClass, hclass, reason, hreason, conditions, hconditions, rfl⟩
  refine ⟨hid, hclass, hreason, ?_, rfl, rfl, rfl, rfl, rfl⟩
  rw [List.mapM_eq_some_iff_forall₂] at hconditions
  apply hconditions.imp
  rintro ⟨kind, _⟩ ⟨_, _⟩ h
  rcases Option.map_eq_some_iff.mp h with ⟨_, hvalue, heq⟩
  cases heq
  exact ⟨rfl, hvalue⟩

theorem delivers_msg_iff {rule : Rule} {position : Nat} (h : rule.val.row tenantID position = some row)
    {tenants : List Str} (hstored : row.Stored tenants)
    : Delivers rule.val row.msg ↔ rule.val.Storable := by
  rcases PolicyRule.row_eq_some h with ⟨hid, hclass, hreason, hconditions, _, _, heffect, hbytes, htier⟩
  rcases hstored with ⟨_, hidFits, _, _, hclassFits, _, hreasonFits, hconditionsFit⟩
  constructor
  . intro hdelivers
    refine ⟨?_, ?_, ?_, ?_⟩
    . exact (congrArg (Fits 64) hdelivers.id).mp hidFits
    . exact (congrArg (Fits 32) hdelivers.dataClass).mp hclassFits
    . exact (congrArg (Fits 512) hdelivers.reason).mp hreasonFits
    . rintro ⟨kind, value⟩ hmem
      have hvalue := (hdelivers.conditions kind value).mpr (mem_conditions.mp hmem)
      rw [PolicyRuleRow.fieldOf_msg, PolicyRuleRow.mem_values] at hvalue
      exact hconditionsFit (kind, value) hvalue
  . intro hstorable
    have hsame : row.conditions = rule.val.conditions := by
      have hkinds : rule.val.conditions.map (fun c => (c.1, varchar 255 c.2))
          = row.conditions.map fun c => (c.1, some c.2) := by
        apply List.Forall₂.map_eq_map
        apply hconditions.imp
        intro c c' hc
        rw [hc.1, hc.2]
      have hfits : rule.val.conditions.map (fun c => (c.1, varchar 255 c.2))
          = rule.val.conditions.map fun c => (c.1, some c.2) := by
        apply map_congr_left
        intro c hc
        rw [hstorable.conditions c hc]
      rw [hfits] at hkinds
      apply (map_injective_iff.mpr ?_ hkinds).symm
      rintro ⟨kind, value⟩ ⟨_, _⟩ heq
      simpa using heq
    have hpos : 0 ≤ rule.val.maxPayloadBytes := by
      have haccepted := rule.property.accepted
      unfold PolicyRule.postInit at haccepted
      simp only [ite_error_eq_ok_iff, Int.not_lt] at haccepted
      exact haccepted.2.1
    refine ⟨?_, congrArg encodePolicyEffect heffect, ?_, ?_, ?_, ?_, ?_⟩
    . exact ((TextColumn.fits_iff hid).mp hstorable.id)
    . intro kind value
      rw [PolicyRuleRow.fieldOf_msg, PolicyRuleRow.mem_values, hsame, mem_conditions]
    . change ((row.maxPayloadBytes.toNat : Nat) : Int) = _
      rw [hbytes, Int.toNat_of_nonneg hpos]
    . exact (TextColumn.fits_iff hclass).mp hstorable.dataClass
    . change encodeTrustTier row.minTrustTier.toNat = _
      rw [htier]
      rfl
    . exact (TextColumn.fits_iff hreason).mp hstorable.reason

theorem forall₂_delivers_iff {tenants : List Str}
    (hrows : List.Forall₂ (fun rule row => ∃ position, rule.val.row tenantID position = some row) rules rows)
    (hstored : ∀ row ∈ rows, row.Stored tenants)
    : List.Forall₂ (fun rule row => Delivers rule.val row.msg) rules rows
        ↔
      ∀ rule ∈ rules, rule.val.Storable := by
  induction hrows with
  | nil => simp
  | cons hrow _ ih =>
    rcases hrow with ⟨position, hrow⟩
    rw [forall_mem_cons] at hstored
    rw [forall₂_cons, forall_mem_cons, delivers_msg_iff hrow hstored.1, ih hstored.2]

end

namespace Tables

variable {t t' : Tables}

section

variable {tenant : Option Str}

theorem replacePolicy_eq_ok (h : t.replacePolicy tenant rules = .ok t')
    : (∀ id ∈ tenant, id ∈ t.tenantIDs) ∧ ∃ rows,
        List.Forall₂ (fun p row => p.1.val.row tenant p.2 = some row) rules.zipIdx rows ∧
        t' = { t with policyRules := (t.policyRules.filter fun row => row.tenantID ≠ tenant) ++ rows } := by
  unfold replacePolicy at h
  cases hknown : tenant.filter fun id => (Table.get TenantRow.id t.tenants id).isNone with
  | some id =>
    rw [hknown] at h
    cases h
  | none =>
    rw [hknown] at h
    simp only [bind_eq_ok_iff, raised_eq_ok_iff, column_eq_ok_iff, pure, Except.pure, ok.injEq] at h
    rcases h with ⟨_, hbundle, rows, hrows, rfl⟩
    rw [PolicyBundle.postInit_eq_ok hbundle, List.mapM_eq_some_iff_forall₂, zipIdx_map,
      forall₂_map_left_iff] at hrows
    refine ⟨?_, rows, hrows, rfl⟩
    rintro id rfl
    by_contra hunknown
    have hnone := (Table.get_eq_none_iff TenantRow.id).mpr hunknown
    rw [Option.filter_some, hnone] at hknown
    cases hknown

theorem owner_of_rows {rules : List (Rule × Nat)} {rows : List PolicyRuleRow}
    (hrows : List.Forall₂ (fun p row => p.1.val.row tenant p.2 = some row) rules rows)
    : ∀ row ∈ rows, row.tenantID = tenant := by
  intro row hrow
  rcases hrows.exists_of_mem_right hrow with ⟨p, _, h⟩
  exact (PolicyRule.row_eq_some h).2.2.2.2.1

theorem rulesOf_replacePolicy (h : t.replacePolicy tenant rules = .ok t')
    : List.Forall₂ (fun rule row => ∃ position, rule.val.row tenant position = some row) rules
        (t'.rulesOf tenant) := by
  rcases replacePolicy_eq_ok h with ⟨_, rows, hrows, rfl⟩
  have howners := owner_of_rows hrows
  have hpositions : rows.Pairwise fun row row' => row.position ≤ row'.position := by
    have hmap : rules.zipIdx.map (fun p => (p.2 : Int)) = rows.map (·.position) := by
      apply List.Forall₂.map_eq_map
      apply hrows.imp
      rintro ⟨rule, position⟩ row h
      exact (PolicyRule.row_eq_some h).2.2.2.2.2.1.symm
    have hrange : rules.zipIdx.map (fun p => (p.2 : Int)) = (range' 0 rules.length).map Nat.cast := by
      rw [← zipIdx_map_snd 0 rules, map_map]
      rfl
    have hsorted : (rows.map (·.position)).Pairwise (· ≤ ·) := by
      rw [← hmap, hrange, pairwise_map]
      apply (pairwise_lt_range' _).imp
      intro i j hij
      omega
    exact pairwise_map.mp hsorted
  have hread : Tables.rulesOf { t with
      policyRules := (t.policyRules.filter fun row => row.tenantID ≠ tenant) ++ rows }
      tenant = rows := by
    unfold rulesOf
    rw [filter_append, filter_filter, filter_eq_nil_iff.mpr (by simp), nil_append,
      filter_eq_self.mpr (by simpa using howners)]
    exact mergeSort_of_pairwise (hpositions.imp decide_eq_true)
  rw [hread]
  have hrules : rules = rules.zipIdx.map Prod.fst := (zipIdx_map_fst 0 rules).symm
  rw [hrules, forall₂_map_left_iff]
  apply hrows.imp
  rintro ⟨rule, position⟩ row h
  exact ⟨position, h⟩

end

section

variable {f : Format} {snap : Snapshot}

theorem unmarshal_policyOf {tenantID : Option Str} (hloads : ∃ policy, t.loadPolicy tenantID = .ok policy)
    (hid : policyID tenantID ≠ []) {m : Option PolicyBundleMsg}
    (hencode : encodeDefaultPolicy (t.policyOf tenantID) = .ok m)
    : (∃ b, f.policy.unmarshal (marshalPolicy f m) = .ok b ∧
          b.rules = (t.rulesOf tenantID).map PolicyRuleRow.msg) ∧
        (marshalPolicy f m = [] ↔ t.rulesOf tenantID = []) := by
  rcases hloads with ⟨policy, hpolicy⟩
  rw [policyOf_eq hpolicy] at hencode
  unfold loadPolicy at hpolicy
  split at hpolicy
  . next hnone =>
    rw [← ok.inj hpolicy] at hencode
    rw [← ok.inj hencode, hnone]
    exact ⟨⟨_, f.policy_nil, rfl⟩, by simp [marshalPolicy]⟩
  . next hsome =>
    simp only [bind_eq_ok_iff, pure, Except.pure, ok.injEq] at hpolicy
    rcases hpolicy with ⟨rules, hrules, _, hbundle, rfl⟩
    rcases map_eq_ok_iff.mp hencode with ⟨b, hb, rfl⟩
    rw [PolicyBundle.postInit_eq_ok hbundle] at hb
    have hbid : b.id = policyID tenantID := by
      unfold encodePolicy at hb
      simp only [bind_eq_ok_iff] at hb
      rcases hb with ⟨_, _, _, _, hb⟩
      rw [← ok.inj hb]
    have hread := encode_rules (List.mapM_eq_ok_iff_forall₂.mp hrules) (encodePolicy_eq_ok hb).1
    have hmarshal : marshalPolicy f (some b) = f.policy.marshal b := by
      unfold marshalPolicy
      dsimp only
      rw [if_neg]
      rw [hbid]
      exact fun h => hid h.2
    rw [hmarshal, f.policy.unmarshal_marshal]
    refine ⟨⟨b, rfl, hread⟩, ?_⟩
    simp only [hsome, iff_false]
    intro hnil
    have hzero := f.policy.unmarshal_marshal b
    rw [hnil, f.policy_nil, ok.injEq] at hzero
    apply hid
    rw [← hbid, ← hzero]

theorem Serves.selects (hserves : t.Serves f snap) (hfleet : ∃ policy, t.loadPolicy none = .ok policy)
    {row : TenantRow} (hrow : row ∈ t.tenants) (hloads : t.TenantLoads row)
    : ∃ b, f.policy.unmarshal (snap.policy row.id) = .ok b ∧
        b.rules = (if t.rulesOf (some row.id) = [] then t.rulesOf none else t.rulesOf (some row.id)).map
          PolicyRuleRow.msg := by
  rcases hserves.tenants row hrow with ⟨_, hlayer, hserved⟩
  rcases hserved.policy with ⟨m, hm, hpolicy⟩
  rcases hserves.policy with ⟨m', hm', hdefault⟩
  have hid : policyID (some row.id) = row.id := by
    unfold policyID
    rw [Option.filter_some, if_pos (by simpa using hloads.id_ne)]
    rfl
  rcases @unmarshal_policyOf _ f _ hloads.policy (by rw [hid]; exact hloads.id_ne) _ hm with ⟨hown, hempty⟩
  unfold Snapshot.policy
  rw [hlayer]
  dsimp only
  rw [hpolicy]
  by_cases hnone : t.rulesOf (some row.id) = []
  . rw [if_pos hnone, if_pos (hempty.mpr hnone), hdefault]
    exact (unmarshal_policyOf hfleet (show policyID none ≠ [] by decide) hm').1
  . rw [if_neg hnone, if_neg (mt hempty.mp hnone)]
    exact hown

end

end Tables

structure Keeps (s s' : Store) (tenantID : Str) : Prop where
  tenant : tenantID ∈ s'.val.tenantIDs
  rules : s'.val.rulesOf (some tenantID) = s.val.rulesOf (some tenantID)

namespace Keeps

variable {s s' s'' : Store} {tenantID : Str} {settings : Settings}

theorem trans (h : Keeps s s' tenantID) (h' : Keeps s' s'' tenantID) : Keeps s s'' tenantID :=
  ⟨h'.tenant, h'.rules.trans h.rules⟩

theorem of_tables (htenant : tenantID ∈ s.val.tenantIDs) (hids : s.val.tenantIDs ⊆ s'.val.tenantIDs)
    (hrules : s'.val.policyRules = s.val.policyRules)
    : Keeps s s' tenantID := by
  refine ⟨hids htenant, ?_⟩
  unfold Tables.rulesOf
  rw [hrules]

theorem of_step {op : Op} (htenant : tenantID ∈ s.val.tenantIDs) (h : s.step settings op = .ok s')
    : Keeps s s' tenantID := by
  have hunique := s.property.tenants.1
  have hstep := Store.step_eq_ok_iff.mp h
  exact of_tables htenant (Tables.step_tenantIDs hunique hstep) (Tables.step_untouched hunique hstep).policyRules

-- a policy stays as published through every other operation
theorem of_run {ops : List Op} (htenant : tenantID ∈ s.val.tenantIDs)
    (h : ops.foldlM (Store.step settings) s = .ok s')
    : Keeps s s' tenantID := by
  apply foldlM_ok_invariant (Store.step settings) (Keeps s · tenantID) ops s s' h ⟨htenant, rfl⟩
  intro op s₁ s₂ hkeeps hstep
  exact hkeeps.trans (of_step hkeeps.tenant hstep)

end Keeps

theorem published_rules_iff {s s₁ s₂ : Store} {tenantID : Str} {rules : List Rule}
    (hreplace : s.replacePolicy (some tenantID) rules = .ok s₁) (hkeeps : Keeps s₁ s₂ tenantID) (f : Format)
    (rt : Runtime) (trust : Option TrustStore) {now : Int} (hnow : IsDatetime now) {msg : SnapshotMsg}
    (hbuild : s₂.val.build rt f now trust = .ok msg) {snap : Snapshot} {digest : Str}
    (hdecode : decodeAndVerify f (f.snapshot.marshal msg) = .ok (snap, digest))
    : (∃ b, f.policy.unmarshal (snap.policy tenantID) = .ok b ∧
        List.Forall₂ (fun rule q => Delivers rule.val q) rules b.rules)
        ↔
      (∀ rule ∈ rules, rule.val.Storable) ∧ (rules = [] → s₂.val.rulesOf none = []) := by
  have hserves := Tables.serves s₂.property hnow hbuild hdecode
  have hready := (build_isOk_iff f rt trust s₂.property hnow).mp ⟨msg, hbuild⟩
  have hrows := rulesOf_replacePolicy (Store.replacePolicy_eq_ok_iff.mp hreplace)
  rcases mem_map.mp hkeeps.tenant with ⟨row, hrow, rfl⟩
  rcases hserves.selects hready.fleet.loads.policy hrow (hready.tenants row hrow).loads with ⟨b, hb, hselected⟩
  rw [hb]
  simp only [ok.injEq, exists_eq_left']
  rw [hselected, hkeeps.rules, forall₂_map_right_iff]
  cases rules with
  | nil =>
    rw [forall₂_nil_left_iff.mp hrows, if_pos rfl]
    simp
  | cons rule rules =>
    have hne : s₁.val.rulesOf (some row.id) ≠ [] := by
      intro hnil
      rw [hnil] at hrows
      cases hrows
    have hstored : ∀ row' ∈ s₁.val.rulesOf (some row.id), row'.Stored s₁.val.tenantIDs := by
      intro row' hrow'
      unfold Tables.rulesOf at hrow'
      rw [mem_mergeSort, mem_filter] at hrow'
      exact s₁.property.policyRules row' hrow'.1
    rw [if_neg hne, forall₂_delivers_iff hrows hstored]
    simp

theorem Tables.ready_of_policies {t : Tables} {f : Format} {rt : Runtime} {trust : Option TrustStore}
    (h : Tables.Ready f rt trust { t with policyRules := [] })
    (hfleet : ∃ policy, t.loadPolicy none = .ok policy)
    (htenants : ∀ row ∈ t.tenants, ∃ policy, t.loadPolicy (some row.id) = .ok policy)
    : t.Ready f rt trust := by
  constructor
  . have hloads := h.fleet.loads
    exact ⟨⟨hloads.initialised, hfleet, hloads.deployments, hloads.aliases, hloads.registry⟩, h.fleet.ids,
      h.fleet.targets, h.fleet.bindings, h.fleet.onWire⟩
  . intro row hrow
    have hready := h.tenants row hrow
    have hloads := hready.loads
    exact ⟨⟨hloads.id_ne, hloads.prefixes_ne, hloads.minTrustTier, hloads.budgets, hloads.keys, hloads.aliases,
      htenants row hrow⟩, hready.lookups, hready.bindings, hready.onWire⟩

namespace Sample

open Wire.Sample (format)

def denyAll (id : Str) : PolicyRule where
  id := id
  effect := .deny
  models := []
  endpoints := []
  roles := []
  regions := []
  sourceCidrs := []
  maxPayloadBytes := 0
  dataClass := []
  minTrustTier := .unset
  reason := str "closed"

def denyRule : Rule :=
  ⟨denyAll (str "own"), rfl, by decide⟩

def denyRow (tenantID : Option Str) (id : Str) : PolicyRuleRow where
  tenantID := tenantID
  ruleID := id
  position := 0
  effect := .deny
  maxPayloadBytes := 0
  dataClass := []
  minTrustTier := 0
  reason := str "closed"
  conditions := []

def bareTables : Tables :=
  { Tables.initialised ⟨1, []⟩ with
    tenants := [tenantRow (str "acme")]
    keyPrefixes := [(str "acme", str "acme")] }

def policyTables (own : List PolicyRuleRow) : Tables :=
  { bareTables with policyRules := denyRow none (str "fleet-wide") :: own }

def defaultStore : Store :=
  ⟨policyTables [], by decide +kernel⟩

def ownStore : Store :=
  ⟨policyTables [denyRow (some (str "acme")) (str "own")], by decide +kernel⟩

theorem replacePolicy_nil : defaultStore.replacePolicy (some (str "acme")) [] = .ok defaultStore := by
  rfl

theorem replacePolicy_own : defaultStore.replacePolicy (some (str "acme")) [denyRule] = .ok ownStore := by
  rfl

theorem toPolicyRule_denyRow (tenantID : Option Str) {id : Str} (hid : id ≠ [])
    : toPolicyRule (denyRow tenantID id) = .ok (denyAll id) := by
  have hvalues : ∀ kind, (denyRow tenantID id).values kind = [] := by
    intro kind
    unfold PolicyRuleRow.values denyRow
    simp
  unfold toPolicyRule
  simp only [hvalues]
  change PolicyRule.postInit (denyAll id) = _
  unfold PolicyRule.postInit
  rw [if_neg (by exact hid)]
  rfl

theorem loadPolicy_deny {t : Tables} {scope : Option Str} {id : Str} (hid : id ≠ [])
    (hrules : t.rulesOf scope = [denyRow scope id])
    : ∃ policy, t.loadPolicy scope = .ok policy := by
  unfold Tables.loadPolicy
  rw [hrules, if_neg (by simp), mapM_cons, toPolicyRule_denyRow scope hid]
  exact ⟨_, rfl⟩

variable {own : List PolicyRuleRow}

variable (hown : ∀ row ∈ own, row.tenantID ≠ none)

include hown

theorem rulesOf_policyTables_none
    : (policyTables own).rulesOf none = [denyRow none (str "fleet-wide")] := by
  unfold Tables.rulesOf policyTables
  rw [filter_cons_of_pos (by rfl), filter_eq_nil_iff.mpr (by simpa using hown), mergeSort_singleton]

theorem policyTables_ready
    (hload : ∃ policy, (policyTables own).loadPolicy (some (str "acme")) = .ok policy)
    : (policyTables own).Ready format runtime none := by
  apply ready_of_policies
  . have hplain : bareTables.Plain := ⟨rfl, rfl, rfl, rfl⟩
    exact (hplain.ready_iff format runtime none (by decide +kernel)).mpr (by decide +kernel)
  . exact loadPolicy_deny (by decide) (rulesOf_policyTables_none hown)
  . change ∀ row ∈ [tenantRow (str "acme")], _
    rw [forall_mem_singleton]
    exact hload

omit hown

theorem served {s : Store} (hready : s.val.Ready format runtime none) (hplugins : s.val.pluginBindings = [])
    : ∃ msg snap digest, s.val.build runtime format 0 none = .ok msg ∧
        decodeAndVerify format (format.snapshot.marshal msg) = .ok (snap, digest) := by
  rcases (build_isOk_iff format runtime none s.property (show IsDatetime 0 by decide)).mpr hready
    with ⟨msg, hbuild⟩
  have hports : ((s.val.pluginsOf none).map (·.port)).Nodup := by
    unfold Tables.pluginsOf
    rw [hplugins]
    exact nodup_nil
  rcases (accepted_iff s.property hbuild).mpr hports with ⟨snap, digest, hdecode⟩
  exact ⟨msg, snap, digest, hbuild, hdecode⟩

end Sample

open Wire.Sample (format)

open Sample

theorem published_rules_own
    : defaultStore.replacePolicy (some (str "acme")) [denyRule] = .ok ownStore ∧
      ∃ msg snap digest b, ownStore.val.build runtime format 0 none = .ok msg ∧
        decodeAndVerify format (format.snapshot.marshal msg) = .ok (snap, digest) ∧
        format.policy.unmarshal (snap.policy (str "acme")) = .ok b ∧
        List.Forall₂ (fun rule q => Delivers rule.val q) [denyRule] b.rules := by
  have hown : ownStore.val.rulesOf (some (str "acme"))
      = [denyRow (some (str "acme")) (str "own")] := by
    exact mergeSort_singleton _
  have hready : ownStore.val.Ready format runtime none :=
    policyTables_ready (by decide) (loadPolicy_deny (by decide) hown)
  rcases served hready rfl with ⟨msg, snap, digest, hbuild, hdecode⟩
  have hstorable : denyRule.val.Storable := ⟨by decide, by decide, by decide, by decide⟩
  rcases (published_rules_iff replacePolicy_own ⟨by decide, rfl⟩ format runtime none (by decide)
    hbuild hdecode).mpr ⟨by simpa using hstorable, by simp⟩ with ⟨b, hb, hdelivers⟩
  exact ⟨replacePolicy_own, msg, snap, digest, b, hbuild, hdecode, hb, hdelivers⟩

theorem empty_policy_falls_back
    : defaultStore.replacePolicy (some (str "acme")) [] = .ok defaultStore ∧
      ∃ msg snap digest b, defaultStore.val.build runtime format 0 none = .ok msg ∧
        decodeAndVerify format (format.snapshot.marshal msg) = .ok (snap, digest) ∧
        format.policy.unmarshal (snap.policy (str "acme")) = .ok b ∧
        b.rules = [(denyRow none (str "fleet-wide")).msg] := by
  have hnone : defaultStore.val.rulesOf (some (str "acme")) = [] := by
    change mergeSort [] _ = _
    simp
  have hfleet := @rulesOf_policyTables_none [] (by simp)
  have hload : ∃ policy, defaultStore.val.loadPolicy (some (str "acme")) = .ok policy := by
    unfold Tables.loadPolicy
    rw [if_pos hnone]
    exact ⟨none, rfl⟩
  have hready : defaultStore.val.Ready format runtime none :=
    policyTables_ready (by simp) hload
  rcases served hready rfl with ⟨msg, snap, digest, hbuild, hdecode⟩
  have hserves := Tables.serves defaultStore.property (by decide) hbuild hdecode
  rcases hserves.selects hready.fleet.loads.policy (mem_cons_self)
    (hready.tenants _ mem_cons_self).loads with ⟨b, hb, hrules⟩
  refine ⟨replacePolicy_nil, msg, snap, digest, b, hbuild, hdecode, hb, ?_⟩
  rw [hrules, if_pos (by exact hnone)]
  exact congrArg _ hfleet

end ModelGateway.Control
