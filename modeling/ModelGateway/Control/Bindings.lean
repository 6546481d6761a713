import ModelGateway.Control.Shipping

namespace ModelGateway.Control

open Except List
open Signing (TrustStore signingContext)
open Wire

section

variable {registry : Registry} {port : Port} {name version : Str} {c : Component}

structure Registry.Names (registry : Registry) (port : Port) (name version : Str) (c : Component) : Prop where
  registered : c ∈ registry.components
  port : c.manifest.port = port
  name : c.manifest.name = name
  version : version = [] ∨ c.manifest.version = version

theorem Registry.resolve_eq_ok (h : registry.resolve port name version = .ok c)
    : registry.Names port name version c := by
  unfold Registry.resolve at h
  split at h
  . next hversion =>
    split at h
    . simp at h
    . next found hfind =>
      rw [← ok.inj h]
      have hnamed := find?_some hfind
      simp only [decide_eq_true_eq] at hnamed
      exact ⟨mem_of_find?_eq_some hfind, hnamed.1, hnamed.2.1, .inr hnamed.2.2⟩
  . next hversion =>
    split at h
    . simp at h
    . next found hfilter =>
      rw [← ok.inj h]
      have hfound : found ∈ registry.components.filter fun c =>
          c.manifest.port = port ∧ c.manifest.name = name ∧ c.isBindable := by
        rw [hfilter]
        exact mem_singleton_self found
      rw [mem_filter] at hfound
      simp only [decide_eq_true_eq] at hfound
      exact ⟨hfound.1, hfound.2.1, hfound.2.2.1, .inl (Decidable.not_not.mp hversion)⟩
    . simp at h

end

section

variable (sha256 : Str → Str) (ed25519 : Str → Str → Str → Bool) (registry : Registry)
  (trust : TrustStore)

def Component.SignedBy (c : Component) (s : Signing.Signature) : Prop :=
  ∃ key, trust.keys.lookup s.keyID = some key ∧ key.status ≠ .revoked ∧
    ed25519 key.publicKey s.value (signingContext ++ c.manifest.digest sha256) = true

structure Component.Vouched (c : Component) : Prop where
  active : c.status = .active
  admitted : ∃ a, c.admission = some a ∧ a.passed = true ∧ a.suite = c.manifest.port ∧
    a.manifestDigest = c.manifest.digest sha256
  signed : ∀ s, c.signature = some s → c.SignedBy sha256 ed25519 trust s
  required : trust.policy = .required → c.signature.isSome = true

def PluginVouched (m : PluginBindingMsg) : Prop :=
  ∃ port c, encodePort port = some m.port ∧ registry.resolve port m.component m.version = .ok c ∧
    registry.Names port m.component m.version c ∧ c.Vouched sha256 ed25519 trust

structure GuardrailVouched (m : GuardrailBindingMsg) (c : Component) : Prop where
  resolved : registry.resolve .guardrail m.component m.version = .ok c
  named : registry.Names .guardrail m.component m.version c
  vouched : c.Vouched sha256 ed25519 trust
  execution : m.execution = c.manifest.execution.value
  moduleDigest : m.moduleDigest = c.manifest.moduleDigest
  latency : c.manifest.latencyBudgetMs ≤ m.timeoutMs

variable {sha256 ed25519 registry trust} {place : Str}

theorem Signing.TrustStore.verify_eq_ok {digest : Str} {signature : Option Signing.Signature}
    {signer : Option Signing.PublisherKey} (h : trust.verify ed25519 digest signature = .ok signer)
    : (∀ s, signature = some s →
        ∃ key, trust.keys.lookup s.keyID = some key ∧ key.status ≠ .revoked ∧
          ed25519 key.publicKey s.value (signingContext ++ digest) = true) ∧
      (trust.policy = .required → signature.isSome = true) := by
  cases signature with
  | none =>
    unfold Signing.TrustStore.verify at h
    rw [ite_error_eq_ok_iff] at h
    exact ⟨by simp, fun hrequired => absurd hrequired h.1⟩
  | some s =>
    refine ⟨?_, fun _ => rfl⟩
    intro s' hs'
    rw [← Option.some.inj hs']
    unfold Signing.TrustStore.verify at h
    dsimp only at h
    split at h
    . simp at h
    . next key hkey =>
      rw [ite_error_eq_ok_iff, bind_eq_ok_iff] at h
      rcases h with ⟨hrevoked, _, hpayload, h⟩
      unfold Signing.signingPayload at hpayload
      rw [ite_error_eq_ok_iff] at hpayload
      rw [← ok.inj hpayload.2] at h
      split at h
      . next hverified => exact ⟨key, hkey, hrevoked, hverified⟩
      . simp at h

variable {c : Component}

theorem Component.isAdmitted_iff
    : c.isAdmitted sha256 = true
        ↔
      ∃ a, c.admission = some a ∧ a.passed = true ∧ a.suite = c.manifest.port ∧
        a.manifestDigest = c.manifest.digest sha256 := by
  unfold Component.isAdmitted
  cases c.admission with
  | none => simp
  | some a =>
    simp only [Bool.and_eq_true, decide_eq_true_eq, Option.some.injEq, exists_eq_left']
    constructor
    . rintro ⟨⟨hpassed, hdigest⟩, hsuite⟩
      exact ⟨hpassed, hsuite, hdigest⟩
    . rintro ⟨hpassed, hsuite, hdigest⟩
      exact ⟨⟨hpassed, hdigest⟩, hsuite⟩

theorem vouched_of_required (hconstructed : c.postInit sha256 = .ok c)
    (hbindable : requireBindable c place = .ok ())
    (hsignature : requireSignature sha256 ed25519 c place trust = .ok ())
    : c.Vouched sha256 ed25519 trust := by
  have hactive : c.status = .active := by
    unfold requireBindable at hbindable
    split at hbindable
    . next h => exact of_decide_eq_true h
    . simp at hbindable
  have hadmitted : c.isAdmitted sha256 = true := by
    unfold Component.postInit at hconstructed
    rw [ite_error_eq_ok_iff] at hconstructed
    by_contra hnot
    exact hconstructed.1 ⟨hactive, by simp [hnot]⟩
  unfold requireSignature at hsignature
  split at hsignature
  . next hverify =>
    rcases Signing.TrustStore.verify_eq_ok hverify with ⟨hsigned, hrequired⟩
    exact ⟨hactive, Component.isAdmitted_iff.mp hadmitted, hsigned, hrequired⟩
  . simp at hsignature

theorem resolve_eq_ok_iff {port : Port} {name version : Str}
    : resolve registry port name version place = .ok c ↔ registry.resolve port name version = .ok c := by
  unfold resolve
  cases registry.resolve port name version with
  | error err => simp [Except.mapError]
  | ok c' => simp [Except.mapError]

section

variable (hcomponents : ∀ c ∈ registry.components, c.postInit sha256 = .ok c)

include hcomponents

theorem validatePlugin_eq_ok {b : PluginBinding} {m : PluginBindingMsg}
    (hvalidate : validatePlugin sha256 ed25519 registry place trust b = .ok ())
    (hencode : encodePlugin b = .ok m)
    : PluginVouched sha256 ed25519 registry trust m := by
  unfold validatePlugin at hvalidate
  simp only [bind_eq_ok_iff, resolve_eq_ok_iff] at hvalidate
  rcases hvalidate with ⟨c, hresolve, _, hbindable, hsignature⟩
  have hnames := Registry.resolve_eq_ok hresolve
  unfold encodePlugin at hencode
  split at hencode
  . simp at hencode
  . next port hport =>
    rw [← ok.inj hencode]
    exact ⟨b.port, c, hport, hresolve, hnames,
      vouched_of_required (hcomponents c hnames.registered) hbindable hsignature⟩

theorem validateGuardrail_eq_ok {g : GuardrailBinding} {m : GuardrailBindingMsg}
    (hvalidate : validateGuardrail sha256 ed25519 registry place trust g = .ok ())
    (hencode : encodeGuardrail registry g = .ok m)
    : ∃ c, GuardrailVouched sha256 ed25519 registry trust m c := by
  unfold validateGuardrail at hvalidate
  simp only [bind_eq_ok_iff, resolve_eq_ok_iff] at hvalidate
  rcases hvalidate with ⟨c, hresolve, _, hbindable, _, hsignature, hlatency⟩
  have hnames := Registry.resolve_eq_ok hresolve
  have hvouched := vouched_of_required (hcomponents c hnames.registered) hbindable hsignature
  unfold encodeGuardrail at hencode
  simp only [bind_eq_ok_iff] at hencode
  -- Encoding resolves the binding a second time, and finds the same component.
  rcases hencode with ⟨c', hresolve', timeout, htimeout, hencode⟩
  rw [hresolve] at hresolve'
  rw [← ok.inj hencode, ← ok.inj hresolve']
  refine ⟨c, hresolve, hnames, hvouched, rfl, rfl, ?_⟩
  unfold requireLatency at hlatency
  rw [ite_error_eq_ok_iff] at hlatency
  have htimeout := uint32_eq_ok htimeout
  change c.manifest.latencyBudgetMs ≤ (timeout : Int)
  omega

theorem validateBindings_eq_ok {tenant : Option Str} {plugins : List PluginBinding}
    {guardrails : List GuardrailBinding} {pluginMsgs : List PluginBindingMsg}
    {guardrailMsgs : List GuardrailBindingMsg}
    (hvalidate : validateBindings sha256 ed25519 registry tenant plugins guardrails trust = .ok ())
    (hplugins : plugins.mapM encodePlugin = .ok pluginMsgs)
    (hguardrails : guardrails.mapM (encodeGuardrail registry) = .ok guardrailMsgs)
    : (∀ m ∈ pluginMsgs, PluginVouched sha256 ed25519 registry trust m) ∧
      ∀ m ∈ guardrailMsgs, ∃ c, GuardrailVouched sha256 ed25519 registry trust m c := by
  unfold validateBindings at hvalidate
  rw [bind_eq_ok_iff] at hvalidate
  rcases hvalidate with ⟨_, hvalidPlugins, hvalidGuardrails⟩
  rw [forM_eq_ok_iff] at hvalidPlugins hvalidGuardrails
  constructor
  . intro m hm
    rcases mem_of_mapM_ok _ hplugins hm with ⟨b, hb, hencode⟩
    exact validatePlugin_eq_ok hcomponents (hvalidPlugins b hb) hencode
  . intro m hm
    rcases mem_of_mapM_ok _ hguardrails hm with ⟨g, hg, hencode⟩
    exact validateGuardrail_eq_ok hcomponents (hvalidGuardrails g hg) hencode

end

theorem validate_bindings {fleet : Fleet} {tenants : List Tenant}
    (h : validate sha256 ed25519 fleet tenants trust = .ok ())
    : validateBindings sha256 ed25519 fleet.registry none fleet.defaultPlugins fleet.defaultGuardrails
        trust = .ok () ∧
      ∀ t ∈ tenants, validateBindings sha256 ed25519 fleet.registry (some t.id) t.plugins t.guardrails
        trust = .ok () := by
  unfold validate at h
  simp only [bind_eq_ok_iff] at h
  rcases h with ⟨_, _, _, _, seen, htenants, hdefaults⟩
  refine ⟨hdefaults, ?_⟩
  refine foldlM_ok_induction _ (fun done _ => ∀ t ∈ done, validateBindings sha256 ed25519
    fleet.registry (some t.id) t.plugins t.guardrails trust = .ok ()) _ _ _ htenants (by simp) ?_
  intro done t seen₁ seen₂ _ hdone hstep
  unfold validateLayer at hstep
  simp only [ite_error_eq_ok_iff, bind_eq_ok_iff] at hstep
  rcases hstep with ⟨_, _, _, _, _, _, hbindings, _⟩
  rw [forall_mem_append]
  exact ⟨hdone, forall_mem_singleton.mpr hbindings⟩

end

section

theorem encodeFleet_bindings {fleet : Fleet} {tenants : List Tenant} {builtAt : Int}
    {m : GlobalLayerMsg} (h : encodeFleet fleet tenants builtAt = .ok m)
    : fleet.defaultPlugins.mapM encodePlugin = .ok m.defaultPlugins ∧
      fleet.defaultGuardrails.mapM (encodeGuardrail fleet.registry) = .ok m.defaultGuardrails := by
  unfold encodeFleet at h
  simp only [bind_eq_ok_iff] at h
  rcases h with ⟨_, _, _, _, _, _, _, hplugins, _, hguardrails, _, _, h⟩
  rw [← ok.inj h]
  exact ⟨hplugins, hguardrails⟩

theorem encodeTenant_bindings {registry : Registry} {builtAt : Int} {t : Tenant} {m : TenantLayerMsg}
    (h : encodeTenant registry builtAt t = .ok m)
    : t.plugins.mapM encodePlugin = .ok m.plugins ∧
      t.guardrails.mapM (encodeGuardrail registry) = .ok m.guardrails := by
  unfold encodeTenant at h
  simp only [bind_eq_ok_iff] at h
  rcases h with ⟨_, _, _, _, _, _, _, _, _, hplugins, _, hguardrails, _, _, h⟩
  rw [← ok.inj h]
  exact ⟨hplugins, hguardrails⟩

theorem built_bindings_vouched (f : Format) (ed25519 : Str → Str → Str → Bool) {fleet : Fleet}
    {tenants : List Tenant} {builtAt : Int} {trust : Option TrustStore} {msg : SnapshotMsg}
    (hcomponents : ∀ c ∈ fleet.registry.components, c.postInit f.sha256 = .ok c)
    (hbuild : buildSnapshot f ed25519 fleet tenants builtAt trust = .ok msg)
    : (∃ layer, msg.globalLayer = some layer ∧ (∀ m ∈ layer.defaultPlugins,
          PluginVouched f.sha256 ed25519 fleet.registry (trust.getD .empty) m) ∧
        ∀ m ∈ layer.defaultGuardrails,
          ∃ c, GuardrailVouched f.sha256 ed25519 fleet.registry (trust.getD .empty) m c) ∧
      ∀ layer ∈ msg.tenants,
        (∀ m ∈ layer.plugins, PluginVouched f.sha256 ed25519 fleet.registry (trust.getD .empty) m) ∧
        ∀ m ∈ layer.guardrails,
          ∃ c, GuardrailVouched f.sha256 ed25519 fleet.registry (trust.getD .empty) m c := by
  rcases buildSnapshot_eq_ok f hbuild with ⟨layer, _, hvalidate, hlayer, hlayers, rfl⟩
  rcases validate_bindings hvalidate with ⟨hdefaults, htenants⟩
  constructor
  . rcases encodeFleet_bindings hlayer with ⟨hplugins, hguardrails⟩
    exact ⟨_, rfl, validateBindings_eq_ok hcomponents hdefaults hplugins hguardrails⟩
  . intro sealed hsealed
    rcases mem_map.mp hsealed with ⟨m, hm, rfl⟩
    rcases mem_of_mapM_ok _ hlayers hm with ⟨t, ht, hencode⟩
    rcases encodeTenant_bindings hencode with ⟨hplugins, hguardrails⟩
    exact validateBindings_eq_ok hcomponents (htenants t ht) hplugins hguardrails

end

namespace Sample

def scanner : Manifest where
  name := str "scanner"
  version := str "1.0.0"
  port := .guardrail
  configSchema := str "\x7b\x7d"
  latencyBudgetMs := 20
  failureMode := .failClosed
  execution := .inProcess
  capabilities := []
  image := []
  moduleDigest := str "sha256:" ++ replicate 64 0x61

def admittedScanner (sha256 : Str → Str) : Component where
  manifest := scanner
  status := .active
  admission := some ⟨.guardrail, str "1", scanner.digest sha256, true, str "runner"⟩
  signature := none

def guardedFleet (sha256 : Str → Str) : Fleet :=
  { fleet 0 with
    registry := ⟨[admittedScanner sha256]⟩
    defaultGuardrails := [⟨str "scanner", [], [], 30, .failClosed, true, []⟩] }

def boundTenant : Tenant :=
  { tenant with plugins := [⟨.guardrail, str "scanner", str "1.0.0", []⟩] }

theorem admittedScanner_postInit (sha256 : Str → Str)
    : (admittedScanner sha256).postInit sha256 = .ok (admittedScanner sha256) := by
  simp [Component.postInit, Component.isAdmitted, admittedScanner, scanner]

theorem build_guarded
    : ∃ msg, buildSnapshot Wire.Sample.format anySignature
        (guardedFleet Wire.Sample.format.sha256) [boundTenant] 0 none = .ok msg := by
  generalize hsha : Wire.Sample.format.sha256 = sha256
  have hvalidate : validate sha256 anySignature (guardedFleet sha256) [boundTenant] .empty = .ok () :=
    rfl
  have hfleet : ∃ layer, encodeFleet (guardedFleet sha256) [boundTenant] 0 = .ok layer := by
    unfold encodeFleet
    rw [toUnixMs_zero]
    exact ⟨_, rfl⟩
  have htenant : ∃ m, encodeTenant (guardedFleet sha256).registry 0 boundTenant = .ok m := by
    have hkeys : encodeKeys boundTenant.keys = [] := by
      simp [encodeKeys, boundTenant, tenant]
    unfold encodeTenant
    rw [toUnixMs_zero, hkeys]
    exact ⟨_, rfl⟩
  rcases hfleet with ⟨layer, hlayer⟩
  rcases htenant with ⟨m, hm⟩
  have hlayers : [boundTenant].mapM (encodeTenant (guardedFleet sha256).registry 0) = .ok [m] := by
    rw [mapM_cons, hm]
    rfl
  unfold buildSnapshot
  rw [hsha, Option.getD_none, hvalidate, hlayer, hlayers]
  exact ⟨_, rfl⟩

end Sample

open Sample

theorem built_bindings_vouched_scanner
    : ∃ msg, buildSnapshot Wire.Sample.format anySignature
          (guardedFleet Wire.Sample.format.sha256) [boundTenant] 0 none = .ok msg ∧
        ∀ layer ∈ msg.tenants,
          (∀ m ∈ layer.plugins, PluginVouched Wire.Sample.format.sha256 anySignature
            (guardedFleet Wire.Sample.format.sha256).registry .empty m) ∧
          ∀ m ∈ layer.guardrails, ∃ c, GuardrailVouched Wire.Sample.format.sha256 anySignature
            (guardedFleet Wire.Sample.format.sha256).registry .empty m c := by
  rcases build_guarded with ⟨msg, hmsg⟩
  refine ⟨msg, hmsg, (built_bindings_vouched _ _ ?_ hmsg).2⟩
  intro c hc
  rw [mem_singleton.mp hc]
  exact admittedScanner_postInit _

end ModelGateway.Control
