import ModelGateway.Control.Buildability
import ModelGateway.Gateway.Authentication

namespace ModelGateway.Control

open List Table Tables

open Accounting.Postgres (InRange)
open FineTune (Failure)
open Gateway (Pipeline Request)
open Keys (ApiKey IssueKeyRequest Mintable NewKey Secret Settings)
open Signing (TrustStore)
open TextColumn (Fits varchar)
open Wire

structure Shares (settings : Settings) (p : Pipeline) : Prop where
  pepper : p.pepper = settings.pepper
  hmac : p.hmac = settings.hmac

def Store.issueKey (s : Store) (settings : Settings) (secret : Secret) (tenantID : Str)
    (body : IssueKeyRequest) (tier : Tier) : Except Failure (NewKey × Store) := do
  let (minted, t) ← s.val.issueKey settings secret tenantID body tier
  let s' ← commit t
  return (minted, s')

theorem parseAPIKey_presented {pre : Str} (hpre : pre ≠ []) (hunderscore : pre.contains 0x5f = false)
    (secret : Secret)
    : parseAPIKey (Keys.presented pre secret) = .ok (pre, secret.val) := by
  rw [parseAPIKey_eq_ok_iff]
  refine ⟨?_, hpre, ?_, ?_⟩
  . unfold Keys.presented
    rw [append_assoc _ (str "_")]
    rfl
  . have hlength := secret.property.1
    intro hnil
    rw [hnil] at hlength
    cases hlength
  . intro hmem
    rw [contains_eq_mem, decide_eq_false_iff_not] at hunderscore
    exact hunderscore hmem

namespace Tables

variable {t : Tables} {settings : Settings}

section

def Served (t : Tables) (snap : Snapshot) : Prop :=
  ∃ (f : Format) (rt : Runtime) (trust : Option TrustStore) (now : Int) (msg : SnapshotMsg) (digest : Str),
    IsDatetime now ∧ t.build rt f now trust = .ok msg ∧
      decodeAndVerify f (f.snapshot.marshal msg) = .ok (snap, digest)

theorem Served.serves {snap : Snapshot} (hsound : t.Sound) (h : t.Served snap) : ∃ f, t.Serves f snap := by
  rcases h with ⟨f, _, _, _, _, _, hnow, hbuild, hdecode⟩
  exact ⟨f, Tables.serves hsound hnow hbuild hdecode⟩

variable {f : Format} {snap : Snapshot} {p : Pipeline}

theorem Serves.authenticates (hserves : t.Serves f snap) (hsound : t.Sound) (hshares : Shares settings p)
    {key : ApiKey} (hkey : key ∈ t.apiKeys) (hlive : key.columns.revokedAt = none) {pre : Str}
    (hpre : (pre, key.columns.tenantID) ∈ t.keyPrefixes) (hne : pre ≠ [])
    (hunderscore : pre.contains 0x5f = false) {secret : Secret}
    (hlookup : key.lookup = settings.hmac settings.pepper secret.val) {now : Int} {req : Request}
    (hreq : req.apiKey = Keys.presented pre secret)
    (hvalid : (t.principalAt key key.columns.tenantID).validate now = .ok ())
    : p.authenticate snap now req = .ok (t.principalAt key key.columns.tenantID) := by
  rw [p.authenticate_eq_ok_iff_lookups, hreq, parseAPIKey_presented hne hunderscore]
  refine ⟨_, _, _, rfl, hserves.routed _ _ hpre, ?_, hvalid⟩
  rw [hshares.pepper, hshares.hmac, ← hlookup]
  exact hserves.principal hsound hkey hlive

end

section

theorem issued_sound_iff (hsound : t.Sound) {row : ApiKey} (hid : row.columns.id ∉ t.keyIDs)
    (hlookup : row.lookup ∉ t.apiKeys.map (·.lookup))
    : (t.issued row).Sound
        ↔
      t.KeyStored row ∧ ∀ tenant ∈ t.tenants, tenant.id = row.columns.tenantID →
        InRange ((tenant.version + 1 : ℕ+) : Int) := by
  have hids : (t.issued row).tenantIDs = t.tenantIDs := bump_ids t _
  have hstored : ∀ r, (t.issued row).KeyStored r ↔ t.KeyStored r := by
    intro r
    unfold KeyStored
    rw [hids]
    rfl
  have hkeyIDs : (t.issued row).keyIDs = t.keyIDs ++ [row.columns.id] := map_append
  have hgrants : ∀ {granted : Str → Prop} {grants : List (Str × Str)},
      Table.Holds id (GrantStored t.keyIDs granted) grants →
      Table.Holds id (GrantStored (t.issued row).keyIDs granted) grants := by
    intro granted grants h
    refine ⟨h.1, ?_⟩
    intro g hg
    rw [hkeyIDs]
    exact ⟨mem_append_left _ (h.2 g hg).1, (h.2 g hg).2⟩
  constructor
  . intro h
    refine ⟨(hstored row).mp (h.apiKeys.2 row ?_), ?_⟩
    . exact mem_append_right _ (mem_singleton.mpr rfl)
    . intro tenant htenant hid
      have hmem : { tenant with version := tenant.version + 1 } ∈ (t.issued row).tenants :=
        (mem_update_iff TenantRow.id).mpr (.inr ⟨tenant, htenant, hid, rfl⟩)
      exact (h.tenants.2 _ hmem).2.2.2
  . rintro ⟨hrow, hversion⟩
    have htenants : Table.Holds TenantRow.id TenantRow.Stored (t.issued row).tenants := by
      refine ⟨?_, ?_⟩
      . change (t.issued row).tenantIDs.Nodup
        rw [hids]
        exact hsound.tenants.1
      . intro r hr
        rcases (mem_update_iff TenantRow.id).mp hr with ⟨hr, _⟩ | ⟨r', hr', hid', rfl⟩
        . exact hsound.tenants.2 r hr
        . rcases hsound.tenants.2 r' hr' with ⟨hid, htier, hmin, _⟩
          exact ⟨hid, htier, hmin, hversion r' hr' hid'⟩
    have hkeys : Table.Holds (·.columns.id) (t.issued row).KeyStored (t.issued row).apiKeys := by
      refine ⟨(unique_append_iff fun r : ApiKey => r.columns.id).mpr ⟨hsound.apiKeys.1, hid⟩, ?_⟩
      intro r hr
      rw [hstored]
      rcases mem_append.mp hr with hr | hr
      . exact hsound.apiKeys.2 r hr
      . rw [mem_singleton.mp hr]
        exact hrow
    have hlookups : ((t.issued row).apiKeys.map (·.lookup)).Nodup :=
      (unique_append_iff ApiKey.lookup).mpr ⟨hsound.lookups, hlookup⟩
    have hchildren : ∀ {rows : List (Str × Str)}, Table.Holds Prod.fst (ChildStored t.tenantIDs) rows →
        Table.Holds Prod.fst (ChildStored (t.issued row).tenantIDs) rows := by
      intro rows h
      rw [hids]
      exact h
    exact ⟨⟨hsound.fleetState, htenants, hchildren hsound.keyPrefixes, hchildren hsound.orgs, hsound.teams,
      hsound.users, hsound.applications⟩,
      ⟨hkeys, hlookups, hgrants hsound.keyRoles, hgrants hsound.keyModels, hgrants hsound.keyBudgets⟩,
      ⟨by rw [hids]; exact hsound.budgets, hsound.deployments, hsound.aliasNames,
        by rw [hids]; exact hsound.aliases, hsound.bindingPorts, by rw [hids]; exact hsound.pluginBindings,
        hsound.ruleIDs, by rw [hids]; exact hsound.policyRules, by rw [hids]; exact hsound.finetuneJobs,
        hsound.usageRecords⟩⟩

end

section

theorem ensureTenant_provides (hsound : t.Sound) {t' : Tables} {tenantID tier : Str} {minTrustTier : Tier}
    (h : t.ensureTenant tenantID tier minTrustTier = .ok t')
    : tenantID ∈ t'.tenantIDs ∧ Fits 64 (tenantID ++ str "-app") ∧
        tenantID ++ str "-app" ∈ t'.applications.map (·.1) := by
  have hteam := ensureTenant_fits_team hsound h
  have hfits := TextColumn.fits_of_fits_append hteam
  have happ : Fits 64 (tenantID ++ str "-app") := by
    rw [TextColumn.fits_iff_width] at hteam hfits ⊢
    rw [TextColumn.width_append] at hteam ⊢
    have hwidth : TextColumn.width (str "-app") < TextColumn.width (str "-team") := by decide
    refine ⟨?_, by omega⟩
    rw [contains_eq_mem, decide_eq_false_iff_not, mem_append, not_or]
    rw [contains_eq_mem, decide_eq_false_iff_not] at hfits
    exact ⟨hfits.1, by decide⟩
  rcases ensureTenant_eq_ok h with ⟨_, tenants, _, _, _, applications, hwrite, _, _, _, happlications, rfl⟩
  refine ⟨?_, happ, ?_⟩
  . rcases writeTenant_eq_ok hwrite with ⟨_, _, ⟨_, id, hid, rfl⟩ | ⟨hmem, rfl⟩⟩
    . rw [hfits, Option.some.injEq] at hid
      rw [hid]
      exact mem_map_of_mem (mem_append_right _ (mem_singleton.mpr rfl))
    . change tenantID ∈ (Table.update TenantRow.id t.tenants tenantID _).map TenantRow.id
      rw [map_update TenantRow.id fun _ _ _ => by rfl]
      exact hmem
  . rcases mem_ensure happlications happ hteam with ⟨hmem, heq⟩ | ⟨_, heq⟩
    . rw [heq]
      exact hmem
    . rw [heq]
      exact mem_map_of_mem (mem_append_right _ (mem_singleton.mpr rfl))

structure Issuable (t : Tables) (settings : Settings) (secret : Secret) (tenantID : Str)
    (body : IssueKeyRequest) : Prop where
  keyID : ∃ keyID, varchar 64 body.keyID = some keyID ∧ keyID ≠ [] ∧ keyID ∉ t.keyIDs
  limits : InRange body.requestsPerMinute ∧ InRange body.tokensPerMinute ∧ InRange body.maxConcurrent
  lookup : settings.hmac settings.pepper secret.val ∉ t.apiKeys.map (·.lookup)
  routed : ∃ pre, (t.prefixesOf tenantID).head? = some pre ∧ pre ≠ [] ∧ pre.contains 0x5f = false
  pepper : Keys.minPepperBytes ≤ settings.pepper.length
  version : ∀ tenant ∈ t.tenants, tenant.id = tenantID → InRange ((tenant.version + 1 : ℕ+) : Int)

variable {secret : Secret} {tenantID applicationID : Str} {body : IssueKeyRequest} {tier : Tier}

theorem issueKey_sound_iff (hsound : t.Sound) (htenant : tenantID ∈ t.tenantIDs)
    (hfits : Fits 64 applicationID) (hknown : applicationID ∈ t.applications.map (·.1))
    (happlication : body.applicationID = some applicationID) (huser : body.userID = none)
    : (∃ minted t', t.issueKey settings secret tenantID body tier = .ok (minted, t') ∧ t'.Sound)
        ↔
      t.Issuable settings secret tenantID body := by
  have hstored : ∀ stored, body.stored = some stored
      ↔ ∃ keyID, varchar 64 body.keyID = some keyID ∧ { body with keyID := keyID } = stored := by
    intro stored
    unfold Fits at hfits
    unfold Keys.IssueKeyRequest.stored
    rw [happlication, huser]
    simp [hfits, Option.bind_eq_some_iff]
  simp only [issueKey_eq_ok_iff hsound.tenants.1, hstored]
  constructor
  . rintro ⟨_, _, ⟨_, pre, ⟨keyID, hkeyID, rfl⟩, hlookup, _, _, hfree, hpre, hmintable, rfl, rfl⟩, hissued⟩
    rcases hmintable with ⟨hne, hunderscore, hkeyne, hpepper⟩
    rcases (issued_sound_iff hsound hfree hlookup).mp hissued with ⟨hkey, hversion⟩
    rcases hkey with ⟨_, _, _, _, _, _, hrequests, htokens, hconcurrent, _⟩
    exact ⟨⟨keyID, hkeyID, hkeyne, hfree⟩, ⟨hrequests, htokens, hconcurrent⟩, hlookup,
      ⟨pre, hpre, hne, hunderscore⟩, hpepper, hversion⟩
  . rintro ⟨⟨keyID, hkeyID, hkeyne, hfree⟩, ⟨hrequests, htokens, hconcurrent⟩, hlookup,
      ⟨pre, hpre, hne, hunderscore⟩, hpepper, hversion⟩
    have howned : body.applicationID.isNone ≠ body.userID.isNone := by
      rw [happlication, huser]
      simp
    refine ⟨_, _, ⟨_, pre, ⟨keyID, hkeyID, rfl⟩, hlookup, howned, htenant, hfree, hpre,
      ⟨hne, hunderscore, hkeyne, hpepper⟩, rfl, rfl⟩, ?_⟩
    have htier : InRange (tier.val : Int) := by
      have hbounds := tier_bounds tier
      unfold InRange
      omega
    refine (issued_sound_iff hsound hfree hlookup).mpr ⟨⟨TextColumn.fits_of_varchar hkeyID, htenant, ?_, ?_,
      (show Fits 32 [] by decide), htier, hrequests, htokens, hconcurrent, ?_, ?_⟩, hversion⟩
    . intro id hid
      change id ∈ body.applicationID at hid
      rw [happlication, Option.mem_some_iff] at hid
      rw [← hid]
      exact hknown
    . intro id hid
      rw [huser] at hid
      cases hid
    . intro time htime
      cases htime
    . intro time htime
      cases htime

end

end Tables

theorem Store.issueKey_eq_ok_iff {s s' : Store} {settings : Settings} {secret : Secret} {tenantID : Str}
    {body : IssueKeyRequest} {tier : Tier} {minted : NewKey}
    : s.issueKey settings secret tenantID body tier = .ok (minted, s')
        ↔
      s.val.issueKey settings secret tenantID body tier = .ok (minted, s'.val) := by
  unfold Store.issueKey
  simp only [Except.bind_eq_ok_iff, commit_eq_ok_iff, pure, Except.pure]
  constructor
  . rintro ⟨⟨_, t⟩, hissue, s'', hs, h⟩
    cases h
    rw [hissue, hs]
  . intro hissue
    exact ⟨_, hissue, s', rfl, rfl⟩

theorem onboarded_key_authenticates_iff (settings : Settings) {s s₁ : Store} {tenantID tier : Str}
    {minTrustTier : Tier}
    (hensure : s.step settings (.ensureTenant tenantID tier minTrustTier) = .ok s₁) (secret : Secret)
    (body : IssueKeyRequest) (keyTier : Tier) (happlication : body.applicationID = some (tenantID ++ str "-app"))
    (huser : body.userID = none)
    : (∃ minted s₂, s₁.issueKey settings secret tenantID body keyTier = .ok (minted, s₂) ∧
        ∀ snap, s₂.val.Served snap →
          ∀ p now req, Shares settings p → req.apiKey = minted.presented →
            (∃ parsed, parseAPIKey req.apiKey = .ok parsed) ∧
            ∃ principal, p.authenticate snap now req = .ok principal ∧ principal.tenant = tenantID)
        ↔
      s₁.val.Issuable settings secret tenantID body := by
  rw [Store.step_eq_ok_iff] at hensure
  rcases ensureTenant_provides s.property hensure with ⟨htenant, hfits, hknown⟩
  rw [← @issueKey_sound_iff s₁.val settings secret tenantID _ body keyTier s₁.property htenant hfits
    hknown happlication huser]
  constructor
  . rintro ⟨minted, s₂, hissue, _⟩
    exact ⟨minted, s₂.val, Store.issueKey_eq_ok_iff.mp hissue, s₂.property⟩
  . rintro ⟨minted, t, hissue, hsound⟩
    refine ⟨minted, ⟨t, hsound⟩, Store.issueKey_eq_ok_iff.mpr hissue, ?_⟩
    intro snap hserved p now req hshares hreq
    rcases (Tables.issueKey_eq_ok_iff s₁.property.tenants.1).mp hissue
      with ⟨_, pre, _, _, _, _, _, hpre, ⟨hne, hunderscore, _⟩, rfl, rfl⟩
    rcases hserved.serves hsound with ⟨f, hserves⟩
    rw [hreq]
    refine ⟨⟨_, parseAPIKey_presented hne hunderscore secret⟩, _,
      hserves.authenticates hsound hshares (mem_append_right _ (mem_singleton.mpr rfl)) rfl ?_ hne
        hunderscore rfl hreq ?_, rfl⟩
    . exact mem_prefixesOf.mp (mem_of_mem_head? hpre)
    . rw [Principal.validate_eq_ok_iff]
      exact .inl rfl

namespace Sample

def firstKey (tenantID : Str) : IssueKeyRequest :=
  { Keys.Sample.issueRequest with applicationID := some (tenantID ++ str "-app") }

def underscored : Op :=
  .ensureTenant (str "a_b") (str "standard") ⟨.external, external_le⟩

def underscoredStore : Store where
  val := { Tables.initialised ⟨1, []⟩ with
    tenants := [⟨str "a_b", str "standard", 1, ⟨1, Nat.one_pos⟩⟩]
    keyPrefixes := [(str "a_b", str "a_b")]
    orgs := [(str "a_b-org", str "a_b")]
    teams := [(str "a_b-team", str "a_b-org")]
    applications := [(str "a_b-app", str "a_b-team")] }
  property := by decide +kernel

end Sample

open Sample

theorem onboarded_key_authenticates_acme
    : emptyStore.step keySettings onboard = .ok onboardedStore ∧
        ∃ minted s₂, onboardedStore.issueKey keySettings (Keys.Sample.secret 0) (str "acme")
            (firstKey (str "acme")) ⟨.external, by decide⟩ = .ok (minted, s₂) ∧
          ∀ snap, s₂.val.Served snap →
            ∀ p now req, Shares keySettings p → req.apiKey = minted.presented →
              (∃ parsed, parseAPIKey req.apiKey = .ok parsed) ∧
              ∃ principal, p.authenticate snap now req = .ok principal ∧ principal.tenant = str "acme" := by
  refine ⟨step_onboard, ?_⟩
  apply (onboarded_key_authenticates_iff keySettings step_onboard _ _ _ rfl rfl).mpr
  refine ⟨⟨str "key-1", by decide, by decide, by decide⟩, by decide, ?_, ⟨str "acme", by decide, by decide,
    by decide⟩, by decide, by decide⟩
  exact not_mem_nil

theorem underscored_tenant_has_no_key
    : emptyStore.step keySettings underscored = .ok underscoredStore ∧
        underscoredStore.issueKey keySettings (Keys.Sample.secret 0) (str "a_b")
            (firstKey (str "a_b")) ⟨.external, by decide⟩
          = .error (.invalidRequest (str "a tenant prefix must be non-empty and contain no underscore")) := by
  refine ⟨?_, rfl⟩
  rfl

end ModelGateway.Control
