import ModelGateway.Core.Acceptance

namespace ModelGateway

open List GlobalLayer
open AList (lookup_insert)
open Option (some)

namespace Snapshot

def withTenantLayer (s : Snapshot) : Option TenantLayer → Except GoError Snapshot
  | none => .error (.invalid (str "nil tenant layer"))
  | some layer => .ok ⟨s.global, s.tenants.insert layer.tenant layer⟩

def withGlobalLayer (s : Snapshot) : Option GlobalLayer → Except GoError Snapshot
  | none => .error (.invalid (str "snapshot needs a global layer"))
  | some global => compose global (s.tenants.entries.map (·.2))

inductive Change where
  | tenantLayer (layer : Option TenantLayer)
  | globalLayer (layer : Option GlobalLayer)

def apply (s : Snapshot) : Change → Except GoError Snapshot
  | .tenantLayer layer => s.withTenantLayer layer
  | .globalLayer layer => s.withGlobalLayer layer

def Change.Accepted : Change → Prop
  | .tenantLayer layer => ∀ l ∈ layer, ∃ spec, newTenantLayer spec = .ok l
  | .globalLayer layer => ∀ g ∈ layer, ∃ spec, newGlobalLayer spec = .ok g

end Snapshot

def GlobalLayer.Deploys (g : GlobalLayer) (a : ModelAlias) : Prop :=
  ∀ key ∈ a.targets, GoMap.slice g.byRoute key ≠ []

def GlobalLayer.Resolves (g : GlobalLayer) (layer : TenantLayer) : Prop :=
  ∀ name a, layer.aliases.lookup name = some a → g.Deploys a

structure TenantLayer.Coherent (layer : TenantLayer) : Prop where
  keys : ∀ lookup keyID, layer.keys.lookup lookup = some keyID →
    ∃ p, layer.principals.lookup keyID = some p ∧ p.tenant = layer.tenant
  budgets : ∀ keyID p, layer.principals.lookup keyID = some p →
    ∀ ref ∈ p.budgets, (layer.budgets.lookup ref.id).isSome

structure Snapshot.Coherent (s : Snapshot) : Prop where
  indexed : ∀ tenant layer, s.tenants.lookup tenant = some layer → layer.tenant = tenant
  routed : ∀ tenant layer, s.tenants.lookup tenant = some layer →
    ∃ pre, s.tenantForPrefix pre = some tenant
  layers : ∀ tenant layer, s.tenants.lookup tenant = some layer → layer.Coherent
  aliases : ∀ name a, s.global.aliases.lookup name = some a → s.global.Deploys a
  overrides : ∀ tenant layer, s.tenants.lookup tenant = some layer → s.global.Resolves layer

def Snapshot.Fits (s : Snapshot) : Snapshot.Change → Prop
  | .tenantLayer layer => ∀ l ∈ layer, s.global.routed l.tenant ∧ s.global.Resolves l
  | .globalLayer layer => ∀ g ∈ layer, ∀ tenant l, s.tenants.lookup tenant = some l → g.Resolves l

theorem newTenantLayer_budgets {spec : TenantSpec} {t : TenantLayer} (h : newTenantLayer spec = .ok t)
    : ∀ keyID p, t.principals.lookup keyID = some p →
        ∀ ref ∈ p.budgets, (t.budgets.lookup ref.id).isSome := by
  have hspec := (newTenantLayer_isOk_iff spec).mp ⟨t, h⟩
  rw [newTenantLayer_eq_layer h]
  intro keyID p hp ref href
  rcases Table.mem_of_lookup_index _ _ hp with ⟨_, hmem, _, rfl⟩
  exact (Table.lookup_index_isSome_iff _ _).mpr ((hspec.principals _ hmem).2.2 ref href)

theorem newTenantLayer_coherent {spec : TenantSpec} {t : TenantLayer} (h : newTenantLayer spec = .ok t)
    : t.Coherent := by
  have hwf := (newTenantLayer_eq_ok h).1
  constructor
  . intro lookup keyID hlookup
    rcases Option.isSome_iff_exists.mp (hwf.keys_known lookup keyID hlookup) with ⟨p, hp⟩
    exact ⟨p, hp, hwf.principal_tenant keyID p hp⟩
  . exact newTenantLayer_budgets h

theorem newGlobalLayer_deploys {spec : GlobalSpec} {g : GlobalLayer} (h : newGlobalLayer spec = .ok g)
    (name : Str) (a : ModelAlias) (ha : g.aliases.lookup name = some a)
    : g.Deploys a := by
  have hspec := (newGlobalLayer_isOk_iff spec).mp ⟨g, h⟩
  rw [newGlobalLayer_eq_layer h] at ha ⊢
  rcases Table.mem_of_lookup_index _ _ ha with ⟨_, hmem, _, rfl⟩
  intro key hkey
  exact (@slice_byRoute_ne_nil_iff spec _ key).mpr ((hspec.aliases _ hmem).2.2 key hkey)

variable {tenants : List TenantLayer}

theorem compose_lookup_iff {global : GlobalLayer} {s : Snapshot} (h : compose global tenants = .ok s)
    (tenant : Str) (layer : TenantLayer)
    : s.tenants.lookup tenant = some layer ↔ layer ∈ tenants ∧ layer.tenant = tenant := by
  constructor
  . intro hlookup
    rcases (compose_eq_ok h).2 tenant layer hlookup with ⟨hmem, htenant, -⟩
    exact ⟨hmem, htenant⟩
  . rintro ⟨hmem, htenant⟩
    rw [← htenant]
    exact compose_serves h hmem

namespace Snapshot

variable {s : Snapshot}

theorem coherent_of_compose_iff {global : GlobalLayer} {tenants : List TenantLayer}
    (hglobal : ∃ spec, newGlobalLayer spec = .ok global) (htenants : ∀ layer ∈ tenants, layer.Coherent)
    (h : compose global tenants = .ok s)
    : s.Coherent ↔ ∀ layer ∈ tenants, global.Resolves layer := by
  have hs := (compose_eq_ok h).1
  have hlookup := compose_lookup_iff h
  rcases hglobal with ⟨spec, hspec⟩
  constructor
  . intro hcoherent layer hlayer
    rw [← hs]
    exact hcoherent.overrides layer.tenant layer ((hlookup _ _).mpr ⟨hlayer, rfl⟩)
  . intro hresolves
    constructor
    . intro tenant layer hlayer
      exact ((hlookup tenant layer).mp hlayer).2
    . intro tenant layer hlayer
      unfold tenantForPrefix
      rw [hs, ← routed_iff]
      exact ((compose_eq_ok h).2 tenant layer hlayer).2.2
    . intro tenant layer hlayer
      exact htenants layer ((hlookup tenant layer).mp hlayer).1
    . rw [hs]
      exact newGlobalLayer_deploys hspec
    . intro tenant layer hlayer
      rw [hs]
      exact hresolves layer ((hlookup tenant layer).mp hlayer).1

variable {s' : Snapshot}

theorem withTenantLayer_coherent_iff {layer : Option TenantLayer}
    (haccepted : (Change.tenantLayer layer).Accepted) (hs : s.Coherent)
    (h : s.withTenantLayer layer = .ok s')
    : s'.Coherent ↔ s.Fits (.tenantLayer layer) := by
  cases layer with
  | none => simp [withTenantLayer] at h
  | some layer =>
    rcases haccepted layer rfl with ⟨spec, hspec⟩
    rw [← Except.ok.inj h]
    constructor
    . rintro ⟨-, hrouted, -, -, hoverrides⟩ l hl
      rw [← some.inj hl, routed_iff]
      exact ⟨hrouted layer.tenant layer (lookup_insert _),
        hoverrides layer.tenant layer (lookup_insert _)⟩
    . intro hfits
      rcases hfits layer rfl with ⟨hrouted, hresolves⟩
      rw [routed_iff] at hrouted
      -- The layers are the new one, of which all this was asked, and the old ones.
      have hcases : ∀ tenant l, (s.tenants.insert layer.tenant layer).lookup tenant = some l →
          (tenant = layer.tenant ∧ l = layer) ∨ s.tenants.lookup tenant = some l := by
        intro tenant l hl
        by_cases htenant : tenant = layer.tenant
        . rw [htenant, lookup_insert] at hl
          exact .inl ⟨htenant, (some.inj hl).symm⟩
        . rw [AList.lookup_insert_ne htenant] at hl
          exact .inr hl
      constructor
      . intro tenant l hl
        rcases hcases tenant l hl with ⟨rfl, rfl⟩ | hold
        . rfl
        . exact hs.indexed tenant l hold
      . intro tenant l hl
        rcases hcases tenant l hl with ⟨rfl, rfl⟩ | hold
        . exact hrouted
        . exact hs.routed tenant l hold
      . intro tenant l hl
        rcases hcases tenant l hl with ⟨rfl, rfl⟩ | hold
        . exact newTenantLayer_coherent hspec
        . exact hs.layers tenant l hold
      . exact hs.aliases
      . intro tenant l hl
        rcases hcases tenant l hl with ⟨rfl, rfl⟩ | hold
        . exact hresolves
        . exact hs.overrides tenant l hold

theorem withGlobalLayer_coherent_iff {layer : Option GlobalLayer}
    (haccepted : (Change.globalLayer layer).Accepted) (hs : s.Coherent)
    (h : s.withGlobalLayer layer = .ok s')
    : s'.Coherent ↔ s.Fits (.globalLayer layer) := by
  cases layer with
  | none => simp [withGlobalLayer] at h
  | some global =>
    have hmem : ∀ l, l ∈ s.tenants.entries.map (·.2) ↔ ∃ tenant, s.tenants.lookup tenant = some l := by
      intro l
      rw [mem_map]
      constructor
      . rintro ⟨e, he, rfl⟩
        exact ⟨e.1, AList.mem_lookup_iff.mpr he⟩
      . rintro ⟨tenant, hl⟩
        exact ⟨⟨tenant, l⟩, AList.mem_lookup_iff.mp hl, rfl⟩
    rw [coherent_of_compose_iff (haccepted global rfl) ?_ h]
    . simp only [hmem, Fits, Option.mem_def, some.injEq, forall_eq', forall_exists_index]
      exact ⟨fun hall tenant l hl => hall l tenant hl, fun hall l tenant hl => hall tenant l hl⟩
    . intro l hl
      rcases (hmem l).mp hl with ⟨tenant, hlookup⟩
      exact hs.layers tenant l hlookup

theorem apply_coherent_iff {change : Change} (haccepted : change.Accepted) (hs : s.Coherent)
    (h : s.apply change = .ok s')
    : s'.Coherent ↔ s.Fits change := by
  cases change with
  | tenantLayer layer => exact withTenantLayer_coherent_iff haccepted hs h
  | globalLayer layer => exact withGlobalLayer_coherent_iff haccepted hs h

theorem coherent_throughout_iff {global : GlobalLayer} {tenants : List TenantLayer} {s s' : Snapshot}
    {changes : List Change} (hglobal : ∃ spec, newGlobalLayer spec = .ok global)
    (htenants : ∀ layer ∈ tenants, ∃ spec, newTenantLayer spec = .ok layer)
    (hcompose : compose global tenants = .ok s) (haccepted : ∀ change ∈ changes, change.Accepted)
    (h : changes.foldlM apply s = .ok s')
    : (∀ before t, before <+: changes → before.foldlM apply s = .ok t → t.Coherent)
        ↔
      (∀ layer ∈ tenants, global.Resolves layer) ∧
        ∀ before change t, before ++ [change] <+: changes → before.foldlM apply s = .ok t →
          t.Fits change := by
  have hstart := coherent_of_compose_iff hglobal
    (fun layer hlayer => (htenants layer hlayer).elim fun _ hspec => newTenantLayer_coherent hspec)
    hcompose
  rw [← hstart]
  apply foldlM_throughout_iff apply Coherent Fits changes s s' h
  intro change hchange t t' ht ht'
  exact apply_coherent_iff (haccepted change hchange) ht ht'

namespace Sample

def served : RoutingKey := ⟨str "m", []⟩

def deployment : Deployment :=
  ⟨str "d1", served, str "p", str "https://p", str "r", .internal, str "ref", 100, 0, ⟨0, 0, 0, 0⟩, []⟩

def globalSpec : GlobalSpec where
  version := ⟨1, str "digest"⟩
  builtAt := 0
  deployments := [deployment]
  aliases := [⟨str "fast", [served]⟩]
  tenantPrefixes := (∅ : GoMap Str Str).insert (str "ac") (str "acme")
  defaultPlugins := []
  policyBundleRef := []
  defaultGuardrails := []
  defaultPolicy := []

def tenantSpec (tenant : Str) (target : RoutingKey) : TenantSpec where
  tenant := tenant
  version := ⟨1, str "digest"⟩
  builtAt := 0
  tier := str "gold"
  principals := []
  keys := ∅
  aliasOverrides := [⟨str "fast", [target]⟩]
  budgets := []
  plugins := []
  guardrails := []
  policy := []
  minTrustTier := .unset

def catalog : GlobalLayer :=
  { GlobalLayer.init globalSpec with
    deployments := (∅ : GoMap Str Deployment).insert (str "d1") deployment
    byRoute := (∅ : GoMap RoutingKey (List Deployment)).insert served [deployment]
    aliases := (∅ : GoMap Str ModelAlias).insert (str "fast") ⟨str "fast", [served]⟩ }

def layer (tenant : Str) (target : RoutingKey) : TenantLayer :=
  { TenantLayer.init (tenantSpec tenant target) with
    aliases := (∅ : GoMap Str ModelAlias).insert (str "fast") ⟨str "fast", [target]⟩ }

def snapshot (layer : TenantLayer) : Snapshot :=
  ⟨catalog, (∅ : GoMap Str TenantLayer).insert layer.tenant layer⟩

theorem catalog_resolves (tenant : Str) : catalog.Resolves (layer tenant served) := by
  intro name a ha
  by_cases hname : name = str "fast"
  . rw [hname, layer, lookup_insert, some.injEq] at ha
    rw [← ha]
    intro key hkey
    rw [mem_singleton.mp hkey]
    decide +kernel
  . rw [layer, AList.lookup_insert_ne hname] at ha
    simp at ha

end Sample

open Sample in
theorem incoherent_accepted
    : newGlobalLayer globalSpec = .ok catalog ∧
      newTenantLayer (tenantSpec (str "acme") served) = .ok (layer (str "acme") served) ∧
      newTenantLayer (tenantSpec (str "lost") served) = .ok (layer (str "lost") served) ∧
      newTenantLayer (tenantSpec (str "acme") ⟨str "gone", []⟩)
        = .ok (layer (str "acme") ⟨str "gone", []⟩) ∧
      compose catalog [layer (str "acme") served] = .ok (snapshot (layer (str "acme") served)) ∧
      (∃ s, (snapshot (layer (str "acme") served)).withTenantLayer (some (layer (str "lost") served))
        = .ok s ∧ ¬ s.Coherent) ∧
      compose catalog [layer (str "acme") ⟨str "gone", []⟩]
        = .ok (snapshot (layer (str "acme") ⟨str "gone", []⟩)) ∧
      ¬ (snapshot (layer (str "acme") ⟨str "gone", []⟩)).Coherent := by
  refine ⟨rfl, rfl, rfl, rfl, rfl, ⟨_, rfl, ?_⟩, rfl, ?_⟩
  . intro hcoherent
    rcases hcoherent.routed (str "lost") (layer (str "lost") served) (lookup_insert _)
      with ⟨pre, hpre⟩
    have hrouted : catalog.routed (str "lost") := (routed_iff _ _).mpr ⟨pre, hpre⟩
    revert hrouted
    decide +kernel
  . intro hcoherent
    have hdeploys := hcoherent.overrides (str "acme") _ (lookup_insert _) (str "fast") _
      (lookup_insert _) ⟨str "gone", []⟩ (mem_singleton_self _)
    revert hdeploys
    decide +kernel

open Sample in
theorem coherent_throughout_replaced
    : compose catalog [layer (str "acme") served] = .ok (snapshot (layer (str "acme") served)) ∧
      ∀ before t, before <+: [.tenantLayer (some (layer (str "acme") served))] →
        before.foldlM apply (snapshot (layer (str "acme") served)) = .ok t → t.Coherent := by
  refine ⟨rfl, ?_⟩
  refine (@coherent_throughout_iff catalog [layer (str "acme") served] _ _ _ ⟨globalSpec, rfl⟩ ?_ rfl
    ?_ rfl).mpr ⟨?_, ?_⟩
  . intro l hl
    rw [mem_singleton.mp hl]
    exact ⟨tenantSpec (str "acme") served, rfl⟩
  . intro change hchange
    rw [mem_singleton.mp hchange]
    intro l hl
    rw [← some.inj hl]
    exact ⟨tenantSpec (str "acme") served, rfl⟩
  . intro l hl
    rw [mem_singleton.mp hl]
    exact catalog_resolves (str "acme")
  . intro before change t hpre ht
    cases before with
    | nil =>
      rw [← Except.ok.inj ht, (cons_prefix_cons.mp hpre).1]
      intro l hl
      rw [← some.inj hl]
      exact ⟨by decide +kernel, catalog_resolves (str "acme")⟩
    | cons c before =>
      have hlength := hpre.length_le
      simp at hlength

end Snapshot

end ModelGateway
