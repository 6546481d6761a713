import ModelGateway.Control.Building
import ModelGateway.Control.Effects

namespace ModelGateway.Control

open Keys (ApiKey)
open Wire

namespace Tables

section

variable (t : Tables) (rt : Runtime) (now : Int)

def tenantLayer (tenantID : Str) : Except Error TenantLayerMsg := do
  let registry ← t.loadRegistry rt
  let tenant ← t.loadTenant tenantID
  encodeTenant registry now tenant

end

variable {t t' : Tables} {rt : Runtime} {now : Int}

variable {row : TenantRow}

theorem tenantLayer_eq_ok_iff (hsound : t.Sound) (hnow : IsDatetime now)
    (hrow : row ∈ t.tenants) {m : TenantLayerMsg}
    : t.tenantLayer rt now row.id = .ok m
        ↔
      (∃ registry, t.loadRegistry rt = .ok registry) ∧ t.TenantLoads row ∧ t.Encodes row now m := by
  unfold tenantLayer
  simp only [Except.bind_eq_ok_iff, loadTenant_eq_ok_iff (get_tenant hsound hrow)]
  constructor
  . rintro ⟨registry, hregistry, _, ⟨hloads, rfl⟩, hencode⟩
    exact ⟨⟨registry, hregistry⟩, hloads, (encodeTenant_eq_ok_iff hsound hrow hloads hnow _).mp hencode⟩
  . rintro ⟨⟨registry, hregistry⟩, hloads, hencodes⟩
    exact ⟨registry, hregistry, _, ⟨hloads, rfl⟩, (encodeTenant_eq_ok_iff hsound hrow hloads hnow _).mpr hencodes⟩

theorem tenantLayer_isOk_iff (hsound : t.Sound) (hnow : IsDatetime now) (hrow : row ∈ t.tenants)
    : (∃ m, t.tenantLayer rt now row.id = .ok m)
        ↔
      (∃ registry, t.loadRegistry rt = .ok registry) ∧ t.TenantLoads row ∧
        ∀ b ∈ t.pluginsOf (some row.id), OnWire b := by
  simp only [tenantLayer_eq_ok_iff hsound hnow hrow]
  constructor
  . rintro ⟨m, hregistry, hloads, hencodes⟩
    have hencode := (encodeTenant_eq_ok_iff hsound hrow hloads hnow .empty).mpr hencodes
    exact ⟨hregistry, hloads, (encodeTenant_isOk_iff hsound hrow hloads hnow _).mp ⟨m, hencode⟩⟩
  . rintro ⟨hregistry, hloads, honWire⟩
    rcases (encodeTenant_isOk_iff hsound hrow hloads hnow .empty).mpr honWire with ⟨m, hm⟩
    exact ⟨m, hregistry, hloads, (encodeTenant_eq_ok_iff hsound hrow hloads hnow _).mp hm⟩

theorem Plain.tenantLayer (hplain : t.Plain) (hsound : t.Sound) (hready : t.PlainReady)
    (hnow : IsDatetime now) (hrow : row ∈ t.tenants)
    : ∃ m, t.tenantLayer rt now row.id = .ok m ∧ t.Encodes row now m := by
  have htenants : ∀ row ∈ t.tenants, t.TenantLoads row := by
    intro row hrow
    rcases hready.tenants row hrow with ⟨hid, hprefixes, htier⟩
    exact ⟨hid, hprefixes, htier, fun b hb => hready.budgets b (mem_budgetsOf.mp hb).1,
      fun key hkey => (hready.keys key (mem_keysOf.mp hkey).1 (mem_keysOf.mp hkey).2.2).1,
      fun a ha _ => hready.aliases a ha, ⟨none, hplain.loadPolicy _⟩⟩
  have honWire : ∀ b ∈ t.pluginsOf (some row.id), OnWire b := by
    rw [hplain.pluginsOf]
    simp
  rcases (tenantLayer_isOk_iff hsound hnow hrow).mpr ⟨⟨_, hplain.loadRegistry rt⟩, htenants row hrow, honWire⟩
    with ⟨m, hm⟩
  exact ⟨m, hm, ((tenantLayer_eq_ok_iff hsound hnow hrow).mp hm).2.2⟩

structure SameTenant (t t' : Tables) (tenantID : Str) : Prop where
  tenant : Table.get TenantRow.id t'.tenants tenantID = Table.get TenantRow.id t.tenants tenantID
  budgets : t'.budgetsOf tenantID = t.budgetsOf tenantID
  keys : t'.keysOf tenantID = t.keysOf tenantID
  principals : ∀ key ∈ t.keysOf tenantID, ∀ budgets,
    t'.toPrincipal budgets key.columns tenantID = t.toPrincipal budgets key.columns tenantID
  aliases : t'.loadAliases (some tenantID) = t.loadAliases (some tenantID)
  policy : t'.loadPolicy (some tenantID) = t.loadPolicy (some tenantID)
  prefixes : t'.prefixesOf tenantID = t.prefixesOf tenantID
  plugins : t'.pluginsOf (some tenantID) = t.pluginsOf (some tenantID)

theorem SameTenant.loadTenant {tenantID : Str} (h : SameTenant t t' tenantID)
    : t'.loadTenant tenantID = t.loadTenant tenantID := by
  unfold Tables.loadTenant
  rw [h.tenant]
  cases hget : Table.get TenantRow.id t.tenants tenantID with
  | none => rfl
  | some row =>
    have hid := (Table.get_eq_some TenantRow.id hget).2
    dsimp only
    rw [hid, h.budgets, h.keys, h.aliases, h.policy, h.prefixes, h.plugins]
    apply bind_congr
    intro budgets
    rw [List.mapM_congr_left fun key hkey => h.principals key hkey budgets]

theorem SameTenant.tenantLayer {tenantID : Str} (h : SameTenant t t' tenantID)
    (hcomponents : t'.components = t.components)
    : t'.tenantLayer rt now tenantID = t.tenantLayer rt now tenantID := by
  have hregistry : t'.loadRegistry rt = t.loadRegistry rt := by
    unfold loadRegistry
    rw [hcomponents]
  unfold Tables.tenantLayer
  rw [hregistry, h.loadTenant]

end Tables

end ModelGateway.Control
