import ModelGateway.Wire.TrustTiers

namespace ModelGateway.Wire

open List hiding format

variable (f : Format)

def TenantLayerMsg.wellFormed (t : TenantLayerMsg) : TenantLayerMsg :=
  { t with keys := t.keys.filter fun k => k.lookup.length = 32 }

@[simp]
theorem decodeTenant_wellFormed (t : TenantLayerMsg) : decodeTenant f t.wellFormed = decodeTenant f t := by
  have hkeys : decodeKeys (t.keys.filter fun k => k.lookup.length = 32) = decodeKeys t.keys := by
    unfold decodeKeys
    rw [foldl_filter]
    congr 1
    funext out k
    by_cases hlength : k.lookup.length = 32
    . simp [hlength]
    . simp [hlength]
  unfold decodeTenant TenantLayerMsg.wellFormed
  rw [hkeys]

theorem acceptable_wellFormed_iff (g : GlobalLayerMsg) (tenants : List TenantLayerMsg)
    : Acceptable f g (tenants.map TenantLayerMsg.wellFormed) ↔ Acceptable f g tenants := by
  have hids : (tenants.map TenantLayerMsg.wellFormed).map (·.tenant) = tenants.map (·.tenant) := by
    rw [map_map]
    rfl
  constructor
  . rintro ⟨hglobal, hlayers, hnodup, hrouted⟩
    simp only [forall_mem_map, decodeTenant_wellFormed] at hlayers hrouted
    exact ⟨hglobal, hlayers, hids ▸ hnodup, hrouted⟩
  . rintro ⟨hglobal, hlayers, hnodup, hrouted⟩
    refine ⟨hglobal, ?_, hids ▸ hnodup, ?_⟩
    . simp only [forall_mem_map, decodeTenant_wellFormed]
      exact hlayers
    . simp only [forall_mem_map]
      exact hrouted

theorem malformed_entries_rejected_iff (msg : SnapshotMsg)
    : (∀ s, decodeSnapshot f msg ≠ .ok s)
        ↔
      ∀ g, msg.globalLayer = some g → ¬ Acceptable f g (msg.tenants.map TenantLayerMsg.wellFormed) := by
  rw [decodeSnapshot_rejects_iff]
  simp only [acceptable_wellFormed_iff]

namespace Sample

def corrupted : TenantLayerMsg :=
  { newTenant with keys := [⟨str "short", str "k1"⟩] }

end Sample

open Sample

theorem malformed_entry_dropped
    : (∃ k ∈ corrupted.keys, k.lookup.length ≠ 32) ∧
        ∃ s, decodeSnapshot format ⟨some globalMsg, [corrupted]⟩ = .ok s := by
  refine ⟨⟨_, mem_singleton.mpr rfl, by decide⟩, ?_⟩
  rw [decodeSnapshot_isOk_iff, ← acceptable_wellFormed_iff]
  exact acceptable_newTenant format newTenant.policy

end ModelGateway.Wire
