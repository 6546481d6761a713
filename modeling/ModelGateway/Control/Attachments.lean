import ModelGateway.Control.RegistryRuns
import ModelGateway.Control.Serving

namespace ModelGateway.Control

open Tables
open List hiding format

open Keys (ApiKey)
open Signing (TrustStore)
open Wire

def References (msg : SnapshotMsg) (key : ApiKey) (budget : BudgetRow) : Prop :=
  ∃ layer ∈ msg.tenants, layer.tenant = key.columns.tenantID ∧
    ∃ p ∈ layer.principals, p.keyID = key.columns.id ∧ ∃ ref ∈ p.budgets, ref.id = budget.id

def Enforced (snap : Snapshot) (key : ApiKey) (budget : BudgetRow) : Prop :=
  ∃ p, snap.principal key.columns.tenantID key.lookup = some p ∧
    (∃ ref ∈ p.budgets, ref.id = budget.id) ∧
    ((decodeBudget budget.msg).denies = true → (snap.deniedBudget p).isSome = true)

namespace Tables

variable {t : Tables}

def Attached (t : Tables) (key : ApiKey) (budget : BudgetRow) : Prop :=
  (key.columns.id, budget.id) ∈ t.keyBudgets

instance (key : ApiKey) (budget : BudgetRow) : Decidable (t.Attached key budget) :=
  inferInstanceAs (Decidable (_ ∈ _))

@[simp]
theorem mem_granted {grants : List (Str × Str)} {keyID s : Str}
    : s ∈ granted grants keyID ↔ (keyID, s) ∈ grants := by
  unfold granted
  rw [mem_mergeSort, mem_map]
  constructor
  . rintro ⟨⟨_, s'⟩, hmem, rfl⟩
    rw [mem_filter, decide_eq_true_eq] at hmem
    rcases hmem with ⟨hmem, rfl⟩
    exact hmem
  . intro hmem
    exact ⟨(keyID, s), mem_filter.mpr ⟨hmem, by simp⟩, rfl⟩

variable {tenantID : Str}

theorem mem_principalMsg_budgets (hsound : t.Sound) {row : ApiKey} {id : Str}
    : (∃ ref ∈ (t.principalMsg ((t.budgetsOf tenantID).map BudgetRow.budget) row tenantID).budgets,
        ref.id = id)
        ↔
      (row.columns.id, id) ∈ t.keyBudgets ∧ ∃ b ∈ t.budgetsOf tenantID, b.id = id := by
  have hunique : Table.Unique Budget.id ((t.budgetsOf tenantID).map BudgetRow.budget) := by
    unfold Table.Unique
    rw [map_map]
    exact unique_budgetsOf hsound tenantID
  have hrefs : ∀ ref, ref ∈ t.budgetRefs ((t.budgetsOf tenantID).map BudgetRow.budget) row.columns.id
      ↔ (row.columns.id, ref.id) ∈ t.keyBudgets ∧
        ∃ b ∈ t.budgetsOf tenantID, b.id = ref.id ∧ b.scope = ref.scope := by
    intro ref
    unfold budgetRefs
    rw [mem_filterMap]
    simp only [mem_granted, Option.map_eq_some_iff, Table.get_eq_some_iff Budget.id hunique,
      mem_map]
    constructor
    . rintro ⟨id, hattached, _, ⟨⟨b, hb, rfl⟩, rfl⟩, rfl⟩
      exact ⟨hattached, b, hb, rfl, rfl⟩
    . rintro ⟨hattached, b, hb, hid, hscope⟩
      refine ⟨ref.id, hattached, b.budget, ⟨⟨b, hb, rfl⟩, hid⟩, ?_⟩
      change BudgetRef.mk ref.id b.scope = ref
      rw [hscope]
  unfold principalMsg
  simp only [mem_map]
  constructor
  . rintro ⟨_, ⟨ref, href, rfl⟩, rfl⟩
    rcases (hrefs ref).mp href with ⟨hattached, b, hb, hid, _⟩
    exact ⟨hattached, b, hb, hid⟩
  . rintro ⟨hattached, b, hb, rfl⟩
    exact ⟨_, ⟨⟨b.id, b.scope⟩, (hrefs _).mpr ⟨hattached, b, hb, rfl, rfl⟩, rfl⟩, rfl⟩

theorem mem_principalAt_budgets (hsound : t.Sound) {row : ApiKey} {id : Str}
    : (∃ ref ∈ (t.principalAt row tenantID).budgets, ref.id = id)
        ↔
      (row.columns.id, id) ∈ t.keyBudgets ∧ ∃ b ∈ t.budgetsOf tenantID, b.id = id := by
  rw [← mem_principalMsg_budgets hsound]
  unfold principalAt decodePrincipal
  simp only [mem_map, exists_exists_and_eq_and]

variable {budget : BudgetRow}

theorem owner_iff (hsound : t.Sound) (hbudget : budget ∈ t.budgets)
    : (∃ b ∈ t.budgetsOf tenantID, b.id = budget.id) ↔ budget.tenantID = tenantID := by
  constructor
  . rintro ⟨b, hb, hid⟩
    rw [mem_budgetsOf] at hb
    rw [← hsound.budgets.1.eq_of_mem BudgetRow.id hb.1 hbudget hid]
    exact hb.2
  . intro howner
    exact ⟨budget, mem_budgetsOf.mpr ⟨hbudget, howner⟩, rfl⟩

variable {key : ApiKey}

theorem references_iff {f : Format} {rt : Runtime} {trust : Option TrustStore} (hsound : t.Sound)
    {now : Int} (hnow : IsDatetime now) {msg : SnapshotMsg} (hbuild : t.build rt f now trust = .ok msg)
    (hkey : key ∈ t.apiKeys) (hlive : key.columns.revokedAt = none) (hbudget : budget ∈ t.budgets)
    (hattached : t.Attached key budget)
    : References msg key budget ↔ budget.tenantID = key.columns.tenantID := by
  rcases build_eq_ok hsound hnow hbuild with ⟨_, layers, rfl, _, _, hlayers⟩
  have hlayer : ∀ m ∈ layers, m.tenant = key.columns.tenantID → m.principals
      = (t.keysOf key.columns.tenantID).map fun key' => t.principalMsg
          ((t.budgetsOf key.columns.tenantID).map BudgetRow.budget) key' key.columns.tenantID := by
    intro m hm htenant
    rcases hlayers.exists_of_mem_right hm with ⟨row, _, hencodes⟩
    have hid : row.id = key.columns.tenantID := hencodes.tenant.symm.trans htenant
    rw [hencodes.principals, hid]
  rw [← owner_iff hsound hbudget]
  unfold References sealSnapshot
  simp only [mem_map, exists_exists_and_eq_and]
  constructor
  . rintro ⟨m, hm, htenant, p, hp, hkeyID, href⟩
    change p ∈ m.principals at hp
    rw [hlayer m hm htenant] at hp
    rcases mem_map.mp hp with ⟨key', _, rfl⟩
    exact ((mem_principalMsg_budgets hsound).mp href).2
  . intro howned
    rcases mem_map.mp (hsound.apiKeys.2 key hkey).2.1 with ⟨row, hrow, hid⟩
    rcases hlayers.exists_of_mem_left hrow with ⟨m, hm, hencodes⟩
    have htenant : m.tenant = key.columns.tenantID := hencodes.tenant.trans hid
    refine ⟨m, hm, htenant, _, ?_, rfl, (mem_principalMsg_budgets hsound).mpr ⟨hattached, howned⟩⟩
    change _ ∈ m.principals
    rw [hlayer m hm htenant]
    exact mem_map_of_mem (mem_keysOf.mpr ⟨hkey, rfl, hlive⟩)

variable {f : Format} {snap : Snapshot}

theorem Serves.principal (hserves : t.Serves f snap) (hsound : t.Sound) (hkey : key ∈ t.apiKeys)
    (hlive : key.columns.revokedAt = none)
    : snap.principal key.columns.tenantID key.lookup = some (t.principalAt key key.columns.tenantID) := by
  rcases mem_map.mp (hsound.apiKeys.2 key hkey).2.1 with ⟨row, hrow, hid⟩
  rcases hserves.tenants row hrow with ⟨_, hlayer, hserved⟩
  rw [← hid]
  have hmem : key ∈ t.keysOf row.id := mem_keysOf.mpr ⟨hkey, hid.symm, hlive⟩
  unfold Snapshot.principal
  rw [hlayer]
  dsimp only
  rw [(hserved.keys _ _).mpr ⟨key, hmem, rfl, rfl⟩]
  exact (hserved.principals _ _).mpr ⟨key, hmem, rfl, rfl⟩

theorem enforced_iff (hserves : t.Serves f snap) (hsound : t.Sound) (hkey : key ∈ t.apiKeys)
    (hlive : key.columns.revokedAt = none) (hbudget : budget ∈ t.budgets)
    (hattached : t.Attached key budget)
    : Enforced snap key budget ↔ budget.tenantID = key.columns.tenantID := by
  have hprincipal := hserves.principal hsound hkey hlive
  constructor
  . rintro ⟨p, hp, href, _⟩
    rw [hprincipal, Option.some.injEq] at hp
    subst hp
    exact (owner_iff hsound hbudget).mp ((mem_principalAt_budgets hsound).mp href).2
  . intro howner
    have hmem : budget ∈ t.budgetsOf key.columns.tenantID := mem_budgetsOf.mpr ⟨hbudget, howner⟩
    have href := (mem_principalAt_budgets hsound).mpr ⟨hattached, budget, hmem, rfl⟩
    refine ⟨_, hprincipal, href, ?_⟩
    intro hdenies
    rcases href with ⟨ref, href, hid⟩
    rcases mem_map.mp (hsound.apiKeys.2 key hkey).2.1 with ⟨row, hrow, hrowid⟩
    rcases hserves.tenants row hrow with ⟨_, hlayer, hserved⟩
    have hstate : snap.budget key.columns.tenantID ref.id = some (decodeBudget budget.msg) := by
      unfold Snapshot.budget
      rw [← hrowid, hlayer]
      apply (hserved.budgets _ _).mpr
      exact ⟨budget, by rw [hrowid]; exact hmem, hid.symm, rfl⟩
    unfold Snapshot.deniedBudget
    rw [findSome?_isSome_iff]
    refine ⟨ref, href, ?_⟩
    generalize hfound : snap.budget _ ref.id = found
    have hsome : found = some (decodeBudget budget.msg) := hfound.symm.trans hstate
    simp [hsome, hdenies]

end Tables

theorem attachments_enforced_iff (s : Store) (f : Format) (rt : Runtime) (trust : Option TrustStore)
    {now : Int} (hnow : IsDatetime now) {msg : SnapshotMsg} (hbuild : s.val.build rt f now trust = .ok msg)
    : (∀ key ∈ s.val.apiKeys, key.columns.revokedAt = none →
        ∀ budget ∈ s.val.budgets, s.val.Attached key budget → References msg key budget ∧
          ∀ snap digest, decodeAndVerify f (f.snapshot.marshal msg) = .ok (snap, digest) →
            Enforced snap key budget) ↔ ∀ key ∈ s.val.apiKeys, key.columns.revokedAt = none →
        ∀ budget ∈ s.val.budgets, s.val.Attached key budget →
          budget.tenantID = key.columns.tenantID := by
  constructor
  . intro h key hkey hlive budget hbudget hattached
    exact (references_iff s.property hnow hbuild hkey hlive hbudget hattached).mp
      (h key hkey hlive budget hbudget hattached).1
  . intro h key hkey hlive budget hbudget hattached
    have howner := h key hkey hlive budget hbudget hattached
    refine ⟨(references_iff s.property hnow hbuild hkey hlive hbudget hattached).mpr howner, ?_⟩
    intro snap digest hdecode
    have hserves := Tables.serves s.property hnow hbuild hdecode
    exact (enforced_iff hserves s.property hkey hlive hbudget hattached).mpr howner

namespace Sample

def tenantRow (id : Str) : TenantRow where
  id := id
  tier := []
  minTrustTier := 0
  version := ⟨1, Nat.one_pos⟩

def keyColumns : Keys.KeyColumns where
  id := str "k1"
  tenantID := str "acme"
  applicationID := none
  userID := none
  modelsAllowAll := true
  defaultDataClass := []
  minTrustTier := 0
  requestsPerMinute := 0
  tokensPerMinute := 0
  maxConcurrent := 0
  deprecated := false
  notAfter := none
  revokedAt := none

def apiKey : ApiKey where
  columns := keyColumns
  lookup := replicate 32 0

def spentBudget (tenantID : Str) : BudgetRow where
  id := str "cap"
  tenantID := tenantID
  scope := .key
  limitMicroUSD := 10
  spentMicroUSD := 10
  hard := true
  headroomBasisPoints := 0

def attachedTables (owner : Str) : Tables :=
  { Tables.initialised ⟨1, []⟩ with
    tenants := [tenantRow (str "acme"), tenantRow (str "globex")]
    keyPrefixes := [(str "acme", str "acme"), (str "globex", str "globex")]
    apiKeys := [apiKey]
    keyBudgets := [(str "k1", str "cap")]
    budgets := [spentBudget owner] }

theorem attachedTables_plain (owner : Str) : (attachedTables owner).Plain :=
  ⟨rfl, rfl, rfl, rfl⟩

def attachedStore : Store :=
  ⟨attachedTables (str "acme"), by decide +kernel⟩

def misattachedStore : Store :=
  ⟨attachedTables (str "globex"), by decide +kernel⟩

end Sample

open Wire.Sample (format)

open Sample

theorem attachments_enforced_own
    : ∃ msg snap digest, attachedStore.val.build runtime format 0 none = .ok msg ∧
        decodeAndVerify format (format.snapshot.marshal msg) = .ok (snap, digest) ∧
        Enforced snap apiKey (spentBudget (str "acme")) := by
  have hplain := attachedTables_plain (str "acme")
  rcases hplain.accepted attachedStore.property (by decide +kernel)
    (show IsDatetime 0 by decide) with ⟨msg, snap, digest, hbuild, hdecode⟩
  refine ⟨msg, snap, digest, hbuild, hdecode, ?_⟩
  have henforced := (attachments_enforced_iff attachedStore format _ none (by decide) hbuild).mpr
    (by decide)
  exact (henforced apiKey (by decide) rfl _ (by decide) (by decide)).2 snap digest hdecode

theorem foreign_attachment_dropped
    : ∃ msg snap digest, misattachedStore.val.build runtime format 0 none = .ok msg ∧
        decodeAndVerify format (format.snapshot.marshal msg) = .ok (snap, digest) ∧
        misattachedStore.val.Attached apiKey (spentBudget (str "globex")) ∧
        (decodeBudget (spentBudget (str "globex")).msg).denies = true ∧
        ¬ References msg apiKey (spentBudget (str "globex")) ∧
        ∃ p, snap.principal apiKey.columns.tenantID apiKey.lookup = some p ∧
          p.budgets = [] ∧ snap.deniedBudget p = none := by
  have hplain := attachedTables_plain (str "globex")
  have hsound := misattachedStore.property
  rcases hplain.accepted hsound (by decide +kernel) (show IsDatetime 0 by decide)
    with ⟨msg, snap, digest, hbuild, hdecode⟩
  refine ⟨msg, snap, digest, hbuild, hdecode, by decide, by decide, ?_, ?_⟩
  . rw [references_iff hsound (by decide) hbuild
      (show apiKey ∈ misattachedStore.val.apiKeys by decide) rfl
      (show spentBudget (str "globex") ∈ misattachedStore.val.budgets by decide) (by decide)]
    decide
  . have hserves := Tables.serves hsound (by decide) hbuild hdecode
    have hnone : (misattachedStore.val.principalAt apiKey (str "acme")).budgets = [] := by
      rw [eq_nil_iff_forall_not_mem]
      intro ref href
      have howned := ((mem_principalAt_budgets hsound).mp ⟨ref, href, rfl⟩).2
      have hempty : misattachedStore.val.budgetsOf (str "acme") = [] := by decide
      rw [hempty] at howned
      simp at howned
    refine ⟨_, hserves.principal hsound (by decide) rfl, hnone, ?_⟩
    unfold Snapshot.deniedBudget
    rw [show apiKey.columns.tenantID = str "acme" from rfl, hnone]
    rfl

end ModelGateway.Control
