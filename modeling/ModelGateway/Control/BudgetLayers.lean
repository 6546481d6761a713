import ModelGateway.Control.Attachments
import ModelGateway.Control.Layers

namespace ModelGateway.Control

open List Tables

open Keys (Settings)
open TextColumn (Fits varchar)
open Wire

def BudgetSpec.Present (spec : BudgetSpec) (m : TenantLayerMsg) : Prop :=
  ∃ b ∈ m.budgets, b.id = spec.id ∧ b.limitMicroUSD = spec.limitMicroUSD ∧
    b.scope = encodeBudgetScope spec.scope ∧ b.hard = spec.hard ∧
    (b.headroomBasisPoints : Int) = spec.headroomBasisPoints

namespace Tables

variable (t t' : Tables) (rt : Runtime) (now : Int)

def KeepsOthers (tenantID : Str) : Prop :=
  (∀ row, row.tenantID ≠ tenantID → (row ∈ t'.budgets ↔ row ∈ t.budgets)) ∧
    ∀ id, id ≠ tenantID → t'.tenantLayer rt now id = t.tenantLayer rt now id

def withoutBudget (budgetID : Str) : Tables :=
  { t with
    budgets := t.budgets.filter fun row => row.id ≠ budgetID
    keyBudgets := t.keyBudgets.filter fun g => g.2 ≠ budgetID }

structure Placeable (spec : BudgetSpec) : Prop where
  id_ne : spec.id ≠ []
  id_fits : Fits 64 spec.id
  scope_ne : spec.scope ≠ .unset
  headroom : 0 ≤ spec.headroomBasisPoints ∧ spec.headroomBasisPoints ≤ 10000
  owned : ∀ row ∈ t.budgets, row.id = spec.id → row.tenantID = spec.tenantID ∧ 0 ≤ row.spentMicroUSD
  layer : ∃ m, (t.withoutBudget spec.id).tenantLayer rt now spec.tenantID = .ok m

variable {t t' rt now} {spec : BudgetSpec}

theorem withoutBudget_sound (hsound : t.Sound) (budgetID : Str) : (t.withoutBudget budgetID).Sound := by
  have hgrants : Table.Holds id (GrantStored t.keyIDs
      (· ∈ (t.budgets.filter fun row => row.id ≠ budgetID).map (·.id)))
      (t.keyBudgets.filter fun g => g.2 ≠ budgetID) := by
    refine ⟨hsound.keyBudgets.1.sublist ((filter_sublist).map _), ?_⟩
    intro g hg
    rw [mem_filter, decide_eq_true_eq] at hg
    rcases hsound.keyBudgets.2 g hg.1 with ⟨hkey, hbudget⟩
    rcases mem_map.mp hbudget with ⟨row, hrow, heq⟩
    refine ⟨hkey, mem_map.mpr ⟨row, mem_filter.mpr ⟨hrow, ?_⟩, heq⟩⟩
    rw [decide_eq_true_eq, heq]
    exact hg.2
  refine ⟨⟨hsound.fleetState, hsound.tenants, hsound.keyPrefixes, hsound.orgs, hsound.teams, hsound.users,
    hsound.applications⟩, ⟨hsound.apiKeys, hsound.lookups, hsound.keyRoles, hsound.keyModels, hgrants⟩,
    ⟨⟨?_, ?_⟩, hsound.deployments, hsound.aliasNames, hsound.aliases, hsound.bindingPorts,
      hsound.pluginBindings, hsound.ruleIDs, hsound.policyRules, hsound.finetuneJobs, hsound.usageRecords⟩⟩
  . exact hsound.budgets.1.sublist ((filter_sublist).map _)
  . intro row hrow
    exact hsound.budgets.2 row (mem_filter.mp hrow).1

variable {budgets : List BudgetRow}

theorem tenantLoads_iff {tenants : List TenantRow} {written : BudgetRow}
    (hwritten : Written t { t with budgets := budgets, tenants := tenants } spec written)
    {row : TenantRow} {version : ℕ+}
    : Tables.TenantLoads { t with budgets := budgets, tenants := tenants } { row with version := version }
        ↔
      (t.withoutBudget spec.id).TenantLoads row ∧ (written.tenantID = row.id → written.Loads) := by
  have hbudgets : (∀ b ∈ Tables.budgetsOf { t with budgets := budgets, tenants := tenants } row.id, b.Loads)
      ↔ (∀ b ∈ (t.withoutBudget spec.id).budgetsOf row.id, b.Loads) ∧
        (written.tenantID = row.id → written.Loads) := by
    simp only [mem_budgetsOf, hwritten.mem]
    unfold withoutBudget
    simp only [mem_filter, decide_eq_true_eq]
    constructor
    . intro h
      refine ⟨fun b hb => h b ⟨.inl hb.1, hb.2⟩, fun howner => h written ⟨.inr rfl, howner⟩⟩
    . rintro ⟨hothers, hmine⟩ b ⟨hb | rfl, howner⟩
      . exact hothers b ⟨hb, howner⟩
      . exact hmine howner
  constructor
  . intro h
    have hsplit := hbudgets.mp h.budgets
    exact ⟨⟨h.id_ne, h.prefixes_ne, h.minTrustTier, hsplit.1, h.keys, h.aliases, h.policy⟩, hsplit.2⟩
  . rintro ⟨h, hmine⟩
    exact ⟨h.id_ne, h.prefixes_ne, h.minTrustTier, hbudgets.mpr ⟨h.budgets, hmine⟩, h.keys, h.aliases,
      h.policy⟩

theorem budgetsOf_other (hsound : t.Sound) (hwrite : t.writeBudget spec = .ok budgets)
    (htenant : spec.tenantID ∈ t.tenantIDs)
    (howned : ∀ row ∈ t.budgets, row.id = spec.id → row.tenantID = spec.tenantID) {tenantID : Str}
    (hne : tenantID ≠ spec.tenantID)
    : (budgets.filter fun row => row.tenantID = tenantID) = t.budgetsOf tenantID := by
  unfold budgetsOf
  rcases writeBudget_eq_ok hwrite with ⟨_, row, hrow, rfl⟩ | ⟨_, rfl⟩
  . have howner := (row_eq_some hrow).2.1
    have hfits := fits_tenantID hsound htenant
    rw [hfits, Option.some.injEq] at howner
    rw [filter_append, filter_singleton, ← howner, decide_eq_false hne.symm, cond_false, append_nil]
  . apply Table.filter_update
    intro row hrow hid
    have howner := howned row hrow hid
    have hne' : row.tenantID ≠ tenantID := by
      rw [howner]
      exact hne.symm
    exact ⟨decide_eq_false hne', decide_eq_false hne'⟩

theorem get_bump_ne {tenantID id : Str} (hne : id ≠ tenantID)
    : Table.get TenantRow.id (t.bump tenantID) id = Table.get TenantRow.id t.tenants id := by
  unfold bump
  rw [Table.get_update, if_neg hne]
  intro row _
  rfl

theorem mem_bump {row : TenantRow} (hrow : row ∈ t.tenants)
    : { row with version := row.version + 1 } ∈ t.bump row.id := by
  unfold bump
  rw [Table.mem_update_iff]
  exact .inr ⟨row, hrow, rfl, rfl⟩

theorem keepsOthers (hsound : t.Sound) (hwrite : t.writeBudget spec = .ok budgets)
    (htenant : spec.tenantID ∈ t.tenantIDs) {written : BudgetRow}
    (hwritten : Written t { t with budgets := budgets, tenants := t.bump spec.tenantID } spec written)
    (howned : ∀ row ∈ t.budgets, row.id = spec.id → row.tenantID = spec.tenantID)
    : t.KeepsOthers { t with budgets := budgets, tenants := t.bump spec.tenantID } rt now spec.tenantID := by
  have howner : written.tenantID = spec.tenantID := by
    rcases hwritten.origin with ⟨_, howner, _⟩ | ⟨old, hold, hid, rfl⟩
    . exact howner
    . exact howned old hold hid
  constructor
  . intro row hne
    rw [hwritten.mem]
    constructor
    . rintro (h | rfl)
      . exact h.1
      . exact absurd howner hne
    . intro hrow
      exact .inl ⟨hrow, fun hid => hne (howned row hrow hid)⟩
  . intro id hne
    have hsame : SameTenant t { t with budgets := budgets, tenants := t.bump spec.tenantID } id :=
      ⟨get_bump_ne hne, budgetsOf_other hsound hwrite htenant howned hne, rfl, fun _ _ _ => rfl, rfl, rfl,
        rfl, rfl⟩
    exact hsame.tenantLayer rfl

section

variable {written : BudgetRow} (hwritten : Written t t' spec written)

include hwritten

theorem Written.fields : written.scope = spec.scope ∧ written.limitMicroUSD = spec.limitMicroUSD ∧
    written.hard = spec.hard ∧ written.headroomBasisPoints = spec.headroomBasisPoints := by
  have hvalues := hwritten.values
  exact ⟨congrArg BudgetRow.scope hvalues.symm, congrArg BudgetRow.limitMicroUSD hvalues.symm,
    congrArg BudgetRow.hard hvalues.symm, congrArg BudgetRow.headroomBasisPoints hvalues.symm⟩

theorem Written.of_present {row : TenantRow} {m : TenantLayerMsg} (hencodes : t'.Encodes row now m)
    (hpresent : spec.Present m)
    : written.tenantID = row.id ∧ written.id = spec.id := by
  rcases hpresent with ⟨b, hb, hid, _⟩
  rw [hencodes.budgets] at hb
  rcases mem_map.mp hb with ⟨b', hb', rfl⟩
  rw [mem_budgetsOf, hwritten.mem] at hb'
  rcases hb' with ⟨⟨_, hne⟩ | rfl, howner⟩
  . exact absurd hid hne
  . exact ⟨howner, hid⟩

theorem Written.present {row : TenantRow} {m : TenantLayerMsg} (hencodes : t'.Encodes row now m)
    (howner : written.tenantID = row.id) (hid : written.id = spec.id) (hloads : written.Loads)
    : spec.Present m := by
  rcases hwritten.fields with ⟨hscope, hlimit, hhard, hheadroom⟩
  refine ⟨written.msg, ?_, hid, hlimit, congrArg encodeBudgetScope hscope, hhard, ?_⟩
  . rw [hencodes.budgets]
    apply mem_map_of_mem
    rw [mem_budgetsOf, hwritten.mem]
    exact ⟨.inr rfl, howner⟩
  . rw [← hheadroom]
    exact Int.toNat_of_nonneg hloads.headroom.1

theorem Written.loads (hlimit : 0 ≤ spec.limitMicroUSD) (hplace : t.Placeable rt now spec)
    : written.tenantID = spec.tenantID ∧ written.id = spec.id ∧ written.Loads := by
  rcases hwritten.fields with ⟨hscope, hlimit', _, hheadroom⟩
  have hid := hwritten.id
  rw [hplace.id_fits, Option.some.injEq] at hid
  have horigin : written.tenantID = spec.tenantID ∧ 0 ≤ written.spentMicroUSD := by
    rcases hwritten.origin with ⟨_, howner, hspent⟩ | ⟨old, hold, holdid, rfl⟩
    . exact ⟨howner, hspent.ge⟩
    . exact hplace.owned old hold holdid
  refine ⟨horigin.1, hid.symm, ?_, ?_, ?_, horigin.2, ?_⟩
  . rw [← hid]
    exact hplace.id_ne
  . rw [hscope]
    exact hplace.scope_ne
  . rw [hlimit']
    exact hlimit
  . rw [hheadroom]
    exact hplace.headroom

theorem Written.placeable (hsound : t.Sound) (howner : written.tenantID = spec.tenantID)
    (hid : written.id = spec.id) (hloads : written.Loads)
    (hlayer : ∃ m, (t.withoutBudget spec.id).tenantLayer rt now spec.tenantID = .ok m)
    : t.Placeable rt now spec := by
  rcases hwritten.fields with ⟨hscope, _, _, hheadroom⟩
  refine ⟨?_, ?_, ?_, ?_, ?_, hlayer⟩
  . rw [← hid]
    exact hloads.id_ne
  . unfold Fits
    rw [hwritten.id, hid]
  . rw [← hscope]
    exact hloads.scope_ne
  . rw [← hheadroom]
    exact hloads.headroom
  . intro row hrow hrowid
    rcases hwritten.origin with ⟨hnew, _⟩ | ⟨old, hold, holdid, rfl⟩
    . exact absurd (hrowid ▸ mem_map_of_mem hrow) hnew
    . rw [hsound.budgets.1.eq_of_mem BudgetRow.id hrow hold (hrowid.trans holdid.symm)]
      exact ⟨howner, hloads.spent⟩

end

end Tables

theorem ensureBudget_frame_iff (settings : Settings) (rt : Runtime) {s s' : Store} {spec : BudgetSpec}
    (h : s.step settings (.ensureBudget spec) = .ok s') {now : Int} (hnow : IsDatetime now)
    : (s.val.KeepsOthers s'.val rt now spec.tenantID ∧
        ∃ m, s'.val.tenantLayer rt now spec.tenantID = .ok m ∧ spec.Present m)
        ↔
      s.val.Placeable rt now spec := by
  have hsound := s.property
  have hsound' := s'.property
  rw [Store.step_eq_ok_iff] at h
  rcases exists_written hsound h with ⟨_, hwritten⟩
  rcases ensureBudget_eq_ok h with ⟨hlimit, htenant, _, hwrite, hresult⟩
  rw [hresult] at hsound' hwritten ⊢
  rcases mem_map.mp htenant with ⟨row, hrow, hid⟩
  have hmem := mem_bump hrow
  rw [hid] at hmem
  have hlayer := fun m => @tenantLayer_eq_ok_iff _ rt now _ hsound' hnow hmem m
  have hisOk := @tenantLayer_isOk_iff _ rt now _ hsound' hnow hmem
  have hwithout := @tenantLayer_isOk_iff _ rt now _ (withoutBudget_sound hsound spec.id) hnow hrow
  have hloads := @tenantLoads_iff _ _ _ _ _ hwritten row (row.version + 1)
  rw [hid] at hwithout hloads
  constructor
  . rintro ⟨_, m, hm, hpresent⟩
    rcases (hlayer m).mp hm with ⟨_, _, hencodes⟩
    rcases hisOk.mp ⟨m, hm⟩ with ⟨hregistry, htenantLoads, honWire⟩
    rcases hwritten.of_present hencodes hpresent with ⟨howner, hwid⟩
    rcases hloads.mp htenantLoads with ⟨hothers, hmine⟩
    apply hwritten.placeable hsound howner hwid (hmine howner)
    exact hwithout.mpr ⟨hregistry, hothers, honWire⟩
  . intro hplace
    rcases hwritten.loads hlimit hplace with ⟨howner, hwid, hwloads⟩
    refine ⟨Tables.keepsOthers hsound hwrite htenant hwritten fun r hr hrid => (hplace.owned r hr hrid).1, ?_⟩
    rcases hwithout.mp hplace.layer with ⟨hregistry, hothers, honWire⟩
    rcases hisOk.mpr ⟨hregistry, hloads.mpr ⟨hothers, fun _ => hwloads⟩, honWire⟩ with ⟨m, hm⟩
    rcases (hlayer m).mp hm with ⟨_, _, hencodes⟩
    exact ⟨m, hm, hwritten.present hencodes howner hwid hwloads⟩

namespace Sample

def capSpec : BudgetSpec where
  id := str "cap"
  tenantID := str "acme"
  limitMicroUSD := 5
  scope := .key
  hard := false
  headroomBasisPoints := 0

def recapped (owner : Str) : Tables :=
  { attachedTables owner with
    tenants := (attachedTables owner).bump (str "acme")
    budgets := [capSpec.write (spentBudget owner)] }

def recappedStore : Store :=
  ⟨recapped (str "acme"), by decide +kernel⟩

def misrecappedStore : Store :=
  ⟨recapped (str "globex"), by decide +kernel⟩

theorem step_recapped : attachedStore.step Keys.Sample.settings (.ensureBudget capSpec) = .ok recappedStore := by
  rfl

theorem step_misrecapped
    : misattachedStore.step Keys.Sample.settings (.ensureBudget capSpec) = .ok misrecappedStore := by
  rfl

end Sample

open Sample

theorem ensureBudget_frame_own
    : attachedStore.step Keys.Sample.settings (.ensureBudget capSpec) = .ok recappedStore ∧
        attachedStore.val.KeepsOthers recappedStore.val runtime 0 (str "acme") ∧
        ∃ m, recappedStore.val.tenantLayer runtime 0 (str "acme") = .ok m ∧ capSpec.Present m := by
  have hsound := withoutBudget_sound attachedStore.property (str "cap")
  rcases @Tables.Plain.tenantLayer _ runtime 0 (tenantRow (str "acme")) ⟨rfl, rfl, rfl, rfl⟩ hsound
    (by decide +kernel) (by decide) mem_cons_self with ⟨m, hm, _⟩
  refine ⟨step_recapped, (ensureBudget_frame_iff _ _ step_recapped (by decide)).mpr ?_⟩
  exact ⟨by decide, by decide, by decide, by decide, by decide, m, hm⟩

theorem foreign_budget_overwritten
    : misattachedStore.step Keys.Sample.settings (.ensureBudget capSpec)
          = .ok misrecappedStore ∧
        spentBudget (str "globex") ∈ misattachedStore.val.budgets ∧
        spentBudget (str "globex") ∉ misrecappedStore.val.budgets ∧
        ∃ m, misrecappedStore.val.tenantLayer runtime 0 (str "acme") = .ok m ∧ m.budgets = [] := by
  have hrow := @mem_bump misattachedStore.val (tenantRow (str "acme")) mem_cons_self
  refine ⟨step_misrecapped, by decide, by decide, ?_⟩
  rcases @Tables.Plain.tenantLayer _ runtime 0 _ ⟨rfl, rfl, rfl, rfl⟩ misrecappedStore.property
    (by decide +kernel) (by decide) hrow with ⟨m, hm, hencodes⟩
  refine ⟨m, hm, ?_⟩
  rw [hencodes.budgets]
  rfl

end ModelGateway.Control
