import ModelGateway.Control.KeySecrecy
import ModelGateway.Control.Loading
import ModelGateway.Control.Provisioning

/-!
This module contains one specification for each operation of the store: when it succeeds, and which rows it
writes.
-/

namespace ModelGateway.Control

open List Except Table
open Option (some)

open FineTune (Failure)
open Keys (ApiKey IssueKeyRequest KeyColumns Mintable NewKey Secret Settings)
open TextColumn (Fits varchar)

section

@[simp]
theorem commit_eq_ok_iff {t : Tables} {s : Store} : commit t = .ok s ↔ s.val = t := by
  unfold commit
  split
  . constructor
    . intro h
      rw [← ok.inj h]
    . rintro rfl
      rfl
  . next h =>
    simp only [reduceCtorEq, false_iff]
    rintro rfl
    exact h s.property

@[simp]
theorem column_eq_ok_iff {α : Type} {o : Option α} {a : α} : column o = .ok a ↔ o = some a := by
  unfold column
  cases o with
  | none => simp
  | some b => simp

end

namespace Tables

variable {t t' : Tables}

section

theorem ensure_eq_ok {rows rows' : List (Str × Str)} {key parent : Str}
    (h : ensure rows key parent = .ok rows')
    : (key ∈ rows.map Prod.fst ∧ rows' = rows) ∨
      (key ∉ rows.map Prod.fst ∧ ∃ k p, varchar 64 key = some k ∧ varchar 64 parent = some p ∧
        rows' = rows ++ [(k, p)]) := by
  unfold ensure at h
  cases hget : Table.get Prod.fst rows key with
  | some row =>
    rw [hget] at h
    have hkey := (get_isSome_iff Prod.fst).mp (by rw [hget]; rfl)
    exact .inl ⟨hkey, (ok.inj h).symm⟩
  | none =>
    rw [hget] at h
    simp only [bind_eq_ok_iff, column_eq_ok_iff, pure, Except.pure, ok.injEq] at h
    rcases h with ⟨k, hk, p, hp, rfl⟩
    exact .inr ⟨(get_eq_none_iff Prod.fst).mp hget, k, p, hk, hp, rfl⟩

variable {tenantID tier : Str} {minTrustTier : Tier}

theorem writeTenant_eq_ok {rows : List TenantRow}
    (h : t.writeTenant tenantID tier minTrustTier = .ok rows)
    : ∃ stored, varchar 32 tier = some stored ∧
        ((tenantID ∉ t.tenantIDs ∧ ∃ id, varchar 64 tenantID = some id ∧
            rows = t.tenants ++ [⟨id, stored, minTrustTier.val, 1⟩]) ∨
          (tenantID ∈ t.tenantIDs ∧ rows = Table.update TenantRow.id t.tenants tenantID fun row =>
            ⟨row.id, stored, minTrustTier.val, row.version + 1⟩)) := by
  unfold writeTenant at h
  rw [bind_eq_ok_iff] at h
  rcases h with ⟨stored, hstored, h⟩
  rw [column_eq_ok_iff] at hstored
  refine ⟨stored, hstored, ?_⟩
  cases hget : Table.get TenantRow.id t.tenants tenantID with
  | none =>
    rw [hget] at h
    simp only [bind_eq_ok_iff, column_eq_ok_iff, pure, Except.pure, ok.injEq] at h
    rcases h with ⟨id, hid, rfl⟩
    exact .inl ⟨(get_eq_none_iff TenantRow.id).mp hget, id, hid, rfl⟩
  | some row =>
    rw [hget] at h
    have hmem := (get_isSome_iff TenantRow.id).mp (by rw [hget]; rfl)
    exact .inr ⟨hmem, (ok.inj h).symm⟩

theorem ensureTenant_eq_ok (h : t.ensureTenant tenantID tier minTrustTier = .ok t')
    : tenantID ≠ [] ∧ ∃ tenants keyPrefixes orgs teams applications,
        t.writeTenant tenantID tier minTrustTier = .ok tenants ∧
        ensure t.keyPrefixes tenantID tenantID = .ok keyPrefixes ∧
        ensure t.orgs (tenantID ++ str "-org") tenantID = .ok orgs ∧
        ensure t.teams (tenantID ++ str "-team") (tenantID ++ str "-org") = .ok teams ∧
        ensure t.applications (tenantID ++ str "-app") (tenantID ++ str "-team") = .ok applications ∧
        t' = { t with
          tenants := tenants
          keyPrefixes := keyPrefixes
          orgs := orgs
          teams := teams
          applications := applications } := by
  unfold ensureTenant at h
  simp only [ite_error_eq_ok_iff, bind_eq_ok_iff, pure, Except.pure, ok.injEq] at h
  rcases h with ⟨hne, tenants, htenants, keyPrefixes, hprefixes, orgs, horgs, teams, hteams, applications,
    happlications, rfl⟩
  exact ⟨hne, _, _, _, _, _, htenants, hprefixes, horgs, hteams, happlications, rfl⟩

theorem ensureTenant_fits_team (hsound : t.Sound)
    (h : t.ensureTenant tenantID tier minTrustTier = .ok t')
    : Fits 64 (tenantID ++ str "-team") := by
  rcases ensureTenant_eq_ok h with ⟨_, _, _, _, _, _, _, _, _, hteams, _, _⟩
  rcases ensure_eq_ok hteams with ⟨hmem, _⟩ | ⟨_, k, _, hk, _, _⟩
  . rcases mem_map.mp hmem with ⟨team, hteam, heq⟩
    rw [← heq]
    exact (hsound.teams.2 team hteam).1
  . rw [TextColumn.fits_iff hk]
    apply TextColumn.varchar_eq_self hk
    have hlast : (str "-team").getLast? = some 0x6d := by decide
    rw [getLast?_append, hlast, Option.some_or]
    decide

theorem ensureTenant_fits (hsound : t.Sound)
    (h : t.ensureTenant tenantID tier minTrustTier = .ok t')
    : Fits 64 tenantID :=
  TextColumn.fits_of_fits_append (ensureTenant_fits_team hsound h)

theorem mem_ensureTenant
    (hfits : Fits 64 tenantID) (h : t.ensureTenant tenantID tier minTrustTier = .ok t') {row : TenantRow}
    (hrow : row ∈ t'.tenants)
    : row ∈ t.tenants ∨ (row.id = tenantID ∧ row.minTrustTier = minTrustTier.val) := by
  rcases ensureTenant_eq_ok h with ⟨_, tenants, _, _, _, _, hwrite, _, _, _, _, rfl⟩
  rcases writeTenant_eq_ok hwrite with ⟨_, _, ⟨_, id, hid, rfl⟩ | ⟨_, rfl⟩⟩
  . rw [mem_append, mem_singleton] at hrow
    rcases hrow with hrow | rfl
    . exact .inl hrow
    . rw [hfits, some.injEq] at hid
      exact .inr ⟨hid.symm, rfl⟩
  . rw [mem_update_iff] at hrow
    rcases hrow with ⟨hrow, _⟩ | ⟨row', _, hid, rfl⟩
    . exact .inl hrow
    . exact .inr ⟨hid, rfl⟩

theorem mem_ensure {rows rows' : List (Str × Str)} {key parent : Str}
    (h : ensure rows key parent = .ok rows') (hkey : Fits 64 key) (hparent : Fits 64 parent)
    : (key ∈ rows.map Prod.fst ∧ rows' = rows) ∨
      (key ∉ rows.map Prod.fst ∧ rows' = rows ++ [(key, parent)]) := by
  rcases ensure_eq_ok h with hthere | ⟨hnew, k, p, hk, hp, rfl⟩
  . exact .inl hthere
  . rw [hkey, some.injEq] at hk
    rw [hparent, some.injEq] at hp
    rw [hk, hp]
    exact .inr ⟨hk ▸ hnew, rfl⟩

end

section

theorem ensureDeployment_eq_ok {spec : DeploymentSpec} (h : t.ensureDeployment spec = .ok t')
    : spec.postInit = .ok spec ∧ spec.capabilities = [] ∧ ∃ row, spec.row = some row ∧
        t' = { t with deployments := t.writeDeployment row spec.id } := by
  unfold ensureDeployment at h
  rw [bind_eq_ok_iff] at h
  rcases h with ⟨spec', hspec, h⟩
  have hpost := raised_eq_ok_iff.mp hspec
  have heq : spec' = spec := by
    unfold DeploymentSpec.postInit at hpost
    simp only [ite_error_eq_ok_iff, ok.injEq] at hpost
    exact hpost.2.2.2.2.symm
  subst heq
  rw [ite_error_eq_ok_iff] at h
  simp only [bind_eq_ok_iff, column_eq_ok_iff, pure, Except.pure, ok.injEq] at h
  rcases h with ⟨hcapabilities, row, hrow, rfl⟩
  exact ⟨hpost, Decidable.not_not.mp hcapabilities, row, hrow, rfl⟩

@[simp]
theorem mem_writeDeployment {row r : DeploymentRow} {id : Str}
    : r ∈ t.writeDeployment row id ↔ (r ∈ t.deployments ∧ r.id ≠ id) ∨ r = row := by
  unfold writeDeployment
  cases hget : Table.get DeploymentRow.id t.deployments id with
  | none =>
    have hfresh := (get_eq_none_iff DeploymentRow.id).mp hget
    rw [mem_append, mem_singleton]
    apply or_congr_left
    refine ⟨fun hr => ⟨hr, ?_⟩, And.left⟩
    rintro rfl
    exact hfresh (mem_map_of_mem hr)
  | some existing =>
    rcases get_eq_some DeploymentRow.id hget with ⟨hmem, hid⟩
    rw [mem_update_iff]
    apply or_congr_right
    constructor
    . rintro ⟨_, _, _, rfl⟩
      rfl
    . rintro rfl
      exact ⟨existing, hmem, hid, rfl⟩

theorem removeDeployment_eq_ok {id : Str} (h : t.removeDeployment id = .ok t')
    : t' = { t with deployments := t.deployments.filter fun row => row.id ≠ id } := by
  unfold removeDeployment at h
  cases hget : Table.get DeploymentRow.id t.deployments id with
  | none =>
    rw [hget] at h
    simp at h
  | some row =>
    rw [hget] at h
    exact (ok.inj h).symm

end

theorem ensureAlias_eq_ok {name : Str} {targets : List Str} {tenantID : Option Str}
    (h : t.ensureAlias name targets tenantID = .ok t')
    : targets ≠ [] ∧ ∃ stored targets' owner, varchar 255 name = some stored ∧
        targets.mapM (varchar 255) = some targets' ∧ tenantID.mapM (varchar 64) = some owner ∧
        t' = { t with
          aliases := (t.aliases.eraseP fun row => row.name = name ∧ row.tenantID = tenantID)
            ++ [⟨owner, stored, targets'.map fun target => ⟨target, []⟩⟩] } := by
  unfold ensureAlias at h
  simp only [ite_error_eq_ok_iff, bind_eq_ok_iff, column_eq_ok_iff, pure, Except.pure,
    ok.injEq] at h
  rcases h with ⟨hne, stored, hstored, targets', htargets, owner, howner, rfl⟩
  exact ⟨hne, stored, targets', owner, hstored, htargets, howner, rfl⟩

section

variable {spec : BudgetSpec}

theorem writeBudget_eq_ok {rows : List BudgetRow} (h : t.writeBudget spec = .ok rows)
    : (spec.id ∉ t.budgets.map (·.id) ∧ ∃ row, spec.row = some row ∧ rows = t.budgets ++ [row]) ∨
      (spec.id ∈ t.budgets.map (·.id) ∧ rows = Table.update BudgetRow.id t.budgets spec.id spec.write) := by
  unfold writeBudget at h
  cases hget : Table.get BudgetRow.id t.budgets spec.id with
  | none =>
    rw [hget] at h
    simp only [bind_eq_ok_iff, column_eq_ok_iff, pure, Except.pure, ok.injEq] at h
    rcases h with ⟨row, hrow, rfl⟩
    exact .inl ⟨(get_eq_none_iff BudgetRow.id).mp hget, row, hrow, rfl⟩
  | some row =>
    rw [hget] at h
    have hmem := (get_isSome_iff BudgetRow.id).mp (by rw [hget]; rfl)
    exact .inr ⟨hmem, (ok.inj h).symm⟩

theorem ensureBudget_eq_ok (h : t.ensureBudget spec = .ok t')
    : 0 ≤ spec.limitMicroUSD ∧ spec.tenantID ∈ t.tenantIDs ∧ ∃ budgets, t.writeBudget spec = .ok budgets ∧
        t' = { t with budgets := budgets, tenants := t.bump spec.tenantID } := by
  unfold ensureBudget at h
  rw [ite_error_eq_ok_iff, bind_eq_ok_iff, Int.not_lt] at h
  rcases h with ⟨hlimit, budgets, hbudgets, h⟩
  cases hget : Table.get TenantRow.id t.tenants spec.tenantID with
  | none =>
    rw [hget] at h
    simp at h
  | some row =>
    rw [hget] at h
    have hmem := (get_isSome_iff TenantRow.id).mp (by rw [hget]; rfl)
    exact ⟨hlimit, hmem, budgets, hbudgets, (ok.inj h).symm⟩

theorem row_eq_some {row : BudgetRow} (h : spec.row = some row)
    : varchar 64 spec.id = some row.id ∧ varchar 64 spec.tenantID = some row.tenantID ∧
        row.spentMicroUSD = 0 ∧ spec.write row = row := by
  unfold BudgetSpec.row at h
  simp only [Option.bind_eq_bind, Option.bind_eq_some_iff, pure, some.injEq] at h
  rcases h with ⟨id, hid, tenantID, htenant, rfl⟩
  exact ⟨hid, htenant, rfl, rfl⟩

structure Written (t t' : Tables) (spec : BudgetSpec) (written : BudgetRow) : Prop where
  mem : ∀ row, row ∈ t'.budgets ↔ (row ∈ t.budgets ∧ row.id ≠ spec.id) ∨ row = written
  id : varchar 64 spec.id = some written.id
  values : spec.write written = written
  origin : (spec.id ∉ t.budgets.map (·.id) ∧ written.tenantID = spec.tenantID ∧ written.spentMicroUSD = 0) ∨
    ∃ old ∈ t.budgets, old.id = spec.id ∧ written = spec.write old

theorem fits_tenantID (hsound : t.Sound) {tenantID : Str} (h : tenantID ∈ t.tenantIDs)
    : Fits 64 tenantID := by
  rcases mem_map.mp h with ⟨row, hrow, rfl⟩
  exact (hsound.tenants.2 row hrow).1

theorem exists_written (hsound : t.Sound) (h : t.ensureBudget spec = .ok t')
    : ∃ written, Written t t' spec written := by
  rcases ensureBudget_eq_ok h with ⟨_, htenant, budgets, hwrite, rfl⟩
  rcases writeBudget_eq_ok hwrite with ⟨hnew, row, hrow, rfl⟩ | ⟨hold, rfl⟩
  . rcases row_eq_some hrow with ⟨hid, howner, hspent, hvalues⟩
    have hfits := fits_tenantID hsound htenant
    rw [hfits, some.injEq] at howner
    refine ⟨row, ?_, hid, hvalues, .inl ⟨hnew, howner.symm, hspent⟩⟩
    intro r
    rw [mem_append, mem_singleton]
    apply or_congr_left
    refine ⟨fun hr => ⟨hr, ?_⟩, And.left⟩
    intro hid'
    exact hnew (hid' ▸ mem_map_of_mem hr)
  . rcases mem_map.mp hold with ⟨old, hmem, hid⟩
    have hfits := (hsound.budgets.2 old hmem).1
    rw [hid] at hfits
    refine ⟨spec.write old, ?_, ?_, rfl, .inr ⟨old, hmem, hid, rfl⟩⟩
    . intro r
      rw [mem_update_iff]
      apply or_congr_right
      constructor
      . rintro ⟨r', hr', hid', rfl⟩
        rw [hsound.budgets.1.eq_of_mem BudgetRow.id hr' hmem (hid'.trans hid.symm)]
      . rintro rfl
        exact ⟨old, hmem, hid, rfl⟩
    . change varchar 64 spec.id = some old.id
      rw [hid]
      exact hfits

end

section

theorem lookup_tenants (t : Tables) (id : Str)
    : t.keyDatabase.tenants.lookup id
        =
      (Table.get TenantRow.id t.tenants id).map fun row => (row.version : Int) := by
  unfold keyDatabase Table.get
  rw [AList.lookup_to_alist]
  induction t.tenants with
  | nil => rfl
  | cons row rows ih =>
    rw [map_cons, find?_cons]
    by_cases hid : row.id = id
    . subst hid
      simp
    . rw [dlookup_cons_ne _ _ (Ne.symm hid), ih]
      simp [hid]

theorem withKeys_eq {db : Keys.Database} {version : TenantRow → ℕ+}
    (h : ∀ row ∈ t.tenants, db.tenants.lookup row.id = some (version row : Int))
    : t.withKeys db = { t with
        tenants := t.tenants.map fun row => { row with version := version row }
        apiKeys := db.apiKeys
        keyRoles := db.keyRoles
        keyModels := db.keyModels
        keyBudgets := db.keyBudgets } := by
  unfold withKeys
  congr 1
  apply map_congr_left
  intro row hrow
  rw [h row hrow, Option.getD_some, Int.toNat_natCast, PNat.coe_toPNat']

variable (hunique : Table.Unique TenantRow.id t.tenants)

include hunique

theorem lookup_tenant {row : TenantRow} (hrow : row ∈ t.tenants)
    : t.keyDatabase.tenants.lookup row.id = some (row.version : Int) := by
  rw [lookup_tenants, (get_eq_some_iff TenantRow.id hunique).mpr ⟨hrow, rfl⟩]
  rfl

theorem withKeys_keyDatabase : t.withKeys t.keyDatabase = t := by
  rw [withKeys_eq fun row hrow => lookup_tenant hunique hrow, map_id']
  rfl

theorem withKeys_bump {db : Keys.Database} (hdb : db.tenants = t.keyDatabase.tenants) (tenantID : Str)
    : t.withKeys (db.bumpTenantVersion tenantID) = { t with
        tenants := t.bump tenantID
        apiKeys := db.apiKeys
        keyRoles := db.keyRoles
        keyModels := db.keyModels
        keyBudgets := db.keyBudgets } := by
  have hversion : ∀ row ∈ t.tenants, (db.bumpTenantVersion tenantID).tenants.lookup row.id
      = some (((if row.id = tenantID then row.version + 1 else row.version : ℕ+) : ℕ) : Int) := by
    intro row hrow
    have hrow' := lookup_tenant hunique hrow
    rw [← hdb] at hrow'
    unfold Keys.Database.bumpTenantVersion
    by_cases hid : row.id = tenantID
    . rw [if_pos hid, ← hid, hrow']
      rw [AList.lookup_insert, PNat.add_coe]
      rfl
    . rw [if_neg hid]
      cases db.tenants.lookup tenantID with
      | none => exact hrow'
      | some version =>
        rw [AList.lookup_insert_ne hid]
        exact hrow'
  rw [withKeys_eq hversion]
  have htenants : (t.tenants.map fun row => { row with
      version := if row.id = tenantID then row.version + 1 else row.version }) = t.bump tenantID := by
    apply map_congr_left
    intro row _
    split
    . rfl
    . rfl
  rw [htenants]
  unfold Keys.Database.bumpTenantVersion
  cases db.tenants.lookup tenantID with
  | none => rfl
  | some version => rfl

end

section

theorem firstPrefix_eq_ok_iff {tenantID pre : Str}
    : t.keyDatabase.firstPrefix tenantID = .ok pre ↔ (t.prefixesOf tenantID).head? = some pre := by
  unfold Keys.Database.firstPrefix prefixesOf
  dsimp only [keyDatabase]
  generalize ((t.keyPrefixes.filter fun p => p.2 = tenantID).map (·.1)).insertionSort (· ≤ ·) = prefixes
  cases prefixes with
  | nil => simp
  | cons first rest => simp

variable {keyID : Str}

theorem keyDatabase_key_eq_none_iff : t.keyDatabase.key keyID = none ↔ keyID ∉ t.keyIDs := by
  unfold Keys.Database.key keyIDs
  simp [find?_eq_none, keyDatabase]

theorem keyDatabase_key_eq_some {columns : KeyColumns} (h : t.keyDatabase.key keyID = some columns)
    : ∃ row ∈ t.apiKeys, row.columns = columns ∧ columns.id = keyID := by
  have hid := find?_some h
  rw [decide_eq_true_eq] at hid
  rcases mem_map.mp (mem_of_find?_eq_some h) with ⟨row, hrow, heq⟩
  exact ⟨row, hrow, heq, hid⟩

@[simp]
theorem keyResult_eq_ok_iff {α : Type} {result : Except Keys.Failure α} {a : α}
    : keyResult result = .ok a ↔ result = .ok a := by
  unfold keyResult
  split
  . simp
  . simp
  . simp
  . simp

def issued (t : Tables) (row : ApiKey) : Tables :=
  { t with
    tenants := t.bump row.columns.tenantID
    apiKeys := t.apiKeys ++ [row] }

theorem issueKey_eq_ok_iff (hunique : Table.Unique TenantRow.id t.tenants) {settings : Settings}
    {secret : Secret} {tenantID : Str} {body : IssueKeyRequest} {tier : Tier} {minted : NewKey}
    : t.issueKey settings secret tenantID body tier = .ok (minted, t')
        ↔
      ∃ stored pre, body.stored = some stored ∧
        settings.hmac settings.pepper secret.val ∉ t.apiKeys.map (·.lookup) ∧
        stored.applicationID.isNone ≠ stored.userID.isNone ∧
        tenantID ∈ t.tenantIDs ∧ stored.keyID ∉ t.keyIDs ∧
        (t.prefixesOf tenantID).head? = some pre ∧ Mintable settings pre stored.keyID ∧
        minted = ⟨stored.keyID, Keys.presented pre secret⟩ ∧
        t' = t.issued ⟨stored.columns tenantID tier.val, settings.hmac settings.pepper secret.val⟩ := by
  have htenant : (t.keyDatabase.tenants.lookup tenantID).isSome ↔ tenantID ∈ t.tenantIDs := by
    rw [lookup_tenants, Option.isSome_map, get_isSome_iff]
    rfl
  have hwritten : ∀ columns lookup, t.withKeys ((t.keyDatabase.inserted ⟨columns, lookup⟩).bumpTenantVersion
      columns.tenantID) = t.issued ⟨columns, lookup⟩ :=
    fun columns lookup => @withKeys_bump t hunique (t.keyDatabase.inserted ⟨columns, lookup⟩) rfl _
  unfold issueKey
  simp only [bind_eq_ok_iff, column_eq_ok_iff, keyResult_eq_ok_iff, pure, Except.pure,
    ok.injEq, Prod.mk.injEq]
  constructor
  . rintro ⟨stored, hstored, ⟨_, db⟩, hissue, rfl, rfl⟩
    rcases Keys.issue_eq_ok_iff.mp hissue with ⟨hfresh, howned, hknown, hfree, pre, hpre, hmintable, _, rfl, rfl⟩
    exact ⟨stored, pre, hstored, hfresh, howned, htenant.mp hknown, keyDatabase_key_eq_none_iff.mp hfree,
      firstPrefix_eq_ok_iff.mp hpre, hmintable, rfl, hwritten (stored.columns tenantID tier.val) _⟩
  . rintro ⟨stored, pre, hstored, hfresh, howned, hknown, hfree, hpre, hmintable, rfl, rfl⟩
    refine ⟨stored, hstored, (_, _), Keys.issue_eq_ok_iff.mpr ⟨hfresh, howned, htenant.mpr hknown,
      keyDatabase_key_eq_none_iff.mpr hfree, pre, firstPrefix_eq_ok_iff.mpr hpre, hmintable, rfl, rfl, rfl⟩,
      rfl, hwritten (stored.columns tenantID tier.val) _⟩

def expiring (notAfter : Int) (row : ApiKey) : ApiKey :=
  { row with columns := { row.columns with deprecated := true, notAfter := some notAfter } }

def rotated (t : Tables) (keyID : Str) (notAfter : Int) (row : ApiKey) : Tables :=
  { t with
    tenants := t.bump row.columns.tenantID
    apiKeys := Table.update (·.columns.id) t.apiKeys keyID (expiring notAfter) ++ [row]
    keyRoles := t.keyRoles ++ Keys.Database.inherited t.keyRoles keyID row.columns.id
    keyModels := t.keyModels ++ Keys.Database.inherited t.keyModels keyID row.columns.id
    keyBudgets := t.keyBudgets ++ Keys.Database.inherited t.keyBudgets keyID row.columns.id }

theorem rotateKey_eq_ok (hunique : Table.Unique TenantRow.id t.tenants) {settings : Settings}
    {secret : Secret} {newKeyID : Option Str} {namedAt deprecatedAt : Int} {minted : NewKey}
    (h : t.rotateKey settings secret keyID newKeyID namedAt deprecatedAt = .ok (minted, t'))
    : ∃ existing ∈ t.apiKeys, ∃ id pre, existing.columns.id = keyID ∧ existing.columns.revokedAt = none ∧
        settings.hmac settings.pepper secret.val ∉ t.apiKeys.map (·.lookup) ∧ id ∉ t.keyIDs ∧
        (t.prefixesOf existing.columns.tenantID).head? = some pre ∧ Mintable settings pre id ∧
        minted = ⟨id, Keys.presented pre secret⟩ ∧
        t' = t.rotated keyID (deprecatedAt + settings.overlap)
          ⟨existing.columns.successor id, settings.hmac settings.pepper secret.val⟩ := by
  unfold rotateKey at h
  simp only [bind_eq_ok_iff, column_eq_ok_iff, keyResult_eq_ok_iff, pure, Except.pure,
    ok.injEq, Prod.mk.injEq] at h
  rcases h with ⟨stored, hstored, ⟨_, db⟩, hrotate, rfl, rfl⟩
  let call : Keys.Call := ⟨.rotateKey keyID ⟨stored⟩, false, none, namedAt, deprecatedAt⟩
  rcases (@Keys.rotate_eq_ok_iff _ _ _ call _ _ _ _).mp hrotate with ⟨hfresh, columns, hrotatable, pre, hpre, rfl, rfl⟩
  rcases keyDatabase_key_eq_some hrotatable.key with ⟨existing, hexisting, rfl, hid⟩
  rcases hrotatable.mintable with ⟨pre', hpre', hmintable⟩
  rw [hpre, ok.injEq] at hpre'
  subst hpre'
  have hfree := keyDatabase_key_eq_none_iff.mp hrotatable.free
  refine ⟨existing, hexisting, _, pre, hid, hrotatable.unrevoked, hfresh, hfree,
    firstPrefix_eq_ok_iff.mp hpre, hmintable, rfl, ?_⟩
  generalize Keys.successorID keyID stored call.namedAt = id at hfree
  -- the successor has an id of its own, so it is not marked with the key
  have hne : id ≠ keyID := by
    rintro rfl
    exact hfree (hid ▸ mem_map_of_mem hexisting)
  refine (withKeys_bump hunique (by rfl) _).trans ?_
  congr 1
  change (t.apiKeys ++ [_]).map _ = _
  rw [map_append, map_singleton]
  congr 2
  exact if_neg hne

def revoking (now : Int) (row : ApiKey) : ApiKey :=
  { row with columns := { row.columns with revokedAt := some now } }

def revoked (t : Tables) (row : ApiKey) (now : Int) : Tables :=
  { t with
    tenants := t.bump row.columns.tenantID
    apiKeys := Table.update (·.columns.id) t.apiKeys row.columns.id (revoking now) }

theorem revokeKey_eq_ok (hunique : Table.Unique TenantRow.id t.tenants) {now : Int}
    (h : t.revokeKey keyID now = .ok t')
    : ∃ existing ∈ t.apiKeys, existing.columns.id = keyID ∧
        ((existing.columns.revokedAt.isSome ∧ t' = t) ∨
          (existing.columns.revokedAt = none ∧ t' = t.revoked existing now)) := by
  unfold revokeKey at h
  simp only [bind_eq_ok_iff, keyResult_eq_ok_iff, pure, Except.pure, ok.injEq] at h
  rcases h with ⟨db, hrevoke, rfl⟩
  unfold Keys.revoke at hrevoke
  cases hkey : t.keyDatabase.key keyID with
  | none =>
    rw [hkey] at hrevoke
    simp at hrevoke
  | some columns =>
    rw [hkey] at hrevoke
    rcases keyDatabase_key_eq_some hkey with ⟨existing, hexisting, rfl, hid⟩
    refine ⟨existing, hexisting, hid, ?_⟩
    dsimp only at hrevoke
    split at hrevoke
    . next hrevoked =>
      rw [← ok.inj hrevoke, withKeys_keyDatabase hunique]
      exact .inl ⟨hrevoked, rfl⟩
    . next hlive =>
      rw [Option.not_isSome_iff_eq_none] at hlive
      refine .inr ⟨hlive, ?_⟩
      rw [← ok.inj hrevoke, ← hid]
      exact withKeys_bump hunique (by rfl) _

end

section

variable {settings : Settings}

structure Untouched (t t' : Tables) : Prop where
  fleetState : t'.fleetState = t.fleetState
  pluginBindings : t'.pluginBindings = t.pluginBindings
  policyRules : t'.policyRules = t.policyRules
  components : t'.components = t.components
  finetuneJobs : t'.finetuneJobs = t.finetuneJobs

variable (hunique : Table.Unique TenantRow.id t.tenants)

include hunique

theorem keyStep_cases {op : KeyOp} (h : t.keyStep settings op = .ok t')
    : t' = t ∨ (∃ row, t' = t.issued row) ∨ (∃ keyID notAfter row, t' = t.rotated keyID notAfter row) ∨
        ∃ row now, t' = t.revoked row now := by
  cases op with
  | issue tenantID body tier secret =>
    rcases map_eq_ok_iff.mp h with ⟨⟨minted, _⟩, hissue, rfl⟩
    rcases (issueKey_eq_ok_iff hunique).mp hissue with ⟨_, _, _, _, _, _, _, _, _, _, rfl⟩
    exact .inr (.inl ⟨_, rfl⟩)
  | rotate keyID newKeyID namedAt deprecatedAt secret =>
    rcases map_eq_ok_iff.mp h with ⟨⟨minted, _⟩, hrotate, rfl⟩
    rcases rotateKey_eq_ok hunique hrotate with ⟨_, _, _, _, _, _, _, _, _, _, _, rfl⟩
    exact .inr (.inr (.inl ⟨_, _, _, rfl⟩))
  | revoke keyID now =>
    rcases revokeKey_eq_ok hunique h with ⟨row, _, _, ⟨_, rfl⟩ | ⟨_, rfl⟩⟩
    . exact .inl rfl
    . exact .inr (.inr (.inr ⟨row, now, rfl⟩))

theorem step_untouched {op : Op} (h : t.step settings op = .ok t')
    : Untouched t t' := by
  cases op with
  | ensureTenant tenantID tier minTrustTier =>
    rcases ensureTenant_eq_ok h with ⟨_, _, _, _, _, _, _, _, _, _, _, rfl⟩
    exact ⟨rfl, rfl, rfl, rfl, rfl⟩
  | ensureDeployment spec =>
    rcases ensureDeployment_eq_ok h with ⟨_, _, _, _, rfl⟩
    exact ⟨rfl, rfl, rfl, rfl, rfl⟩
  | removeDeployment id =>
    rw [removeDeployment_eq_ok h]
    exact ⟨rfl, rfl, rfl, rfl, rfl⟩
  | ensureAlias name targets tenantID =>
    rcases ensureAlias_eq_ok h with ⟨_, _, _, _, _, _, _, rfl⟩
    exact ⟨rfl, rfl, rfl, rfl, rfl⟩
  | ensureBudget spec =>
    rcases ensureBudget_eq_ok h with ⟨_, _, _, _, rfl⟩
    exact ⟨rfl, rfl, rfl, rfl, rfl⟩
  | key op =>
    rcases keyStep_cases hunique h with rfl | ⟨_, rfl⟩ | ⟨_, _, _, rfl⟩ | ⟨_, _, rfl⟩
    . exact ⟨rfl, rfl, rfl, rfl, rfl⟩
    . exact ⟨rfl, rfl, rfl, rfl, rfl⟩
    . exact ⟨rfl, rfl, rfl, rfl, rfl⟩
    . exact ⟨rfl, rfl, rfl, rfl, rfl⟩

omit hunique

theorem bump_ids (t : Tables) (tenantID : Str) : (t.bump tenantID).map TenantRow.id = t.tenantIDs := by
  apply map_update
  intro row _ _
  rfl

include hunique

theorem step_tenantIDs {op : Op} (h : t.step settings op = .ok t')
    : t.tenantIDs ⊆ t'.tenantIDs := by
  have hsame : ∀ rows : List TenantRow, rows.map (·.id) = t.tenantIDs → t.tenantIDs ⊆ rows.map (·.id) := by
    intro rows hrows
    rw [hrows]
    exact Subset.refl _
  cases op with
  | ensureTenant tenantID tier minTrustTier =>
    rcases ensureTenant_eq_ok h with ⟨_, _, _, _, _, _, hwrite, _, _, _, _, rfl⟩
    rcases writeTenant_eq_ok hwrite with ⟨_, _, ⟨_, _, _, rfl⟩ | ⟨_, rfl⟩⟩
    . exact map_subset _ (subset_append_left _ _)
    . exact hsame _ (map_update _ fun _ _ _ => rfl)
  | ensureDeployment spec =>
    rcases ensureDeployment_eq_ok h with ⟨_, _, _, _, rfl⟩
    exact Subset.refl _
  | removeDeployment id =>
    rw [removeDeployment_eq_ok h]
    exact Subset.refl _
  | ensureAlias name targets tenantID =>
    rcases ensureAlias_eq_ok h with ⟨_, _, _, _, _, _, _, rfl⟩
    exact Subset.refl _
  | ensureBudget spec =>
    rcases ensureBudget_eq_ok h with ⟨_, _, _, _, rfl⟩
    exact hsame _ (t.bump_ids _)
  | key op =>
    rcases keyStep_cases hunique h with rfl | ⟨_, rfl⟩ | ⟨_, _, _, rfl⟩ | ⟨_, _, rfl⟩
    . exact Subset.refl _
    . exact hsame _ (t.bump_ids _)
    . exact hsame _ (t.bump_ids _)
    . exact hsame _ (t.bump_ids _)

end

end Tables

theorem Store.step_eq_ok_iff {settings : Settings} {s s' : Store} {op : Op}
    : s.step settings op = .ok s' ↔ s.val.step settings op = .ok s'.val := by
  unfold Store.step
  simp only [bind_eq_ok_iff, commit_eq_ok_iff]
  constructor
  . rintro ⟨t, hstep, rfl⟩
    exact hstep
  . intro hstep
    exact ⟨_, hstep, rfl⟩

end ModelGateway.Control
