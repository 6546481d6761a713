import ModelGateway.Control.Onboarding

/-!
This module contains what a rotation leaves of the key that it replaces: how long the predecessor still
authenticates, over every run of the store.
-/

namespace ModelGateway.Control

open Except Store Table Tables
open List hiding format

open FineTune (Failure)
open Gateway (Pipeline Request)
open Keys (ApiKey Secret Settings)
open Signing (TrustStore)
open Wire

namespace KeyOp

def times : KeyOp → List Int
  | .issue .. => []
  | .rotate _ _ namedAt deprecatedAt _ => [namedAt, deprecatedAt]
  | .revoke _ now => [now]

def rotation (keyID : Str) : KeyOp → Option Int
  | .issue .. => none
  | .rotate id _ _ deprecatedAt _ => if id = keyID then some deprecatedAt else none
  | .revoke .. => none

theorem rotation_sublist (keyID : Str) (op : KeyOp) : (op.rotation keyID).toList.Sublist op.times := by
  cases op with
  | issue tenantID body tier secret => exact Sublist.refl _
  | rotate id newKeyID namedAt deprecatedAt secret =>
    change (if id = keyID then some deprecatedAt else none).toList.Sublist [namedAt, deprecatedAt]
    split
    . exact sublist_cons_self _ _
    . exact nil_sublist _
  | revoke id now => exact nil_sublist _

end KeyOp

def Chronological (ops : List KeyOp) : Prop :=
  (ops.flatMap KeyOp.times).Pairwise (· ≤ ·)

section

variable (settings : Settings)

def Store.keyStep (s : Store) (op : KeyOp) : Store :=
  match s.step settings (.key op) with
  | .ok s' => s'
  | .error _ => s

def Store.keyRun (s : Store) (ops : List KeyOp) : Store :=
  ops.foldl (Store.keyStep settings) s

def Store.rotation (s : Store) (keyID : Str) (op : KeyOp) : Option Int :=
  match s.step settings (.key op) with
  | .ok _ => op.rotation keyID
  | .error _ => none

def Store.rotations (s : Store) (keyID : Str) : List KeyOp → List Int
  | [] => []
  | op :: ops => (s.rotation settings keyID op).toList ++ (s.keyStep settings op).rotations keyID ops

variable {settings} {s : Store}

theorem Store.keyStep_eq {s' : Store} {op : KeyOp} (h : s.step settings (.key op) = .ok s')
    : s.keyStep settings op = s' := by
  unfold Store.keyStep
  rw [h]

@[simp]
theorem Store.keyRun_append (ops ops' : List KeyOp)
    : s.keyRun settings (ops ++ ops') = (s.keyRun settings ops).keyRun settings ops' :=
  foldl_append

@[simp]
theorem Store.rotations_append (keyID : Str) (ops ops' : List KeyOp)
    : s.rotations settings keyID (ops ++ ops')
        =
      s.rotations settings keyID ops ++ (s.keyRun settings ops).rotations settings keyID ops' := by
  induction ops generalizing s with
  | nil => rfl
  | cons op ops ih =>
    change (s.rotation settings keyID op).toList ++ Store.rotations settings _ keyID (ops ++ ops') = _
    rw [ih, ← append_assoc]
    rfl

theorem Store.rotations_concat (keyID : Str) (ops : List KeyOp) (op : KeyOp)
    : s.rotations settings keyID (ops ++ [op])
        =
      s.rotations settings keyID ops ++ ((s.keyRun settings ops).rotation settings keyID op).toList := by
  rw [rotations_append]
  change _ ++ (_ ++ []) = _
  rw [append_nil]

theorem Store.exists_rotation {keyID : Str} {ops : List KeyOp} {time : Int}
    (h : time ∈ s.rotations settings keyID ops)
    : ∃ before op, before ++ [op] <+: ops ∧
        (s.keyRun settings before).rotation settings keyID op = some time := by
  induction ops generalizing s with
  | nil => simp [rotations] at h
  | cons op ops ih =>
    rcases mem_append.mp h with h | h
    . exact ⟨[], op, prefix_append [op] ops, Option.mem_toList.mp h⟩
    . rcases ih h with ⟨before, op', hprefix, hrotation⟩
      exact ⟨op :: before, op', (prefix_cons_inj op).mpr hprefix, hrotation⟩

theorem Store.rotations_sublist (keyID : Str) (ops : List KeyOp)
    : (s.rotations settings keyID ops).Sublist (ops.flatMap KeyOp.times) := by
  induction ops generalizing s with
  | nil => exact Sublist.refl _
  | cons op ops ih =>
    refine Sublist.append ?_ ih
    unfold Store.rotation
    split
    . apply KeyOp.rotation_sublist
    . exact nil_sublist _

end

namespace Tables

variable {t t' : Tables}

section

structure Rekeyed (t t' : Tables) : Prop where
  rest : t' = { t with
    tenants := t'.tenants
    apiKeys := t'.apiKeys
    keyRoles := t'.keyRoles
    keyModels := t'.keyModels
    keyBudgets := t'.keyBudgets }
  tenants : (t'.tenants.map fun row => (row.id, row.minTrustTier))
    = t.tenants.map fun row => (row.id, row.minTrustTier)

theorem Rekeyed.refl (t : Tables) : Rekeyed t t :=
  ⟨rfl, rfl⟩

theorem Rekeyed.symm (h : Rekeyed t t') : Rekeyed t' t := by
  refine ⟨?_, h.tenants.symm⟩
  exact (congrArg (fun u : Tables => { u with
    tenants := t.tenants
    apiKeys := t.apiKeys
    keyRoles := t.keyRoles
    keyModels := t.keyModels
    keyBudgets := t.keyBudgets }) h.rest).symm

theorem Rekeyed.trans {t'' : Tables} (h : Rekeyed t t') (h' : Rekeyed t' t'') : Rekeyed t t'' := by
  refine ⟨h'.rest.trans ?_, h'.tenants.trans h.tenants⟩
  exact congrArg (fun u : Tables => { u with
    tenants := t''.tenants
    apiKeys := t''.apiKeys
    keyRoles := t''.keyRoles
    keyModels := t''.keyModels
    keyBudgets := t''.keyBudgets }) h.rest

theorem Rekeyed.keyPrefixes (h : Rekeyed t t') : t'.keyPrefixes = t.keyPrefixes := by
  rw [h.rest]

variable {f : Format} {rt : Runtime} {trust : Option TrustStore}

theorem Rekeyed.ready (h : Rekeyed t t') (hkeys : ∀ key ∈ t'.apiKeys, key.columns.revokedAt = none →
      KeyLoads key.columns ∧ key.lookup.length = 32)
    (hready : t.Ready f rt trust)
    : t'.Ready f rt trust := by
  rcases h with ⟨hrest, htenants⟩
  generalize t'.tenants = tenants, t'.apiKeys = apiKeys, t'.keyRoles = keyRoles, t'.keyModels = keyModels,
    t'.keyBudgets = keyBudgets at hrest htenants hkeys
  subst hrest
  refine ⟨⟨?_, hready.fleet.ids, hready.fleet.targets, hready.fleet.bindings, hready.fleet.onWire⟩, ?_⟩
  . rcases hready.fleet.loads with ⟨hstate, hpolicy, hdeployments, haliases, hregistry⟩
    exact ⟨hstate, hpolicy, hdeployments, haliases, hregistry⟩
  . intro row' hrow'
    have hmem : (row'.id, row'.minTrustTier) ∈ t.tenants.map fun row => (row.id, row.minTrustTier) := by
      rw [← htenants]
      exact mem_map_of_mem hrow'
    rcases mem_map.mp hmem with ⟨row, hrow, heq⟩
    rcases Prod.mk.inj heq with ⟨hid, htier⟩
    have hrow := hready.tenants row hrow
    rcases hrow with ⟨⟨hid_ne, hprefixes, hbounds, hbudgets, _, haliases, hpolicy⟩, _, hbindings, honWire⟩
    rw [hid] at hid_ne hprefixes hbudgets haliases hpolicy hbindings honWire
    rw [htier] at hbounds
    refine ⟨⟨hid_ne, hprefixes, hbounds, hbudgets, ?_, haliases, hpolicy⟩, ?_, hbindings, honWire⟩
    . intro key hkey
      rcases mem_keysOf.mp hkey with ⟨hkey, _, hlive⟩
      exact (hkeys key hkey hlive).1
    . intro key hkey
      rcases mem_keysOf.mp hkey with ⟨hkey, _, hlive⟩
      exact (hkeys key hkey hlive).2

theorem exists_served_iff (hsound : t.Sound)
    : (∃ snap, t.Served snap)
        ↔
      ∃ f rt trust, t.Ready f rt trust ∧ ((t.pluginsOf none).map (·.port)).Nodup := by
  constructor
  . rintro ⟨snap, f, rt, trust, now, msg, digest, hnow, hbuild, hdecode⟩
    exact ⟨f, rt, trust, (build_isOk_iff f rt trust hsound hnow).mp ⟨msg, hbuild⟩,
      (accepted_iff hsound hbuild).mp ⟨snap, digest, hdecode⟩⟩
  . rintro ⟨f, rt, trust, hready, hports⟩
    have hnow : IsDatetime 0 := by decide
    rcases (build_isOk_iff f rt trust hsound hnow).mpr hready with ⟨msg, hbuild⟩
    rcases (accepted_iff hsound hbuild).mpr hports with ⟨snap, digest, hdecode⟩
    exact ⟨snap, f, rt, trust, 0, msg, digest, hnow, hbuild, hdecode⟩

end

section

variable (settings : Settings)

structure Minted (t : Tables) (key : ApiKey) : Prop where
  loads : KeyLoads key.columns
  presented : ∃ (secret : Secret) (pre : Str), key.lookup = settings.hmac settings.pepper secret.val ∧
    (pre, key.columns.tenantID) ∈ t.keyPrefixes ∧ pre ≠ [] ∧ pre.contains 0x5f = false

structure Tended (t t' : Tables) (op : KeyOp) : Prop where
  rekeyed : Rekeyed t t'
  kept : t.keyIDs ⊆ t'.keyIDs
  known : ∀ keyID time, op.rotation keyID = some time → keyID ∈ t.keyIDs
  minted : ∀ key ∈ t'.apiKeys, t.Minted settings key
  expires : ∀ key' ∈ t'.apiKeys,
    (∃ key ∈ t.apiKeys, key'.columns.id = key.columns.id ∧ key'.columns.notAfter
      = ((op.rotation key.columns.id).map (· + settings.overlap)).or key.columns.notAfter) ∨
    (key'.columns.id ∉ t.keyIDs ∧ key'.columns.notAfter = none)

variable {settings}

theorem Rekeyed.minted_iff (h : Rekeyed t t') {key : ApiKey}
    : t'.Minted settings key ↔ t.Minted settings key := by
  constructor
  . rintro ⟨hloads, hpresented⟩
    rw [h.keyPrefixes] at hpresented
    exact ⟨hloads, hpresented⟩
  . rintro ⟨hloads, hpresented⟩
    rw [← h.keyPrefixes] at hpresented
    exact ⟨hloads, hpresented⟩

theorem rekeyed_bump {tenantID : Str} (h : t' = { t with
      tenants := t.bump tenantID
      apiKeys := t'.apiKeys
      keyRoles := t'.keyRoles
      keyModels := t'.keyModels
      keyBudgets := t'.keyBudgets })
    : Rekeyed t t' := by
  have htenants : t'.tenants = t.bump tenantID := by rw [h]
  refine ⟨by rw [htenants]; exact h, ?_⟩
  rw [htenants]
  apply map_update
  intro row _ _
  rfl

theorem keyIDs_update (keyID : Str) (f : ApiKey → ApiKey) (hf : ∀ key, (f key).columns.id = key.columns.id)
    : ((Table.update (fun key => key.columns.id) t.apiKeys keyID f).map fun key => key.columns.id)
        =
      t.keyIDs :=
  map_update _ fun key _ _ => hf key

variable (hsound : t.Sound) (hminted : ∀ key ∈ t.apiKeys, t.Minted settings key)

include hsound hminted

theorem issue_tended {tenantID : Str} {body : Keys.IssueKeyRequest} {tier : Tier} {secret : Secret}
    (h : t.keyStep settings (.issue tenantID body tier secret) = .ok t')
    : t.Tended settings t' (.issue tenantID body tier secret) := by
  rcases map_eq_ok_iff.mp h with ⟨⟨_, _⟩, hissue, rfl⟩
  rcases (issueKey_eq_ok_iff hsound.tenants.1).mp hissue
    with ⟨_, pre, _, _, _, _, hfree, hpre, ⟨hne, hunderscore, hid, _⟩, _, rfl⟩
  refine ⟨rekeyed_bump rfl, ?_, ?_, ?_, ?_⟩
  . exact map_subset _ (subset_append_left t.apiKeys _)
  . intro keyID time hrotation
    cases hrotation
  . intro key hkey
    rcases mem_append.mp hkey with hkey | hkey
    . exact hminted key hkey
    . rw [mem_singleton.mp hkey]
      exact ⟨⟨hid, tier_bounds tier⟩, secret, pre, rfl, mem_prefixesOf.mp (mem_of_mem_head? hpre), hne,
        hunderscore⟩
  . intro key hkey
    rcases mem_append.mp hkey with hkey | hkey
    . exact .inl ⟨key, hkey, rfl, rfl⟩
    . rw [mem_singleton.mp hkey]
      exact .inr ⟨hfree, rfl⟩

theorem rotate_tended {keyID : Str} {newKeyID : Option Str} {namedAt deprecatedAt : Int} {secret : Secret}
    (h : t.keyStep settings (.rotate keyID newKeyID namedAt deprecatedAt secret) = .ok t')
    : t.Tended settings t' (.rotate keyID newKeyID namedAt deprecatedAt secret) := by
  rcases map_eq_ok_iff.mp h with ⟨⟨_, _⟩, hrotate, rfl⟩
  rcases rotateKey_eq_ok hsound.tenants.1 hrotate
    with ⟨existing, hexisting, id, pre, hid, _, _, hfree, hpre, ⟨hne, hunderscore, hidne, _⟩, _, rfl⟩
  have hrotation : ∀ id', KeyOp.rotation id' (.rotate keyID newKeyID namedAt deprecatedAt secret)
      = if keyID = id' then some deprecatedAt else none := fun _ => rfl
  refine ⟨rekeyed_bump rfl, ?_, ?_, ?_, ?_⟩
  . intro id' hid'
    refine mem_map.mpr ?_
    rw [← keyIDs_update keyID (expiring (deprecatedAt + settings.overlap)) fun _ => rfl] at hid'
    rcases mem_map.mp hid' with ⟨key, hkey, heq⟩
    exact ⟨key, mem_append_left _ hkey, heq⟩
  . intro id' time htime
    rw [hrotation] at htime
    split at htime
    . next heq =>
      rw [← heq, ← hid]
      exact mem_map_of_mem hexisting
    . cases htime
  . intro key hkey
    rcases mem_append.mp hkey with hkey | hkey
    . rcases (mem_update_iff _).mp hkey with ⟨hkey, _⟩ | ⟨old, hold, _, rfl⟩
      . exact hminted key hkey
      . exact ⟨(hminted old hold).loads, (hminted old hold).presented⟩
    . rw [mem_singleton.mp hkey]
      exact ⟨⟨hidne, (hminted existing hexisting).loads.2⟩, secret, pre, rfl,
        mem_prefixesOf.mp (mem_of_mem_head? hpre), hne, hunderscore⟩
  . intro key hkey
    rcases mem_append.mp hkey with hkey | hkey
    . rcases (mem_update_iff _).mp hkey with ⟨hkey, hother⟩ | ⟨old, hold, hrotated, rfl⟩
      . refine .inl ⟨key, hkey, rfl, ?_⟩
        rw [hrotation, if_neg (Ne.symm hother)]
        rfl
      . refine .inl ⟨old, hold, rfl, ?_⟩
        rw [hrotation, if_pos hrotated.symm]
        rfl
    . rw [mem_singleton.mp hkey]
      exact .inr ⟨hfree, rfl⟩

theorem revoke_tended {keyID : Str} {now : Int} (h : t.keyStep settings (.revoke keyID now) = .ok t')
    : t.Tended settings t' (.revoke keyID now) := by
  rcases revokeKey_eq_ok hsound.tenants.1 h with ⟨row, hrow, _, ⟨_, rfl⟩ | ⟨_, rfl⟩⟩
  . refine ⟨Rekeyed.refl t', Subset.refl _, ?_, hminted, ?_⟩
    . intro id time htime
      cases htime
    . intro key hkey
      exact .inl ⟨key, hkey, rfl, rfl⟩
  . refine ⟨rekeyed_bump rfl, ?_, ?_, ?_, ?_⟩
    . rw [← keyIDs_update row.columns.id (revoking now) fun _ => rfl]
      exact Subset.refl _
    . intro id time htime
      cases htime
    . intro key hkey
      rcases (mem_update_iff _).mp hkey with ⟨hkey, _⟩ | ⟨old, hold, _, rfl⟩
      . exact hminted key hkey
      . exact ⟨(hminted old hold).loads, (hminted old hold).presented⟩
    . intro key hkey
      rcases (mem_update_iff _).mp hkey with ⟨hkey, _⟩ | ⟨old, hold, _, rfl⟩
      . exact .inl ⟨key, hkey, rfl, rfl⟩
      . exact .inl ⟨old, hold, rfl, rfl⟩

theorem keyStep_tended {op : KeyOp} (h : t.keyStep settings op = .ok t') : t.Tended settings t' op := by
  cases op with
  | issue tenantID body tier secret => exact issue_tended hsound hminted h
  | rotate keyID newKeyID namedAt deprecatedAt secret => exact rotate_tended hsound hminted h
  | revoke keyID now => exact revoke_tended hsound hminted h

end

section

variable {f : Format} {snap : Snapshot}

theorem Serves.principal_eq_some (hserves : t.Serves f snap) {tenantID lookup : Str}
    {principal : ModelGateway.Principal} (h : snap.principal tenantID lookup = some principal)
    : ∃ key ∈ t.apiKeys, key.columns.revokedAt = none ∧
        principal = t.principalAt key key.columns.tenantID := by
  rcases (Pipeline.principal_eq_some_iff _ _ _).mp h with ⟨layer, _, hlayer, _, hprincipal⟩
  rcases hserves.known tenantID layer hlayer with ⟨row, hrow, rfl⟩
  rcases hserves.tenants row hrow with ⟨_, hlayer', hserved⟩
  rw [hlayer, Option.some.injEq] at hlayer'
  subst hlayer'
  rcases (hserved.principals _ _).mp hprincipal with ⟨key, hkey, _, rfl⟩
  rcases mem_keysOf.mp hkey with ⟨hkey, htenant, hlive⟩
  exact ⟨key, hkey, hlive, by rw [htenant]⟩

end

end Tables

section

variable (settings : Settings)

def instant (time : Int) : Int :=
  unixEpoch + time * 1000

def expiresAt (time : Int) : Int :=
  fromUnixMillis (toUnixMs time)

theorem expiresAt_seconds {n : Int} (h : |n| < 2 ^ 43) (hne : n ≠ 0)
    : expiresAt (n * 1000000) = instant (n * 1000000) := by
  unfold expiresAt fromUnixMillis instant
  rw [toUnixMs_seconds h, if_neg (by omega)]
  unfold millisecond
  omega

def InTime (first time : Int) : Prop :=
  expiresAt (time + settings.overlap) ≠ 0 ∧
    expiresAt (time + settings.overlap) ≤ instant (first + settings.overlap)

structure Store.History (s : Store) (ops : List KeyOp) : Prop where
  rekeyed : Tables.Rekeyed s.val (s.keyRun settings ops).val
  minted : ∀ key ∈ (s.keyRun settings ops).val.apiKeys, s.val.Minted settings key
  expires : ∀ key ∈ (s.keyRun settings ops).val.apiKeys, key.columns.notAfter
    = (s.rotations settings key.columns.id ops).getLast?.map (· + settings.overlap)
  unknown : ∀ keyID, keyID ∉ (s.keyRun settings ops).val.keyIDs → s.rotations settings keyID ops = []

variable {settings} {s : Store} {ops : List KeyOp}

theorem Store.History.concat (h : s.History settings ops) (op : KeyOp)
    : s.History settings (ops ++ [op]) := by
  have hrun : s.keyRun settings (ops ++ [op]) = (s.keyRun settings ops).keyStep settings op := by
    rw [keyRun_append]
    rfl
  cases hstep : (s.keyRun settings ops).step settings (.key op) with
  | error failure =>
    have hsame : s.keyRun settings (ops ++ [op]) = s.keyRun settings ops := by
      rw [hrun]
      unfold Store.keyStep
      rw [hstep]
    have hrotations : ∀ keyID, s.rotations settings keyID (ops ++ [op]) = s.rotations settings keyID ops := by
      intro keyID
      rw [rotations_concat]
      unfold Store.rotation
      rw [hstep]
      apply append_nil
    constructor
    . rw [hsame]
      exact h.rekeyed
    . rw [hsame]
      exact h.minted
    . simp only [hsame, hrotations]
      exact h.expires
    . simp only [hsame, hrotations]
      exact h.unknown
  | ok s' =>
    have hnext : s.keyRun settings (ops ++ [op]) = s' := hrun.trans (keyStep_eq hstep)
    have hrotations : ∀ keyID, s.rotations settings keyID (ops ++ [op])
        = s.rotations settings keyID ops ++ (op.rotation keyID).toList := by
      intro keyID
      rw [rotations_concat]
      unfold Store.rotation
      rw [hstep]
    have htended := keyStep_tended (s.keyRun settings ops).property
      (fun key hkey => h.rekeyed.minted_iff.mpr (h.minted key hkey)) (step_eq_ok_iff.mp hstep)
    have hunknown : ∀ keyID, keyID ∉ (s.keyRun settings ops).val.keyIDs →
        s.rotations settings keyID (ops ++ [op]) = [] := by
      intro keyID hkeyID
      rw [hrotations, h.unknown keyID hkeyID]
      cases hrotation : op.rotation keyID with
      | none => rfl
      | some time => exact absurd (htended.known keyID time hrotation) hkeyID
    constructor
    . rw [hnext]
      exact h.rekeyed.trans htended.rekeyed
    . rw [hnext]
      intro key hkey
      exact h.rekeyed.minted_iff.mp (htended.minted key hkey)
    . rw [hnext]
      intro key' hkey'
      rcases htended.expires key' hkey' with ⟨key, hkey, hid, hend⟩ | ⟨hnew, hend⟩
      . rw [hend, hid, hrotations, h.expires key hkey, getLast?_append]
        cases op.rotation key.columns.id with
        | none => rfl
        | some time => rfl
      . rw [hend, hunknown _ hnew]
        rfl
    . rw [hnext]
      intro keyID hkeyID
      exact hunknown keyID fun hmem => hkeyID (htended.kept hmem)

theorem Store.history (hkeyless : s.val.apiKeys = []) (ops : List KeyOp) : s.History settings ops := by
  induction ops using reverseRecOn with
  | nil =>
    refine ⟨Tables.Rekeyed.refl _, ?_, ?_, fun _ _ => rfl⟩
    . change ∀ key ∈ s.val.apiKeys, _
      rw [hkeyless]
      exact forall_mem_nil _
    . change ∀ key ∈ s.val.apiKeys, _
      rw [hkeyless]
      exact forall_mem_nil _
  | append_singleton ops op ih => exact ih.concat op

variable (settings) in
def AuthenticatesAs (snap : Snapshot) (now : Int) (keyID : Str) : Prop :=
  ∃ (p : Pipeline) (req : Request) (principal : ModelGateway.Principal), Shares settings p ∧
    p.authenticate snap now req = .ok principal ∧ principal.keyID = keyID

variable (settings) in
def Store.OverlapEnds (s : Store) (ops : List KeyOp) : Prop :=
  ∀ before, before <+: ops → ∀ keyID first, (s.rotations settings keyID before).head? = some first →
    ∀ snap, (s.keyRun settings before).val.Served snap →
      ∀ now, instant (first + settings.overlap) < now → ¬ AuthenticatesAs settings snap now keyID

variable (settings) in
def Store.StaysExpired (s : Store) (ops : List KeyOp) : Prop :=
  ∀ before after, before ++ after <+: ops →
    ∀ key ∈ (s.keyRun settings before).val.apiKeys, ∀ notAfter ∈ key.columns.notAfter, ∀ time,
      notAfter < time → (∀ c ∈ before.flatMap KeyOp.times, c ≤ time) →
      (∀ c ∈ after.flatMap KeyOp.times, time ≤ c) →
      ∀ snap, (s.keyRun settings (before ++ after)).val.Served snap →
        ∀ now, instant time ≤ now → ¬ AuthenticatesAs settings snap now key.columns.id

theorem Store.History.served_iff (hhmac : ∀ pepper secret, (settings.hmac pepper secret).length = 32)
    (hkeyless : s.val.apiKeys = []) (h : s.History settings ops)
    : (∃ snap, (s.keyRun settings ops).val.Served snap) ↔ ∃ snap, s.val.Served snap := by
  rw [exists_served_iff (s.keyRun settings ops).property, exists_served_iff s.property]
  have hplugins : (s.keyRun settings ops).val.pluginsOf none = s.val.pluginsOf none := by
    unfold Tables.pluginsOf
    rw [h.rekeyed.rest]
  rw [hplugins]
  apply exists₃_congr
  intro f rt trust
  apply and_congr_left'
  constructor
  . intro hready
    refine h.rekeyed.symm.ready ?_ hready
    rw [hkeyless]
    exact forall_mem_nil _
  . intro hready
    refine h.rekeyed.ready ?_ hready
    intro key hkey _
    rcases h.minted key hkey with ⟨hloads, secret, _, hlookup, _⟩
    rw [hlookup]
    exact ⟨hloads, hhmac _ _⟩

variable {keyID : Str}

theorem Tables.Served.authenticatesAs_iff {t : Tables} (hsound : t.Sound)
    (hminted : ∀ key ∈ t.apiKeys, t.Minted settings key) {snap : Snapshot} (hserved : t.Served snap)
    {now : Int}
    : AuthenticatesAs settings snap now keyID
        ↔
      ∃ key ∈ t.apiKeys, key.columns.id = keyID ∧ key.columns.revokedAt = none ∧
        (fromUnixMillis (expiry key.columns.notAfter) = 0 ∨
          now ≤ fromUnixMillis (expiry key.columns.notAfter)) := by
  rcases hserved.serves hsound with ⟨f, hserves⟩
  constructor
  . rintro ⟨p, req, principal, hshares, hauth, rfl⟩
    rcases (p.authenticate_eq_ok_iff_lookups now req principal).mp hauth
      with ⟨_, _, _, _, _, hprincipal, hvalid⟩
    rcases hserves.principal_eq_some hprincipal with ⟨key, hkey, hlive, rfl⟩
    rw [Principal.validate_eq_ok_iff] at hvalid
    exact ⟨key, hkey, rfl, hlive, hvalid⟩
  . rintro ⟨key, hkey, rfl, hlive, hvalid⟩
    rcases (hminted key hkey).presented with ⟨secret, pre, hlookup, hpre, hne, hunderscore⟩
    have hvalid : (t.principalAt key key.columns.tenantID).validate now = .ok () := by
      rw [Principal.validate_eq_ok_iff]
      exact hvalid
    let p : Pipeline := { Gateway.Sample.pipeline with pepper := settings.pepper, hmac := settings.hmac }
    let req : Request := { Gateway.Sample.request [] with apiKey := Keys.presented pre secret }
    have hshares : Shares settings p := ⟨rfl, rfl⟩
    exact ⟨p, req, _, hshares, hserves.authenticates hsound hshares hkey hlive hpre hne hunderscore hlookup rfl
      hvalid, rfl⟩

theorem Store.History.authenticatesAs_iff (h : s.History settings ops) {snap : Snapshot}
    (hserved : (s.keyRun settings ops).val.Served snap) {now : Int}
    : AuthenticatesAs settings snap now keyID
        ↔
      ∃ key ∈ (s.keyRun settings ops).val.apiKeys, key.columns.id = keyID ∧ key.columns.revokedAt = none ∧
        (fromUnixMillis (expiry key.columns.notAfter) = 0 ∨
          now ≤ fromUnixMillis (expiry key.columns.notAfter)) :=
  hserved.authenticatesAs_iff (s.keyRun settings ops).property fun key hkey =>
    h.rekeyed.minted_iff.mpr (h.minted key hkey)

theorem Store.head?_rotations {before : List KeyOp} (h : before <+: ops) {first : Int}
    (hfirst : (s.rotations settings keyID before).head? = some first)
    : (s.rotations settings keyID ops).head? = some first := by
  rcases h with ⟨_, rfl⟩
  rw [rotations_append, head?_append, hfirst]
  rfl

theorem Store.rotation_eq_some {op : KeyOp} {time : Int} (h : s.rotation settings keyID op = some time)
    : ∃ existing, existing.columns.id = keyID ∧ existing.columns.revokedAt = none ∧
        Tables.expiring (time + settings.overlap) existing ∈ (s.keyStep settings op).val.apiKeys := by
  unfold Store.rotation at h
  unfold Store.keyStep
  cases hstep : s.step settings (.key op) with
  | error failure =>
    rw [hstep] at h
    cases h
  | ok s' =>
    rw [hstep] at h
    cases op with
    | issue tenantID body tier secret => cases h
    | revoke id now => cases h
    | rotate id newKeyID namedAt deprecatedAt secret =>
      change (if id = keyID then some deprecatedAt else none) = some time at h
      split at h
      . next hid =>
        subst hid
        cases h
        rcases map_eq_ok_iff.mp (step_eq_ok_iff.mp hstep) with ⟨⟨_, t⟩, hrotate, ht⟩
        rcases rotateKey_eq_ok s.property.tenants.1 hrotate
          with ⟨existing, hexisting, _, _, hid, hlive, _, _, _, _, _, rfl⟩
        refine ⟨existing, hid, hlive, ?_⟩
        rw [← ht]
        exact mem_append_left _ ((mem_update_iff _).mpr (.inr ⟨existing, hexisting, hid, rfl⟩))
      . cases h

section

variable (hhmac : ∀ pepper secret, (settings.hmac pepper secret).length = 32) (hkeyless : s.val.apiKeys = [])
  {ops : List KeyOp}

include hhmac hkeyless

theorem overlapEnds_iff
    : s.OverlapEnds settings ops
        ↔
      ((∃ snap, s.val.Served snap) → ∀ keyID first, (s.rotations settings keyID ops).head? = some first →
        ∀ time ∈ s.rotations settings keyID ops, InTime settings first time) := by
  constructor
  . intro h hships keyID first hfirst time htime
    rcases Store.exists_rotation htime with ⟨before, op, hprefix, hrotation⟩
    rcases rotation_eq_some hrotation with ⟨existing, hid, hlive, hmem⟩
    have hhistory : s.History settings (before ++ [op]) := Store.history hkeyless _
    rcases (hhistory.served_iff hhmac hkeyless).mpr hships with ⟨snap, hserved⟩
    have hfirst' : (s.rotations settings keyID (before ++ [op])).head? = some first := by
      rw [rotations_concat, hrotation]
      change (s.rotations settings keyID before ++ [time]).head? = _
      cases hhead : (s.rotations settings keyID before ++ [time]).head? with
      | none => simp at hhead
      | some first' =>
        have hsame := Store.head?_rotations hprefix (by
          rw [rotations_concat, hrotation]
          exact hhead)
        rw [hfirst] at hsame
        exact hsame.symm
    have hnever : ∀ now, instant (first + settings.overlap) < now →
        ¬ (expiresAt (time + settings.overlap) = 0 ∨ now ≤ expiresAt (time + settings.overlap)) := by
      intro now hnow hvalid
      apply h (before ++ [op]) hprefix keyID first hfirst' snap hserved now hnow
      rw [hhistory.authenticatesAs_iff hserved]
      refine ⟨Tables.expiring (time + settings.overlap) existing, ?_, hid, hlive, hvalid⟩
      rw [keyRun_append]
      exact hmem
    constructor
    . intro hzero
      exact hnever _ (Int.lt_succ _) (.inl hzero)
    . rw [← Int.not_lt]
      intro hlate
      exact hnever _ hlate (.inr (Int.le_refl _))
  . intro h before hbefore keyID first hfirst snap hserved now hnow
    have hhistory : s.History settings before := Store.history hkeyless before
    rw [hhistory.authenticatesAs_iff hserved]
    rintro ⟨key, hkey, rfl, _, hvalid⟩
    have hships := (hhistory.served_iff hhmac hkeyless).mp ⟨snap, hserved⟩
    have hexpires := hhistory.expires key hkey
    cases hlast : (s.rotations settings key.columns.id before).getLast? with
    | none =>
      rw [getLast?_eq_none_iff] at hlast
      rw [hlast] at hfirst
      cases hfirst
    | some time =>
      have htime : time ∈ s.rotations settings key.columns.id ops := by
        rcases hbefore with ⟨_, rfl⟩
        rw [rotations_append]
        exact mem_append_left _ (mem_of_getLast? hlast)
      rcases h hships key.columns.id first (Store.head?_rotations hbefore hfirst) time htime with ⟨hne, hle⟩
      rw [hexpires, hlast] at hvalid
      rcases hvalid with hzero | hvalid
      . exact hne hzero
      . exact absurd (Int.lt_of_lt_of_le hnow hvalid) (Int.not_lt.mpr hle)

end

theorem staysExpired_of_overlapEnds (hkeyless : s.val.apiKeys = []) (hclock : Chronological ops)
    (h : s.OverlapEnds settings ops)
    : s.StaysExpired settings ops := by
  intro before after hprefix key hkey notAfter hnotAfter time htime _ _ snap hserved now hnow
  have hhistory : s.History settings before := Store.history hkeyless before
  have hexpires := hhistory.expires key hkey
  rw [Option.mem_def.mp hnotAfter] at hexpires
  rcases Option.map_eq_some_iff.mp hexpires.symm with ⟨last, hlast, rfl⟩
  have hsorted : (s.rotations settings key.columns.id before).Pairwise (· ≤ ·) := by
    rcases hprefix with ⟨rest, rfl⟩
    unfold Chronological at hclock
    rw [append_assoc, flatMap_append] at hclock
    exact (pairwise_append.mp hclock).1.sublist (rotations_sublist _ _)
  cases hrotations : s.rotations settings key.columns.id before with
  | nil =>
    rw [hrotations] at hlast
    cases hlast
  | cons first rest =>
    have hle : first ≤ last := by
      have hmem := mem_of_getLast? hlast
      rw [hrotations] at hsorted hmem
      rcases mem_cons.mp hmem with rfl | hmem
      . exact Int.le_refl _
      . exact (pairwise_cons.mp hsorted).1 last hmem
    apply h (before ++ after) hprefix key.columns.id first ?_ snap hserved now ?_
    . apply Store.head?_rotations (prefix_append before after)
      rw [hrotations]
      rfl
    . unfold instant at hnow ⊢
      omega

end

theorem overlap_ends_iff (settings : Settings)
    (hhmac : ∀ pepper secret, (settings.hmac pepper secret).length = 32) {s : Store}
    (hkeyless : s.val.apiKeys = []) {ops : List KeyOp} (hclock : Chronological ops)
    : (s.OverlapEnds settings ops ∧ s.StaysExpired settings ops)
        ↔
      ((∃ snap, s.val.Served snap) → ∀ keyID first, (s.rotations settings keyID ops).head? = some first →
        ∀ time ∈ s.rotations settings keyID ops, InTime settings first time) := by
  rw [← overlapEnds_iff hhmac hkeyless]
  exact and_iff_left_of_imp (staysExpired_of_overlapEnds hkeyless hclock)

namespace Sample

def weekSettings : Settings :=
  { keySettings with overlap := 604800 * 1000000 }

local instance neZero_ten : NeZero 10 := ⟨by decide⟩

def issueFirst : KeyOp :=
  .issue (str "acme") (firstKey (str "acme")) ⟨.external, external_le⟩ (Keys.Sample.secret 0)

def rotateFirst (newKeyID : Str) (seconds : Int) (b : Fin 10) : KeyOp :=
  .rotate (str "key-1") (some newKeyID) (seconds * 1000000) (seconds * 1000000) (Keys.Sample.secret b)

def firstRow : ApiKey where
  columns := (firstKey (str "acme")).columns (str "acme") 1
  lookup := keySettings.hmac keySettings.pepper (Keys.Sample.secret 0).val

def rotatedFirst (t : Tables) (newKeyID : Str) (seconds : Int) (b : Fin 10) : Tables :=
  t.rotated (str "key-1") (seconds * 1000000 + 604800 * 1000000)
    ⟨firstRow.columns.successor newKeyID, keySettings.hmac keySettings.pepper (Keys.Sample.secret b).val⟩

def issuedStore : Store :=
  ⟨onboardedTables.issued firstRow, by decide +kernel⟩

def rotatedStore : Store :=
  ⟨rotatedFirst issuedStore.val (str "key-2") 0 1, by decide +kernel⟩

def revivedStore : Store :=
  ⟨rotatedFirst rotatedStore.val (str "key-3") 691200 2, by decide +kernel⟩

theorem step_issueFirst : onboardedStore.step weekSettings (.key issueFirst) = .ok issuedStore := by
  rfl

theorem step_rotateFirst
    : issuedStore.step weekSettings (.key (rotateFirst (str "key-2") 0 1)) = .ok rotatedStore := by
  rfl

theorem step_rotateAgain
    : rotatedStore.step weekSettings (.key (rotateFirst (str "key-3") 691200 2)) = .ok revivedStore := by
  rfl

def once : List KeyOp :=
  [issueFirst, rotateFirst (str "key-2") 0 1]

def twice : List KeyOp :=
  once ++ [rotateFirst (str "key-3") 691200 2]

theorem run_twice : onboardedStore.keyRun weekSettings twice = revivedStore := by
  unfold Store.keyRun twice once
  rw [cons_append, foldl_cons, keyStep_eq step_issueFirst, cons_append, foldl_cons,
    keyStep_eq step_rotateFirst, nil_append, foldl_cons, keyStep_eq step_rotateAgain,
    foldl_nil]

theorem rotations_once {keyID : Str} {time : Int}
    (h : time ∈ onboardedStore.rotations weekSettings keyID once)
    : time = 0 := by
  unfold once at h
  change time ∈ (if str "key-1" = keyID then some 0 else none).toList ++ [] at h
  rw [append_nil, Option.mem_toList] at h
  split at h
  . exact (Option.mem_some_iff.mp h).symm
  . cases h

theorem rotations_twice
    : onboardedStore.rotations weekSettings (str "key-1") twice = [0, 691200 * 1000000] := by
  unfold twice once
  rfl

end Sample

open Wire.Sample (format)

open Sample

theorem overlap_ends_once
    : onboardedStore.val.apiKeys = [] ∧ Chronological once ∧
        onboardedStore.OverlapEnds weekSettings once ∧
        onboardedStore.StaysExpired weekSettings once := by
  have hclock : Chronological once := by
    change List.Pairwise (· ≤ ·) [(0 : Int), 0]
    decide
  refine ⟨rfl, hclock, (overlap_ends_iff weekSettings keySettings_hmac rfl hclock).mpr ?_⟩
  intro _ keyID first hfirst time htime
  rw [rotations_once (mem_of_mem_head? hfirst), rotations_once htime]
  change expiresAt (0 + 604800 * 1000000) ≠ 0 ∧
    expiresAt (0 + 604800 * 1000000) ≤ instant (0 + 604800 * 1000000)
  rw [Int.zero_add, expiresAt_seconds (by decide) (by decide)]
  decide

theorem rotated_again_revives
    : Chronological twice ∧ onboardedStore.rotations weekSettings (str "key-1") twice
          = [0, 691200 * 1000000] ∧
        ∃ msg snap digest, (onboardedStore.keyRun weekSettings twice).val.build
            runtime format (691200 * 1000000) none = .ok msg ∧
          decodeAndVerify format (format.snapshot.marshal msg) = .ok (snap, digest) ∧
          instant (0 + weekSettings.overlap) < instant (777600 * 1000000) ∧
          AuthenticatesAs weekSettings snap (instant (777600 * 1000000)) (str "key-1") := by
  have hclock : Chronological twice := by
    change List.Pairwise (· ≤ ·) [(0 : Int), 0, 691200 * 1000000, 691200 * 1000000]
    decide
  refine ⟨hclock, rotations_twice, ?_⟩
  have hhistory : onboardedStore.History weekSettings twice := Store.history rfl _
  have hplain : revivedStore.val.Plain := ⟨rfl, rfl, rfl, rfl⟩
  rcases hplain.accepted revivedStore.property (by decide +kernel)
    (show IsDatetime (691200 * 1000000) by decide) with ⟨msg, snap, digest, hbuild, hdecode⟩
  refine ⟨msg, snap, digest, hbuild, hdecode, by decide, ?_⟩
  rw [hhistory.authenticatesAs_iff ⟨_, _, _, _, _, _, by decide, hbuild, hdecode⟩, run_twice]
  refine ⟨_, mem_append_left _ (mem_cons_self ..), rfl, rfl, .inr ?_⟩
  change _ ≤ expiresAt (1296000 * 1000000)
  rw [expiresAt_seconds (by decide) (by decide)]
  decide

end ModelGateway.Control
