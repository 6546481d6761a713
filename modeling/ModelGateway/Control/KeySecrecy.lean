import ModelGateway.Control.Keys
import ModelGateway.Lib.Runs

/-!
This module contains what the tables keep of a minted secret: two databases that differ by the secrets only
differ by lookups and stored bodies only.
-/

namespace ModelGateway.Control.Keys

open List Except

namespace Database

def hideLookups (db : Database) : Database :=
  { db with apiKeys := db.apiKeys.map fun row => { row with lookup := [] } }

def SameButLookups (db db' : Database) : Prop :=
  db.hideLookups = db'.hideLookups

def bodies (db : Database) : List Str :=
  db.idempotencyRecords.map (·.responseBody)

end Database

def IdempotencyRecord.hideBody (r : IdempotencyRecord) : IdempotencyRecord :=
  { r with responseBody := [] }

structure Alike (db db' : Database) : Prop where
  tenants : db.tenants = db'.tenants
  keyPrefixes : db.keyPrefixes = db'.keyPrefixes
  columns : db.apiKeys.map (·.columns) = db'.apiKeys.map (·.columns)
  keyRoles : db.keyRoles = db'.keyRoles
  keyModels : db.keyModels = db'.keyModels
  keyBudgets : db.keyBudgets = db'.keyBudgets
  records : db.idempotencyRecords.map (·.hideBody) = db'.idempotencyRecords.map (·.hideBody)

section

variable {db db' : Database}

theorem Alike.refl (db : Database) : Alike db db :=
  ⟨rfl, rfl, rfl, rfl, rfl, rfl, rfl⟩

theorem map_hideLookup_eq_iff {rows rows' : List ApiKey}
    : (rows.map fun row => { row with lookup := [] }) = (rows'.map fun row => { row with lookup := [] })
        ↔
      rows.map (·.columns) = rows'.map (·.columns) := by
  have hmap : ∀ rows : List ApiKey, (rows.map fun row => { row with lookup := [] })
      = (rows.map (·.columns)).map fun columns => ⟨columns, []⟩ := by
    intro rows
    rw [map_map]
    rfl
  rw [hmap, hmap]
  apply List.map_inj_right
  intro x y h
  exact (ApiKey.mk.inj h).1

theorem records_eq_iff {rs rs' : List IdempotencyRecord}
    : rs = rs' ↔ rs.map (·.hideBody) = rs'.map (·.hideBody) ∧
        rs.map (·.responseBody) = rs'.map (·.responseBody) := by
  constructor
  . intro h
    rw [h]
    exact ⟨rfl, rfl⟩
  . rintro ⟨h, h'⟩
    induction rs generalizing rs' with
    | nil => simpa using h.symm
    | cons r rs ih =>
      cases rs' with
      | nil => simp at h
      | cons r' rs' =>
        simp only [map_cons, List.cons.injEq] at h h'
        rw [ih h.2 h'.2]
        rcases r with ⟨_, _, _, _, _⟩
        simp only [IdempotencyRecord.hideBody, IdempotencyRecord.mk.injEq] at h h'
        simp [h.1, h'.1]

variable (h : Alike db db')

include h

theorem sameButLookups_iff : db.SameButLookups db' ↔ db.bodies = db'.bodies := by
  unfold Database.SameButLookups Database.hideLookups Database.bodies
  rw [Database.mk.injEq, map_hideLookup_eq_iff, records_eq_iff]
  simp [h.tenants, h.keyPrefixes, h.columns, h.keyRoles, h.keyModels, h.keyBudgets, h.records]

theorem Alike.key (id : Str) : db.key id = db'.key id := by
  unfold Database.key
  rw [h.columns]

theorem Alike.firstPrefix (tenantID : Str)
    : db.firstPrefix tenantID = db'.firstPrefix tenantID := by
  unfold Database.firstPrefix
  rw [h.keyPrefixes]

theorem Alike.record_isSome (key endpoint : Str)
    : (db.record key endpoint).isSome = (db'.record key endpoint).isSome := by
  have hrecord : ∀ db : Database, (db.record key endpoint).isSome
      = ((db.idempotencyRecords.map (·.hideBody)).find? fun r =>
          r.key = key ∧ r.endpoint = endpoint).isSome := by
    intro db
    rw [List.find?_map, Option.isSome_map]
    rfl
  rw [hrecord, hrecord, h.records]

theorem Alike.bumpTenantVersion (tenantID : Str)
    : Alike (db.bumpTenantVersion tenantID) (db'.bumpTenantVersion tenantID) := by
  unfold Database.bumpTenantVersion
  rw [h.tenants]
  split
  . exact h
  . exact { h with tenants := rfl }

theorem Alike.markDeprecated (keyID : Str) (notAfter : Int)
    : Alike (db.markDeprecated keyID notAfter) (db'.markDeprecated keyID notAfter) := by
  have hcolumns : ∀ db : Database, (db.markDeprecated keyID notAfter).apiKeys.map (·.columns)
      = (db.apiKeys.map (·.columns)).map fun columns =>
          if columns.id = keyID then { columns with deprecated := true, notAfter := some notAfter }
          else columns := by
    intro db
    unfold Database.markDeprecated
    rw [map_map, map_map]
    apply map_congr_left
    intro row _
    dsimp only [Function.comp]
    split
    . rfl
    . rfl
  refine { h with columns := ?_ }
  rw [hcolumns, hcolumns, h.columns]

end

section

variable (s : Settings)

def Mintable (pre keyID : Str) : Prop :=
  pre ≠ [] ∧ pre.contains 0x5f = false ∧ keyID ≠ [] ∧ minPepperBytes ≤ s.pepper.length

variable {secret : Secret}

theorem issueKey_eq_ok_iff {pre keyID : Str} {key : IssuedKey}
    : issueKey s pre keyID secret = .ok key ↔ Mintable s pre keyID ∧
        key = ⟨keyID, pre, presented pre secret, s.hmac s.pepper secret.val⟩ := by
  unfold issueKey computeKeyLookup Mintable
  cases hscore : pre.contains 0x5f with
  | true => simp
  | false =>
    by_cases hpre : pre = []
    . simp [hpre]
    . by_cases hid : keyID = []
      . simp [hpre, hid]
      . by_cases hpepper : s.pepper.length < minPepperBytes
        . simp [hpre, hid, hpepper]
        . simp [hpre, hid, hpepper, Nat.not_lt.mp hpepper, eq_comm]

def FreshFor (db : Database) (secret : Secret) : Prop :=
  s.hmac s.pepper secret.val ∉ db.lookups

structure Issuable (db : Database) (tenantID : Str) (body : IssueKeyRequest) : Prop where
  owned : body.applicationID.isNone ≠ body.userID.isNone
  tenant : (db.tenants.lookup tenantID).isSome
  free : db.key body.keyID = none
  mintable : ∃ pre, db.firstPrefix tenantID = .ok pre ∧ Mintable s pre body.keyID
  accepted : ∃ tier, trustTier s body.minTrustTier = .ok tier ∧
    s.acceptsKey (body.columns tenantID tier) = true

def Heritable (db : Database) (keyID successorID : Str) : Prop :=
  ∀ grants ∈ [db.keyRoles, db.keyModels, db.keyBudgets],
    ∀ g ∈ Database.inherited grants keyID successorID, g ∉ grants

structure Rotatable (db : Database) (call : Call) (keyID : Str) (newKeyID : Option Str)
    (existing : KeyColumns) : Prop where
  key : db.key keyID = some existing
  unrevoked : existing.revokedAt = none
  free : db.key (successorID keyID newKeyID call.namedAt) = none
  mintable : ∃ pre, db.firstPrefix existing.tenantID = .ok pre ∧
    Mintable s pre (successorID keyID newKeyID call.namedAt)
  accepted : s.acceptsKey (existing.successor (successorID keyID newKeyID call.namedAt)) = true
  heritable : Heritable db keyID (successorID keyID newKeyID call.namedAt)

def Call.Mints (db : Database) (call : Call) : Prop :=
  match call.operation with
  | .issueKey tenantID body => Issuable s db tenantID body
  | .rotateKey keyID body => ∃ existing, Rotatable s db call keyID body.newKeyID existing

def Operation.endpoint : Operation → Str
  | .issueKey _ _ => str "issue_key"
  | .rotateKey _ _ => str "rotate_key"

def Call.Remembers (db : Database) (call : Call) : Prop :=
  call.Mints s db ∧ call.dryRun = false ∧
    ∃ key, call.retryKey = some key ∧ db.record key call.operation.endpoint = none ∧
      s.acceptsRecord key = true

variable {s} {db : Database}

def Database.inserted (db : Database) (row : ApiKey) : Database :=
  { db with apiKeys := db.apiKeys ++ [row] }

def Database.withInherited (db : Database) (keyID successorID : Str) : Database :=
  { db with
    keyRoles := db.keyRoles ++ inherited db.keyRoles keyID successorID
    keyModels := db.keyModels ++ inherited db.keyModels keyID successorID
    keyBudgets := db.keyBudgets ++ inherited db.keyBudgets keyID successorID }

variable {out : Database}

theorem insertKey_eq_ok_iff {columns : KeyColumns}
    : db.insertKey s ⟨columns, s.hmac s.pepper secret.val⟩ = .ok out
        ↔
      FreshFor s db secret ∧ s.acceptsKey columns = true ∧
        db.inserted ⟨columns, s.hmac s.pepper secret.val⟩ = out := by
  unfold Database.insertKey Database.inserted FreshFor
  cases s.acceptsKey columns with
  | false => simp
  | true => simp

theorem inherit_eq_ok_iff {keyID successorID : Str}
    : db.inherit keyID successorID = .ok out
        ↔
      Heritable db keyID successorID ∧ db.withInherited keyID successorID = out := by
  unfold Database.inherit Database.withInherited
  have hiff : ([db.keyRoles, db.keyModels, db.keyBudgets].all fun grants =>
      (Database.inherited grants keyID successorID).all fun g => !grants.contains g) = true
      ↔ Heritable db keyID successorID := by
    unfold Heritable
    simp only [all_eq_true, Bool.not_eq_true', contains_eq_mem, decide_eq_false_iff_not]
  split
  . next h => simp [hiff.mp h]
  . next h =>
    have h := mt hiff.mpr h
    simp [h]

theorem issue_eq_ok_iff {tenantID : Str} {body : IssueKeyRequest} {tier : Int} {minted : NewKey}
    : issue s db secret tenantID body tier = .ok (minted, out) ↔ FreshFor s db secret ∧
      body.applicationID.isNone ≠ body.userID.isNone ∧
      (db.tenants.lookup tenantID).isSome ∧
      db.key body.keyID = none ∧
      ∃ pre, db.firstPrefix tenantID = .ok pre ∧ Mintable s pre body.keyID ∧
        s.acceptsKey (body.columns tenantID tier) = true ∧
        minted = ⟨body.keyID, presented pre secret⟩ ∧
        out = (db.inserted ⟨body.columns tenantID tier, s.hmac s.pepper secret.val⟩
          ).bumpTenantVersion tenantID := by
  unfold issue
  simp only [ite_error_eq_ok_iff, bind_eq_ok_iff, issueKey_eq_ok_iff, ok.injEq]
  constructor
  . rintro ⟨howned, htenant, hfree, pre, hpre, _, ⟨hmintable, rfl⟩, db₁, hinsert, hout⟩
    rcases insertKey_eq_ok_iff.mp hinsert with ⟨hfresh, haccepted, rfl⟩
    rw [Prod.mk.injEq] at hout
    rw [Option.isNone_iff_eq_none, ← ne_eq, ← Option.isSome_iff_ne_none] at htenant
    exact ⟨hfresh, howned, htenant, by simpa using hfree, pre, hpre, hmintable, haccepted,
      hout.1.symm, hout.2.symm⟩
  . rintro ⟨hfresh, howned, htenant, hfree, pre, hpre, hmintable, haccepted, rfl, rfl⟩
    rw [Option.isSome_iff_ne_none, ne_eq, ← Option.isNone_iff_eq_none] at htenant
    refine ⟨howned, htenant, by simp [hfree], pre, hpre, _, ⟨hmintable, rfl⟩, _,
      insertKey_eq_ok_iff.mpr ⟨hfresh, haccepted, rfl⟩, rfl⟩

theorem rotate_eq_ok_iff {call : Call} {keyID : Str}
    {newKeyID : Option Str} {minted : NewKey} {out : Database}
    : rotate s db secret keyID newKeyID call.namedAt call.deprecatedAt = .ok (minted, out)
        ↔
      FreshFor s db secret ∧ ∃ existing, Rotatable s db call keyID newKeyID existing ∧
        ∃ pre, db.firstPrefix existing.tenantID = .ok pre ∧
          minted = ⟨successorID keyID newKeyID call.namedAt, presented pre secret⟩ ∧
          out = ((((db.inserted
            ⟨existing.successor (successorID keyID newKeyID call.namedAt),
              s.hmac s.pepper secret.val⟩).withInherited
            keyID (successorID keyID newKeyID call.namedAt)).markDeprecated
            keyID (call.deprecatedAt + s.overlap)).bumpTenantVersion existing.tenantID) := by
  unfold rotate
  generalize hid : successorID keyID newKeyID call.namedAt = id
  cases hkey : db.key keyID with
  | none =>
    simp only [reduceCtorEq, false_iff]
    rintro ⟨_, existing, h, _⟩
    rw [h.key] at hkey
    cases hkey
  | some existing =>
    simp only [ite_error_eq_ok_iff, bind_eq_ok_iff, issueKey_eq_ok_iff, ok.injEq]
    constructor
    . rintro ⟨hunrevoked, hfree, pre, hpre, _, ⟨hmintable, rfl⟩, db₁, hinsert, db₂, hinherit, hout⟩
      rcases insertKey_eq_ok_iff.mp hinsert with ⟨hfresh, haccepted, rfl⟩
      rw [inherit_eq_ok_iff] at hinherit
      rw [← hinherit.2, Prod.mk.injEq] at hout
      refine ⟨hfresh, existing, ?_, pre, hpre, hout.1.symm, hout.2.symm⟩
      subst hid
      exact ⟨hkey, by simpa using hunrevoked, by simpa using hfree, ⟨pre, hpre, hmintable⟩,
        haccepted, hinherit.1⟩
    . rintro ⟨hfresh, existing', hrotatable, pre, hpre, rfl, rfl⟩
      have hsame : existing' = existing := by
        have := hrotatable.key
        rw [hkey] at this
        exact (Option.some.inj this).symm
      subst hsame
      rcases hrotatable.mintable with ⟨pre', hpre', hmintable⟩
      rw [hpre] at hpre'
      cases hpre'
      have hfree := hrotatable.free
      have haccepted := hrotatable.accepted
      have hheritable := hrotatable.heritable
      rw [hid] at hmintable hfree haccepted hheritable
      refine ⟨by simp [hrotatable.unrevoked], by simp [hfree], pre, hpre, _, ⟨hmintable, rfl⟩, _,
        insertKey_eq_ok_iff.mpr ⟨hfresh, haccepted, rfl⟩, _,
        inherit_eq_ok_iff.mpr ⟨hheritable, rfl⟩, rfl⟩

theorem mint_isOk_iff (hfresh : FreshFor s db secret) {call : Call}
    : (∃ minted out, mint s db call secret = .ok (minted, out)) ↔ call.Mints s db := by
  unfold mint Call.Mints
  cases call.operation with
  | issueKey tenantID body =>
    simp only [bind_eq_ok_iff, issue_eq_ok_iff, hfresh, true_and]
    constructor
    . rintro ⟨_, _, tier, htier, howned, htenant, hfree, pre, hpre, hmintable, haccepted, _⟩
      exact ⟨howned, htenant, hfree, ⟨pre, hpre, hmintable⟩, ⟨tier, htier, haccepted⟩⟩
    . rintro ⟨howned, htenant, hfree, ⟨pre, hpre, hmintable⟩, ⟨tier, htier, haccepted⟩⟩
      exact ⟨_, _, tier, htier, howned, htenant, hfree, pre, hpre, hmintable, haccepted, rfl, rfl⟩
  | rotateKey keyID body =>
    simp only [rotate_eq_ok_iff, hfresh, true_and]
    constructor
    . rintro ⟨_, _, existing, h, _⟩
      exact ⟨existing, h⟩
    . rintro ⟨existing, h⟩
      rcases h.mintable with ⟨pre, hpre, _⟩
      exact ⟨_, _, existing, h, pre, hpre, rfl, rfl⟩

end

section

variable {s : Settings} {db db' : Database}

variable (h : Alike db db')

include h

theorem Alike.symm : Alike db' db :=
  ⟨h.tenants.symm, h.keyPrefixes.symm, h.columns.symm, h.keyRoles.symm, h.keyModels.symm,
    h.keyBudgets.symm, h.records.symm⟩

theorem Alike.rotatable {call : Call} {keyID : Str} {newKeyID : Option Str}
    {existing : KeyColumns} (hrotatable : Rotatable s db call keyID newKeyID existing)
    : Rotatable s db' call keyID newKeyID existing := by
  rcases hrotatable with ⟨hkey, hunrevoked, hfree, hmintable, haccepted, hheritable⟩
  rw [h.key] at hkey hfree
  rw [h.firstPrefix] at hmintable
  unfold Heritable at hheritable
  rw [h.keyRoles, h.keyModels, h.keyBudgets] at hheritable
  exact ⟨hkey, hunrevoked, hfree, hmintable, haccepted, hheritable⟩

theorem Alike.inserted (columns : KeyColumns) (lookup lookup' : Str)
    : Alike (db.inserted ⟨columns, lookup⟩) (db'.inserted ⟨columns, lookup'⟩) := by
  refine { h with columns := ?_ }
  unfold Database.inserted
  rw [map_append, map_append, h.columns]
  rfl

theorem Alike.withInherited (keyID successorID : Str)
    : Alike (db.withInherited keyID successorID) (db'.withInherited keyID successorID) := by
  unfold Database.withInherited
  exact { h with
    keyRoles := by simp [h.keyRoles]
    keyModels := by simp [h.keyModels]
    keyBudgets := by simp [h.keyBudgets] }

omit h

@[simp]
theorem bumpTenantVersion_records (tenantID : Str)
    : (db.bumpTenantVersion tenantID).idempotencyRecords = db.idempotencyRecords := by
  unfold Database.bumpTenantVersion
  split <;> rfl

theorem Alike.mints (h : Alike db db') {call : Call} (hmints : call.Mints s db) : call.Mints s db' := by
  unfold Call.Mints at hmints ⊢
  split at hmints
  . rcases hmints with ⟨howned, htenant, hfree, hmintable, haccepted⟩
    rw [h.tenants] at htenant
    rw [h.key] at hfree
    rw [h.firstPrefix] at hmintable
    exact ⟨howned, htenant, hfree, hmintable, haccepted⟩
  . rcases hmints with ⟨existing, hrotatable⟩
    exact ⟨existing, h.rotatable hrotatable⟩

theorem Alike.mint (h : Alike db db') {secret secret' : Secret} (hfresh : FreshFor s db secret)
    (hfresh' : FreshFor s db' secret') {call : Call} {minted : NewKey} {out : Database}
    (hmint : mint s db call secret = .ok (minted, out))
    : ∃ keyID pre out', minted = ⟨keyID, presented pre secret⟩ ∧
        mint s db' call secret' = .ok (⟨keyID, presented pre secret'⟩, out') ∧
        Alike out out' ∧
        out.idempotencyRecords = db.idempotencyRecords ∧
        out'.idempotencyRecords = db'.idempotencyRecords := by
  unfold Keys.mint at hmint ⊢
  cases hop : call.operation with
  | issueKey tenantID body =>
    rw [hop] at hmint
    simp only [bind_eq_ok_iff, issue_eq_ok_iff, hfresh, hfresh', true_and] at hmint ⊢
    rcases hmint with ⟨tier, htier, howned, htenant, hfree, pre, hpre, hmintable, haccepted, hminted,
      rfl⟩
    rw [h.tenants] at htenant
    rw [h.key] at hfree
    rw [h.firstPrefix] at hpre
    refine ⟨body.keyID, pre, _, hminted, ⟨tier, htier, howned, htenant, hfree, pre, hpre, hmintable,
      haccepted, rfl, rfl⟩, ?_, by simp [Database.inserted], by simp [Database.inserted]⟩
    apply Alike.bumpTenantVersion
    apply h.inserted
  | rotateKey keyID body =>
    rw [hop] at hmint
    simp only [rotate_eq_ok_iff, hfresh, hfresh', true_and] at hmint ⊢
    rcases hmint with ⟨existing, hrotatable, pre, hpre, hminted, rfl⟩
    rw [h.firstPrefix] at hpre
    refine ⟨_, pre, _, hminted, ⟨existing, h.rotatable hrotatable, pre, hpre, rfl, rfl⟩, ?_, ?_, ?_⟩
    . apply Alike.bumpTenantVersion
      apply Alike.markDeprecated
      apply Alike.withInherited
      apply h.inserted
    . simp [Database.markDeprecated, Database.withInherited, Database.inserted]
    . simp [Database.markDeprecated, Database.withInherited, Database.inserted]

theorem jsonByte_of_urlSafe {b : UInt8} (h : urlSafe b = true) : jsonByte b = [b] := by
  have hne : ∀ c : UInt8, urlSafe c = false → b ≠ c := by
    intro c hc hbc
    rw [hbc, hc] at h
    cases h
  have hlow : ¬ b < 0x20 := by
    simp only [urlSafe, Bool.or_eq_true, Bool.and_eq_true, decide_eq_true_eq, UInt8.le_iff_toNat_le,
      UInt8.lt_iff_toNat_lt, UInt8.ext_iff] at h ⊢
    simp at h ⊢
    omega
  unfold jsonByte
  rw [if_neg (hne _ (by decide)), if_neg (hne _ (by decide)), if_neg (hne _ (by decide)),
    if_neg (hne _ (by decide)), if_neg (hne _ (by decide)), if_neg (hne _ (by decide)),
    if_neg (hne _ (by decide)), if_neg hlow]

theorem jsonString_presented (pre : Str) (secret : Secret)
    : jsonString (presented pre secret)
        =
      str "\"" ++ (keyScheme ++ pre ++ str "_").flatMap jsonByte ++ secret.val ++ str "\"" := by
  have hsecret : secret.val.flatMap jsonByte = secret.val := by
    have hbytes := all_eq_true.mp secret.property.2
    rw [flatMap_congr fun b hb => jsonByte_of_urlSafe (hbytes b hb)]
    simp
  unfold jsonString presented
  rw [flatMap_append, hsecret]
  simp

theorem response_inj {keyID pre : Str} {secret secret' : Secret}
    : NewKey.response ⟨keyID, presented pre secret⟩ = NewKey.response ⟨keyID, presented pre secret'⟩
        ↔
      secret = secret' := by
  constructor
  . intro h
    unfold NewKey.response jsonDumps at h
    simp only [map_cons, map_nil, intercalate, List.intersperse, flatten,
      jsonString_presented, append_assoc, append_cancel_left_eq] at h
    simpa [Subtype.ext_iff] using h
  . intro h
    rw [h]

end

section

variable {s : Settings} {db db' : Database} {call : Call} {secret secret' : Secret}

def Operation.status : Operation → Nat
  | .issueKey _ _ => 201
  | .rotateKey _ _ => 200

theorem serve_eq
    : serve s db call secret
        =
      mutate s db call call.operation.endpoint call.operation.status (mint s db call secret) := by
  unfold serve
  cases call.operation with
  | issueKey tenantID body => rfl
  | rotateKey keyID body => rfl

def Call.Stops (s : Settings) (db : Database) (call : Call) : Prop :=
  ¬ call.Mints s db ∨ call.dryRun = true ∨ ∃ key, call.retryKey = some key ∧
      ((db.record key call.operation.endpoint).isSome = true ∨ s.acceptsRecord key = false)

theorem serve_of_stops (hfresh : FreshFor s db secret) (hstops : call.Stops s db)
    : (serve s db call secret).2 = db := by
  rw [serve_eq]
  unfold mutate
  split
  . rfl
  . rfl
  . next hreplay =>
    split
    . rfl
    . next minted out hmint =>
      split
      . rfl
      . next hdry =>
        split
        . rfl
        . next hremember =>
          exfalso
          rcases hstops with hmints | hdry' | ⟨key, hkey, hrecord | haccepts⟩
          . exact hmints ((mint_isOk_iff hfresh).mp ⟨_, _, hmint⟩)
          . exact hdry hdry'
          . rw [hkey, Option.elim_some] at hreplay
            unfold Database.replay at hreplay
            rcases Option.isSome_iff_exists.mp hrecord with ⟨_, hrecord⟩
            rw [hrecord] at hreplay
            dsimp only at hreplay
            split at hreplay
            . simp at hreplay
            . simp at hreplay
          . rw [hkey, Option.elim_some] at hremember
            unfold Database.remember at hremember
            simp [haccepts] at hremember

theorem serve_of_unkeyed (hkey : call.retryKey = none) (hdry : call.dryRun = false) {minted : NewKey}
    {out : Database} (hmint : mint s db call secret = .ok (minted, out))
    : (serve s db call secret).2 = out := by
  rw [serve_eq]
  unfold mutate
  simp [hkey, hdry, hmint]

theorem serve_of_keyed {key : Str} (hkey : call.retryKey = some key)
    (hrecord : db.record key call.operation.endpoint = none) (haccepts : s.acceptsRecord key = true)
    (hdry : call.dryRun = false) {minted : NewKey} {out : Database}
    (hmint : mint s db call secret = .ok (minted, out))
    : (serve s db call secret).2 = { out with
        idempotencyRecords := out.idempotencyRecords ++
          [⟨key, call.operation.endpoint, fingerprint s call.operation.payload,
            call.operation.status, minted.response⟩] } := by
  rw [serve_eq]
  unfold mutate Database.replay Database.remember
  simp [hkey, hrecord, haccepts, hdry, hmint]

theorem Alike.stops (h : Alike db db') (hstops : call.Stops s db) : call.Stops s db' := by
  rcases hstops with hmints | hdry | ⟨key, hkey, hrecord | haccepts⟩
  . exact .inl (mt h.symm.mints hmints)
  . exact .inr (.inl hdry)
  . rw [h.record_isSome] at hrecord
    exact .inr (.inr ⟨key, hkey, .inl hrecord⟩)
  . exact .inr (.inr ⟨key, hkey, .inr haccepts⟩)

theorem Alike.serve (h : Alike db db') (hfresh : FreshFor s db secret)
    (hfresh' : FreshFor s db' secret')
    : Alike (serve s db call secret).2 (serve s db' call secret').2 ∧
      ((serve s db call secret).2.bodies = (serve s db' call secret').2.bodies
          ↔
        db.bodies = db'.bodies ∧ (secret = secret' ∨ ¬ call.Remembers s db)) := by
  by_cases hstops : call.Stops s db
  . have hforgets : ¬ call.Remembers s db := by
      rintro ⟨hmints, hdry, key, hkey, hrecord, haccepts⟩
      rcases hstops with hstops | hstops | ⟨key', hkey', hstops⟩
      . exact hstops hmints
      . rw [hdry] at hstops
        cases hstops
      . rw [hkey] at hkey'
        cases hkey'
        simp [hrecord, haccepts] at hstops
    rw [serve_of_stops hfresh hstops, serve_of_stops hfresh' (h.stops hstops)]
    exact ⟨h, by simp [hforgets]⟩
  . unfold Call.Stops at hstops
    simp only [not_or, not_not, not_exists, not_and, Bool.not_eq_true, Bool.not_eq_false,
      Option.isSome_eq_false_iff, Option.isNone_iff_eq_none] at hstops
    rcases hstops with ⟨hmints, hdry, hkeyed⟩
    rcases (mint_isOk_iff hfresh).mpr hmints with ⟨_, out, hmint⟩
    rcases h.mint hfresh hfresh' hmint with ⟨_, pre, out', rfl, hmint', hout, hkept, hkept'⟩
    cases hkey : call.retryKey with
    | none =>
      have hforgets : ¬ call.Remembers s db := by
        rintro ⟨_, _, key, hkey', _⟩
        rw [hkey] at hkey'
        cases hkey'
      rw [serve_of_unkeyed hkey hdry hmint, serve_of_unkeyed hkey hdry hmint']
      refine ⟨hout, ?_⟩
      unfold Database.bodies
      simp [hkept, hkept', hforgets]
    | some key =>
      rcases hkeyed key hkey with ⟨hrecord, haccepts⟩
      have hrecord' : db'.record key call.operation.endpoint = none := by
        have := h.record_isSome key call.operation.endpoint
        rw [hrecord] at this
        simpa using this.symm
      have hremembers : call.Remembers s db := ⟨hmints, hdry, key, hkey, hrecord, haccepts⟩
      rw [serve_of_keyed hkey hrecord haccepts hdry hmint,
        serve_of_keyed hkey hrecord' haccepts hdry hmint']
      constructor
      . refine { hout with records := ?_ }
        rw [map_append, map_append, hout.records]
        rfl
      . unfold Database.bodies
        rw [hkept, hkept', map_append, map_append, append_eq_append_iff_of_size_eq_right]
        . simp [response_inj, hremembers]
        . rfl

end

structure Attempt where
  call : Call
  secret : Secret
  secret' : Secret

variable (s : Settings)

def Fresh (db : Database) (calls : List (Call × Secret)) : Prop :=
  Throughout (fun db c => (serve s db c.1 c.2).2) (fun db c => FreshFor s db c.2) db calls

theorem secrets_unseen_iff (db : Database) (attempts : List Attempt)
    (hfresh : Fresh s db (attempts.map fun a => (a.call, a.secret)))
    (hfresh' : Fresh s db (attempts.map fun a => (a.call, a.secret')))
    : (run s db (attempts.map fun a => (a.call, a.secret))).SameButLookups
        (run s db (attempts.map fun a => (a.call, a.secret')))
        ↔
      Throughout (fun db a => (serve s db a.call a.secret).2)
        (fun db a => a.secret = a.secret' ∨ ¬ a.call.Remembers s db) db attempts := by
  unfold Fresh at hfresh hfresh'
  rw [throughout_map] at hfresh hfresh'
  unfold run
  rw [foldl_map, foldl_map]
  have hruns := @foldl_agree_iff _ _ _ _ _ _
    (fun db a => a.secret = a.secret' ∨ ¬ a.call.Remembers s db) Alike
    (fun db db' => db.bodies = db'.bodies)
    (fun db db' a h hf hf' => @Alike.serve s db db' a.call a.secret a.secret' h hf hf')
    attempts _ _ (Alike.refl db) hfresh hfresh'
  exact (sameButLookups_iff hruns.1).trans (hruns.2.trans (and_iff_right rfl))

namespace Sample

def settings : Settings where
  pepper := replicate 32 0
  overlap := 0
  hmac := fun _ secret => secret.take 32
  sha256 := fun _ => replicate 32 0
  upper := id
  acceptsKey := fun _ => true
  acceptsRecord := fun _ => true

def database : Database where
  tenants := (∅ : GoMap Str Int).insert (str "acme") 1
  keyPrefixes := [(str "acme", str "acme")]
  apiKeys := []
  keyRoles := []
  keyModels := []
  keyBudgets := []
  idempotencyRecords := []

def issueRequest : IssueKeyRequest where
  keyID := str "key-1"
  applicationID := some (str "app-1")
  userID := none
  modelsAllowAll := false
  minTrustTier := str "EXTERNAL"
  requestsPerMinute := 0
  tokensPerMinute := 0
  maxConcurrent := 0

def secret (b : Fin 10) : Secret :=
  ⟨replicate 43 (0x30 + UInt8.ofNat b), by simp, by revert b; decide +kernel⟩

def issueCall (idempotencyKey : Option Str) : Call where
  operation := .issueKey (str "acme") issueRequest
  dryRun := false
  idempotencyKey := idempotencyKey
  namedAt := 0
  deprecatedAt := 0

def rotateCall : Call where
  operation := .rotateKey (str "key-1") ⟨some (str "key-2")⟩
  dryRun := false
  idempotencyKey := none
  namedAt := 0
  deprecatedAt := 0

def unkeyed : List Attempt :=
  [⟨issueCall none, secret 0, secret 1⟩, ⟨rotateCall, secret 2, secret 3⟩]

def keyed : Attempt := ⟨issueCall (some (str "abc-123")), secret 0, secret 1⟩

end Sample

open Sample

theorem secrets_unseen_unkeyed
    : (run settings database (unkeyed.map fun a => (a.call, a.secret))
        ).SameButLookups
      (run settings database (unkeyed.map fun a => (a.call, a.secret'))) := by
  apply (secrets_unseen_iff settings database unkeyed ?_ ?_).mpr
  . have hkeys : ∀ a ∈ unkeyed, a.call.retryKey = none := by decide
    have hforgets : ∀ db, ∀ a ∈ unkeyed, ¬ a.call.Remembers settings db := by
      rintro db a ha ⟨_, _, key, hkey, _⟩
      rw [hkeys a ha] at hkey
      cases hkey
    exact ⟨.inr (hforgets _ _ (by simp [unkeyed])),
      .inr (hforgets _ _ (by simp [unkeyed])), trivial⟩
  . refine ⟨?_, ?_, trivial⟩
    . change settings.hmac _ _ ∉ _
      decide +kernel
    . change settings.hmac _ _ ∉ _
      decide +kernel
  . refine ⟨?_, ?_, trivial⟩
    . change settings.hmac _ _ ∉ _
      decide +kernel
    . change settings.hmac _ _ ∉ _
      decide +kernel

theorem presented_key_stored
    : Fresh settings database [(keyed.call, keyed.secret)] ∧
      Fresh settings database [(keyed.call, keyed.secret')] ∧
      ¬ (run settings database [(keyed.call, keyed.secret)]
        ).SameButLookups
        (run settings database [(keyed.call, keyed.secret')]) ∧
      (run settings database [(keyed.call, keyed.secret)]).bodies
        = [str "\x7b\"key_id\": \"key-1\", \"presented\": \"gw_acme_" ++ keyed.secret.val
            ++ str "\"\x7d"] := by
  refine ⟨⟨?_, trivial⟩, ⟨?_, trivial⟩, ?_, ?_⟩
  . change settings.hmac _ _ ∉ _
    decide +kernel
  . change settings.hmac _ _ ∉ _
    decide +kernel
  . intro h
    have hbodies := congrArg Database.bodies h
    revert hbodies
    decide +kernel
  . decide +kernel

end ModelGateway.Control.Keys
