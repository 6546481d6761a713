import ModelGateway.Core.Basic
import ModelGateway.Lib.Distinct

/-!
This module contains the accountant: usage events become records once, and each record charges the budgets
that it names.
-/

namespace ModelGateway.Accounting

open List

structure UsageEvent where
  requestID : Str
  timestampUnixMs : Int
  tenant : Str
  keyID : Str
  usage : TokenUsage
  costMicroUSD : Int
  priceMicroUSD : Int
  outcome : Str
  deployment : Str
  shadow : Bool
  baseModel : Str
  adapterID : Str
  provider : Str
  stream : Bool
  latencyMs : Int
  timeToFirstByteMs : Int
  snapshotVersion : Nat
  budgetIDs : List Str

structure UsageRecord where
  requestID : Str
  tenantID : Str
  keyID : Str
  usage : TokenUsage
  costMicroUSD : Int
  priceMicroUSD : Int
  outcome : Str
  deployment : Str
  shadow : Bool
  baseModel : Str
  adapterID : Str
  provider : Str
  stream : Bool
  latencyMs : Int
  timeToFirstByteMs : Int
  snapshotVersion : Nat

structure Budget where
  tenantID : Str
  spentMicroUSD : Int

structure Database where
  usageRecords : List UsageRecord
  budgets : GoMap Str Budget
  tenants : GoMap Str Nat
  primaryKey : (usageRecords.map (·.requestID)).Nodup
  foreignKey : ∀ id b, budgets.lookup id = some b → b.tenantID ∈ tenants

namespace Database

def insertUsageRecord (db : Database) (r : UsageRecord) : Nat × Database :=
  if h : r.requestID ∈ db.usageRecords.map (·.requestID) then
    (0, db)
  else
    (1, { db with
      usageRecords := db.usageRecords ++ [r]
      primaryKey := by
        rw [map_append, map_singleton, nodup_append]
        refine ⟨db.primaryKey, nodup_singleton _, ?_⟩
        intro a ha b hb hab
        rw [mem_singleton] at hb
        exact h (hb ▸ hab ▸ ha) })

def updateSpent (db : Database) (id tenant : Str) (price : Int) : Nat × Database :=
  match h : db.budgets.lookup id with
  | none => (0, db)
  | some b =>
    if b.tenantID = tenant then
      (1, { db with
        budgets := db.budgets.insert id { b with spentMicroUSD := b.spentMicroUSD + price }
        foreignKey := by
          intro id' b' hb'
          by_cases hid : id' = id
          . subst hid
            rw [AList.lookup_insert] at hb'
            rw [← Option.some.inj hb']
            apply db.foreignKey id' b h
          . rw [AList.lookup_insert_ne hid] at hb'
            apply db.foreignKey id' b' hb' })
    else
      (0, db)

def updateVersion (db : Database) (tenant : Str) : Database :=
  match db.tenants.lookup tenant with
  | none => db
  | some version =>
    { db with
      tenants := db.tenants.insert tenant (version + 1)
      foreignKey := by
        intro id b hb
        rw [AList.mem_insert]
        exact .inr (db.foreignKey id b hb) }

end Database

structure ApplyResult where
  applied : Nat
  duplicates : Nat
  unknownBudgets : Nat
  tenantsTouched : List Str

def ApplyResult.zero : ApplyResult := ⟨0, 0, 0, []⟩

def UsageEvent.values (e : UsageEvent) : UsageRecord where
  requestID := e.requestID
  tenantID := e.tenant
  keyID := e.keyID
  usage := e.usage
  costMicroUSD := e.costMicroUSD
  priceMicroUSD := e.priceMicroUSD
  outcome := e.outcome
  deployment := e.deployment
  shadow := e.shadow
  baseModel := e.baseModel
  adapterID := e.adapterID
  provider := e.provider
  stream := e.stream
  latencyMs := e.latencyMs
  timeToFirstByteMs := e.timeToFirstByteMs
  snapshotVersion := e.snapshotVersion

structure Accountant where
  session : Database
  result : ApplyResult

namespace Accountant

def duplicate (a : Accountant) : Accountant :=
  { a with result := { a.result with duplicates := a.result.duplicates + 1 } }

def record (a : Accountant) (e : UsageEvent) : Bool × Accountant :=
  if e.requestID = [] then
    -- without an id there is no way to tell a redelivery
    (false, a.duplicate)
  else
    let (rows, session) := a.session.insertUsageRecord e.values
    if rows = 0 then
      (false, a.duplicate)
    else
      (true, ⟨session, { a.result with applied := a.result.applied + 1 }⟩)

def chargeBudget (e : UsageEvent) (a : Accountant) (id : Str) : Accountant :=
  let (rows, session) := a.session.updateSpent id e.tenant e.priceMicroUSD
  if rows = 0 then
    ⟨session, { a.result with unknownBudgets := a.result.unknownBudgets + 1 }⟩
  else
    ⟨session, { a.result with tenantsTouched := a.result.tenantsTouched.insert e.tenant }⟩

def charge (a : Accountant) (e : UsageEvent) : Accountant :=
  if e.budgetIDs = [] || e.priceMicroUSD ≤ 0 then
    a
  else
    e.budgetIDs.foldl (chargeBudget e) a

def applyEvent (a : Accountant) (e : UsageEvent) : Accountant :=
  let (recorded, a) := a.record e
  if recorded then a.charge e else a

def bumpVersions (db : Database) (tenants : List Str) : Database :=
  (tenants.mergeSort fun s t => s ≤ t).foldl Database.updateVersion db

end Accountant

def Database.apply (db : Database) (events : List UsageEvent) : Database × ApplyResult :=
  let a := events.foldl Accountant.applyEvent ⟨db, .zero⟩
  (Accountant.bumpVersions a.session a.result.tenantsTouched, a.result)

def due (tenant id : Str) (e : UsageEvent) : Int :=
  if e.tenant = tenant ∧ 0 < e.priceMicroUSD then
    e.priceMicroUSD * e.budgetIDs.count id
  else
    0

def Budget.charged (b : Budget) (amount : Int) : Budget :=
  { b with spentMicroUSD := b.spentMicroUSD + amount }

namespace Database

def ids (db : Database) : List Str :=
  db.usageRecords.map (·.requestID)

theorem insertUsageRecord_cases (db : Database) (r : UsageRecord)
    : (r.requestID ∈ db.ids ∧ db.insertUsageRecord r = (0, db)) ∨
      (r.requestID ∉ db.ids ∧ (db.insertUsageRecord r).1 = 1 ∧
        (db.insertUsageRecord r).2.usageRecords = db.usageRecords ++ [r] ∧
        (db.insertUsageRecord r).2.budgets = db.budgets ∧
        (db.insertUsageRecord r).2.tenants = db.tenants) := by
  unfold insertUsageRecord
  split
  . next h => exact .inl ⟨h, rfl⟩
  . next h => exact .inr ⟨h, rfl, rfl, rfl, rfl⟩

theorem updateSpent_lookup (db : Database) (id tenant : Str) (price : Int) (id' : Str)
    : (db.updateSpent id tenant price).2.budgets.lookup id' = (db.budgets.lookup id').map fun b =>
        Budget.charged b (if id' = id ∧ b.tenantID = tenant then price else 0) := by
  unfold updateSpent
  split
  . next hid =>
    by_cases hsame : id' = id
    . rw [hsame, hid]
      rfl
    . cases db.budgets.lookup id' <;> simp [hsame, Budget.charged]
  . next b hid =>
    by_cases hsame : id' = id
    . subst hsame
      split
      . next htenant => simp [hid, Budget.charged, htenant]
      . next htenant => simp [hid, Budget.charged, htenant]
    . split <;> cases hb : db.budgets.lookup id' <;> simp_all [Budget.charged]

theorem updateSpent_tables (db : Database) (id tenant : Str) (price : Int)
    : (db.updateSpent id tenant price).2.usageRecords = db.usageRecords ∧
      (db.updateSpent id tenant price).2.tenants = db.tenants := by
  unfold updateSpent
  split
  . exact ⟨rfl, rfl⟩
  . split <;> exact ⟨rfl, rfl⟩

theorem updateSpent_rows_ne_zero_iff (db : Database) (id tenant : Str) (price : Int)
    : (db.updateSpent id tenant price).1 ≠ 0 ↔ ∃ b, db.budgets.lookup id = some b ∧ b.tenantID = tenant := by
  unfold updateSpent
  split
  . next hnone => simp [hnone]
  . next b hsome =>
    split
    . next htenant => simp [hsome, htenant]
    . next htenant => simp [hsome, htenant]

theorem updateVersion_tables (db : Database) (tenant : Str)
    : (db.updateVersion tenant).usageRecords = db.usageRecords ∧
      (db.updateVersion tenant).budgets = db.budgets := by
  unfold updateVersion
  split <;> exact ⟨rfl, rfl⟩

theorem updateVersion_lookup (db : Database) (tenant t : Str)
    : (db.updateVersion tenant).tenants.lookup t
        =
      (db.tenants.lookup t).map fun v => v + if t = tenant then 1 else 0 := by
  unfold updateVersion
  by_cases ht : t = tenant
  . subst ht
    split
    . next hnone => simp [hnone]
    . next hsome => simp [hsome]
  . split
    . simp [ht]
    . simp [ht]

end Database

namespace Accountant

structure Charges (amount : Str → Str → Int) (a a' : Accountant) : Prop where
  budgets : ∀ id, a'.session.budgets.lookup id
    = (a.session.budgets.lookup id).map fun b => Budget.charged b (amount b.tenantID id)
  tenants : a'.session.tenants = a.session.tenants
  nonneg : ∀ t id, 0 ≤ amount t id
  charged : ∀ t, t ∈ a'.result.tenantsTouched ↔ t ∈ a.result.tenantsTouched ∨
    ∃ id b, a.session.budgets.lookup id = some b ∧ b.tenantID = t ∧ 0 < amount t id

theorem Charges.of_eq {a a' : Accountant} (hsession : a'.session.budgets = a.session.budgets)
    (htenants : a'.session.tenants = a.session.tenants)
    (htouched : a'.result.tenantsTouched = a.result.tenantsTouched)
    : Charges (fun _ _ => 0) a a' where
  budgets := by
    intro id
    rw [hsession]
    cases a.session.budgets.lookup id <;> simp [Budget.charged]
  tenants := htenants
  nonneg := by simp
  charged := by simp [htouched]

theorem Charges.trans {f g : Str → Str → Int} {a a' a'' : Accountant} (h : Charges f a a')
    (h' : Charges g a' a'')
    : Charges (fun t id => f t id + g t id) a a'' where
  budgets := by
    intro id
    rw [h'.budgets, h.budgets, Option.map_map]
    congr 1
    funext b
    simp [Budget.charged, Int.add_assoc]
  tenants := h'.tenants.trans h.tenants
  nonneg := fun t id => Int.add_nonneg (h.nonneg t id) (h'.nonneg t id)
  charged := by
    intro t
    have hlater : (∃ id b, a'.session.budgets.lookup id = some b ∧ b.tenantID = t ∧ 0 < g t id)
        ↔ ∃ id b, a.session.budgets.lookup id = some b ∧ b.tenantID = t ∧ 0 < g t id := by
      simp only [h.budgets, Option.map_eq_some_iff]
      constructor
      . rintro ⟨id, _, ⟨b, hb, rfl⟩, ht, hg⟩
        exact ⟨id, b, hb, ht, hg⟩
      . rintro ⟨id, b, hb, ht, hg⟩
        exact ⟨id, _, ⟨b, hb, rfl⟩, ht, hg⟩
    rw [h'.charged, h.charged, hlater, or_assoc]
    apply or_congr_right
    constructor
    . rintro (⟨id, b, hb, ht, hf⟩ | ⟨id, b, hb, ht, hg⟩)
      . exact ⟨id, b, hb, ht, Int.lt_of_lt_of_le hf (by have := h'.nonneg t id; omega)⟩
      . exact ⟨id, b, hb, ht, Int.lt_of_lt_of_le hg (by have := h.nonneg t id; omega)⟩
    . rintro ⟨id, b, hb, ht, hsum⟩
      by_cases hf : 0 < f t id
      . exact .inl ⟨id, b, hb, ht, hf⟩
      . exact .inr ⟨id, b, hb, ht, by omega⟩

variable (e : UsageEvent)

theorem chargeBudget_charges (hprice : 0 < e.priceMicroUSD) (a : Accountant) (id : Str)
    : Charges (fun t id' => if id' = id ∧ t = e.tenant then e.priceMicroUSD else 0) a
        (chargeBudget e a id) := by
  have htables := a.session.updateSpent_tables id e.tenant e.priceMicroUSD
  have hlookup := a.session.updateSpent_lookup id e.tenant e.priceMicroUSD
  have hrows := a.session.updateSpent_rows_ne_zero_iff id e.tenant e.priceMicroUSD
  have hnonneg : ∀ t id', 0 ≤ if id' = id ∧ t = e.tenant then e.priceMicroUSD else 0 := by
    intro t id'
    split <;> omega
  -- A row of this budget and tenant is what makes the update count.
  have hcharged : ∀ t, (∃ id' b, a.session.budgets.lookup id' = some b ∧ b.tenantID = t ∧
      0 < if id' = id ∧ t = e.tenant then e.priceMicroUSD else 0)
        ↔ t = e.tenant ∧ (a.session.updateSpent id e.tenant e.priceMicroUSD).1 ≠ 0 := by
    intro t
    rw [hrows]
    constructor
    . rintro ⟨id', b, hb, ht, hpos⟩
      split at hpos
      . next hmatch => exact ⟨hmatch.2, b, by rw [← hmatch.1, hb], by rw [ht, hmatch.2]⟩
      . exact absurd hpos (Int.lt_irrefl 0)
    . rintro ⟨rfl, b, hb, ht⟩
      exact ⟨id, b, hb, ht, by rwa [if_pos ⟨rfl, rfl⟩]⟩
  unfold chargeBudget
  dsimp only
  split
  . next hzero =>
    refine ⟨hlookup, htables.2, hnonneg, ?_⟩
    intro t
    rw [hcharged, or_iff_left fun h => h.2 hzero]
  . next hsome =>
    refine ⟨hlookup, htables.2, hnonneg, ?_⟩
    intro t
    rw [hcharged, mem_insert_iff, and_iff_left hsome, or_comm]

theorem chargeBudget_usageRecords (a : Accountant) (id : Str)
    : (chargeBudget e a id).session.usageRecords = a.session.usageRecords := by
  unfold chargeBudget
  dsimp only
  split <;> exact (a.session.updateSpent_tables id e.tenant e.priceMicroUSD).1

theorem chargeBudgets_charges (hprice : 0 < e.priceMicroUSD) (ids : List Str) (a : Accountant)
    : Charges (fun t id => if t = e.tenant then e.priceMicroUSD * ids.count id else 0) a
        (ids.foldl (chargeBudget e) a) := by
  induction ids generalizing a with
  | nil =>
    have := Charges.of_eq (a := a) rfl rfl rfl
    simpa using this
  | cons id ids ih =>
    have h := (chargeBudget_charges e hprice a id).trans (ih (chargeBudget e a id))
    rw [foldl_cons]
    convert h using 3 with t id'
    by_cases ht : t = e.tenant
    . by_cases hid : id' = id
      . subst hid
        simp [ht, Int.mul_add, Int.add_comm]
      . simp [ht, hid, Ne.symm hid]
    . simp [ht]

theorem chargeBudgets_usageRecords (ids : List Str) (a : Accountant)
    : (ids.foldl (chargeBudget e) a).session.usageRecords = a.session.usageRecords := by
  induction ids generalizing a with
  | nil => rfl
  | cons id ids ih =>
    rw [foldl_cons, ih]
    apply chargeBudget_usageRecords e a id

theorem charge_spec (a : Accountant) (e : UsageEvent)
    : Charges (fun t id => due t id e) a (a.charge e) ∧
      (a.charge e).session.usageRecords = a.session.usageRecords := by
  unfold charge
  split
  . next hskip =>
    refine ⟨?_, rfl⟩
    convert Charges.of_eq (a := a) rfl rfl rfl using 3 with t id
    rcases Bool.or_eq_true_iff.mp hskip with hids | hprice
    . simp [due, of_decide_eq_true hids]
    . simp [due, Int.not_lt.mpr (of_decide_eq_true hprice)]
  . next hpay =>
    refine ⟨?_, chargeBudgets_usageRecords e e.budgetIDs a⟩
    simp only [Bool.or_eq_true, decide_eq_true_eq, not_or, Int.not_le] at hpay
    convert chargeBudgets_charges e hpay.2 e.budgetIDs a using 3 with t id
    simp [due, hpay.2, eq_comm]

theorem applyEvent_spec (a : Accountant) (e : UsageEvent)
    : (e.requestID ∈ [] :: a.session.ids ∧ Charges (fun _ _ => 0) a (a.applyEvent e) ∧
        (a.applyEvent e).session.usageRecords = a.session.usageRecords) ∨
      (e.requestID ∉ [] :: a.session.ids ∧ Charges (fun t id => due t id e) a (a.applyEvent e) ∧
        (a.applyEvent e).session.usageRecords = a.session.usageRecords ++ [e.values]) := by
  unfold applyEvent record
  by_cases hempty : e.requestID = []
  . left
    rw [if_pos hempty]
    exact ⟨by simp [hempty], .of_eq rfl rfl rfl, rfl⟩
  . rw [if_neg hempty]
    rcases a.session.insertUsageRecord_cases e.values with
      ⟨hseen, hinsert⟩ | ⟨hfresh, hrows, hrecords, hbudgets, htenants⟩
    . left
      rw [hinsert]
      exact ⟨mem_cons_of_mem _ hseen, .of_eq rfl rfl rfl, rfl⟩
    . right
      generalize a.session.insertUsageRecord e.values = inserted at *
      dsimp only
      rw [hrows, if_neg Nat.one_ne_zero]
      rw [if_pos rfl]
      generalize hrecorded :
        Accountant.mk inserted.2 { a.result with applied := a.result.applied + 1 } = recorded
      rcases charge_spec recorded e with ⟨hcharges, htable⟩
      subst hrecorded
      refine ⟨?_, ?_, by rw [htable, hrecords]⟩
      . rw [mem_cons, not_or]
        exact ⟨hempty, hfresh⟩
      . have hinserted : Charges (fun _ _ => 0) a
            ⟨inserted.2, { a.result with applied := a.result.applied + 1 }⟩ :=
          .of_eq hbudgets htenants rfl
        convert hinserted.trans hcharges using 3
        rw [Int.zero_add]

theorem applyEvents_spec (events : List UsageEvent) (a : Accountant)
    : Charges
        (fun t id =>
          ((Distinct.distinctBy (·.requestID) ([] :: a.session.ids) events).map (due t id)).sum) a
        (events.foldl applyEvent a) ∧
      (events.foldl applyEvent a).session.usageRecords
        = a.session.usageRecords
          ++ (Distinct.distinctBy (·.requestID) ([] :: a.session.ids) events).map (·.values) := by
  induction events generalizing a with
  | nil => exact ⟨.of_eq rfl rfl rfl, by simp [Distinct.distinctBy]⟩
  | cons e events ih =>
    rcases ih (a.applyEvent e) with ⟨hcharges, hrecords⟩
    rw [foldl_cons, Distinct.distinctBy]
    rcases a.applyEvent_spec e with ⟨hseen, hstep, htable⟩ | ⟨hfresh, hstep, htable⟩
    . have hids : (a.applyEvent e).session.ids = a.session.ids := by
        rw [Database.ids, htable, Database.ids]
      rw [hids] at hcharges hrecords
      rw [if_pos hseen]
      refine ⟨?_, by rw [hrecords, htable]⟩
      convert hstep.trans hcharges using 3
      rw [Int.zero_add]
    . have hids : Distinct.distinctBy (·.requestID) ([] :: (a.applyEvent e).session.ids) events
          = Distinct.distinctBy (·.requestID) (e.requestID :: [] :: a.session.ids) events := by
        apply Distinct.distinctBy_congr
        intro k
        rw [Database.ids, htable]
        simp only [map_append, map_singleton, mem_append, mem_cons, Database.ids, UsageEvent.values]
        tauto
      rw [hids] at hcharges hrecords
      rw [if_neg hfresh]
      refine ⟨?_, by rw [hrecords, htable, map_cons, append_assoc, singleton_append]⟩
      convert hstep.trans hcharges using 3
      rw [map_cons, sum_cons]

theorem bumpVersions_spec (db : Database) (tenants : List Str)
    : (bumpVersions db tenants).usageRecords = db.usageRecords ∧
      (bumpVersions db tenants).budgets = db.budgets ∧
      ∀ t, (bumpVersions db tenants).tenants.lookup t
        = (db.tenants.lookup t).map (· + tenants.count t) := by
  unfold bumpVersions
  simp only [← (mergeSort_perm tenants fun s t => s ≤ t).count_eq]
  generalize tenants.mergeSort (fun s t => s ≤ t) = sorted
  induction sorted generalizing db with
  | nil => simp
  | cons tenant sorted ih =>
    rcases ih (db.updateVersion tenant) with ⟨hrecords, hbudgets, hversions⟩
    rcases db.updateVersion_tables tenant with ⟨hrecords', hbudgets'⟩
    rw [foldl_cons]
    refine ⟨by rw [hrecords, hrecords'], by rw [hbudgets, hbudgets'], ?_⟩
    intro t
    rw [hversions, Database.updateVersion_lookup, Option.map_map]
    congr 1
    funext v
    by_cases ht : t = tenant
    . subst ht
      simp only [Function.comp, if_true, count_cons_self]
      omega
    . simp [ht, Ne.symm ht]

end Accountant

theorem Database.apply_spec (db : Database) (events : List UsageEvent)
    : (db.apply events).1.usageRecords
          = db.usageRecords ++ (Distinct.distinctBy (·.requestID) ([] :: db.ids) events).map (·.values) ∧
      ∀ id, (db.apply events).1.budgets.lookup id = (db.budgets.lookup id).map fun b =>
        b.charged ((Distinct.distinctBy (·.requestID) ([] :: db.ids) events).map (due b.tenantID id)).sum := by
  rcases Accountant.applyEvents_spec events ⟨db, .zero⟩ with ⟨hcharges, hrecords⟩
  have hbump := Accountant.bumpVersions_spec (events.foldl Accountant.applyEvent ⟨db, .zero⟩).session
    (events.foldl Accountant.applyEvent ⟨db, .zero⟩).result.tenantsTouched
  refine ⟨hbump.1.trans hrecords, ?_⟩
  intro id
  rw [show (db.apply events).1.budgets = _ from hbump.2.1, hcharges.budgets]

end ModelGateway.Accounting
