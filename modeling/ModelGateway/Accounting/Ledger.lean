import ModelGateway.Accounting.Accountant
import ModelGateway.Lib.TransitionSystem

namespace ModelGateway.Accounting

open List Function Distinct Accountant
open Option (map_eq_some_iff some)

namespace Database

def ensureTenant (db : Database) (id : Str) : Option Database :=
  if id = [] then
    none
  else if id ∈ db.tenants then
    some (db.updateVersion id)
  else
    some { db with
      tenants := db.tenants.insert id 1
      foreignKey := by
        intro b row hrow
        rw [AList.mem_insert]
        exact .inr (db.foreignKey b row hrow) }

def ensureBudget (db : Database) (id tenant : Str) : Option Database :=
  if h : tenant ∈ db.tenants then
    match db.budgets.lookup id with
    | some _ => some (db.updateVersion tenant)
    | none =>
      some (Database.updateVersion
        { db with
          budgets := db.budgets.insert id ⟨tenant, 0⟩
          foreignKey := by
            intro b row hrow
            by_cases hb : b = id
            . subst hb
              rw [AList.lookup_insert] at hrow
              rw [← some.inj hrow]
              exact h
            . rw [AList.lookup_insert_ne hb] at hrow
              apply db.foreignKey b row hrow } tenant)
  else
    none

def deleteBudget (db : Database) (id : Str) : Database :=
  { db with
    budgets := db.budgets.erase id
    foreignKey := by
      intro b row hrow
      by_cases hb : b = id
      . subst hb
        simp at hrow
      . rw [AList.lookup_erase_ne hb] at hrow
        apply db.foreignKey b row hrow }

end Database

structure Ledger where
  db : Database
  committed : List UsageEvent
  opened : Str → Nat
  initial : Str → Int

inductive Ledger.Event where
  | commit (batch : List UsageEvent)
  | crash (batch : List UsageEvent)
  | ensureTenant (id : Str)
  | ensureBudget (id tenant : Str)
  | deleteBudget (id : Str)

namespace Ledger

def new (db : Database) : Ledger where
  db := db
  committed := []
  opened := fun _ => db.usageRecords.length
  initial := fun id => ((db.budgets.lookup id).map (·.spentMicroUSD)).getD 0

def openBudget (s : Ledger) (id : Str) (db : Database) : Ledger :=
  if id ∈ s.db.budgets then
    { s with db := db }
  else
    { s with
      db := db
      opened := update s.opened id db.usageRecords.length
      initial := update s.initial id 0 }

def step (s : Ledger) : Event → Option Ledger
  | .commit batch =>
    some { s with db := (s.db.apply batch).1, committed := s.committed ++ batch }
  | .crash _ => some s
  | .ensureTenant id => (s.db.ensureTenant id).map fun db => { s with db := db }
  | .ensureBudget id tenant => (s.db.ensureBudget id tenant).map (s.openBudget id)
  | .deleteBudget id => some { s with db := s.db.deleteBudget id }

def recorded (db : Database) (s : Ledger) : List UsageEvent :=
  Distinct.distinctBy (·.requestID) ([] :: db.ids) s.committed

structure Inv (db : Database) (s : Ledger) : Prop where
  records : s.db.usageRecords = db.usageRecords ++ (s.recorded db).map (·.values)
  opened : ∀ id, db.usageRecords.length ≤ s.opened id ∧ s.opened id ≤ s.db.usageRecords.length
  spent : ∀ id b, s.db.budgets.lookup id = some b → b.spentMicroUSD = s.initial id
      + (((s.recorded db).drop (s.opened id - db.usageRecords.length)).map (due b.tenantID id)).sum

theorem new_inv (db : Database) : Inv db (new db) where
  records := by simp [new, recorded, Distinct.distinctBy]
  opened := fun _ => ⟨Nat.le_refl _, Nat.le_refl _⟩
  spent := by
    intro id b hb
    have hb : db.budgets.lookup id = some b := hb
    simp [new, recorded, Distinct.distinctBy, hb]

section

variable {db : Database} {s : Ledger} (hinv : Inv db s)

include hinv

theorem Inv.length
    : s.db.usageRecords.length = db.usageRecords.length + (s.recorded db).length := by
  rw [hinv.records, length_append, length_map]

theorem Inv.recorded_commit (batch : List UsageEvent) (db' : Database)
    : recorded db { s with db := db', committed := s.committed ++ batch }
        =
      s.recorded db ++ Distinct.distinctBy (·.requestID) ([] :: s.db.ids) batch := by
  unfold recorded
  rw [distinctBy_append]
  congr 1
  apply distinctBy_congr
  intro id
  have hids : s.db.ids = db.ids ++ (s.recorded db).map (·.requestID) := by
    rw [Database.ids, hinv.records, map_append, map_map]
    rfl
  rw [hids]
  exact Iff.rfl

theorem Inv.frame {db' : Database} (hrecords : db'.usageRecords = s.db.usageRecords)
    (hbudgets : ∀ id b, db'.budgets.lookup id = some b → s.db.budgets.lookup id = some b)
    : Inv db { s with db := db' } where
  records := hrecords.trans hinv.records
  opened := by
    intro id
    rw [show ({ s with db := db' } : Ledger).db.usageRecords = s.db.usageRecords from hrecords]
    apply hinv.opened id
  spent := fun id b hb => hinv.spent id b (hbudgets id b hb)

theorem Inv.commit (batch : List UsageEvent)
    : Inv db { s with db := (s.db.apply batch).1, committed := s.committed ++ batch } := by
  rcases applyEvents_spec batch ⟨s.db, .zero⟩ with ⟨hcharges, hrecords⟩
  have hbump := bumpVersions_spec (batch.foldl Accountant.applyEvent ⟨s.db, .zero⟩).session
    (batch.foldl Accountant.applyEvent ⟨s.db, .zero⟩).result.tenantsTouched
  have hnew := hinv.recorded_commit batch (s.db.apply batch).1
  have hlength := hinv.length
  have htable : (s.db.apply batch).1.usageRecords = s.db.usageRecords
      ++ (Distinct.distinctBy (·.requestID) ([] :: s.db.ids) batch).map (·.values) :=
    hbump.1.trans hrecords
  refine ⟨?_, ?_, ?_⟩
  . rw [hnew, map_append, ← append_assoc, ← hinv.records]
    exact htable
  . intro id
    refine ⟨(hinv.opened id).1, Nat.le_trans (hinv.opened id).2 ?_⟩
    rw [htable, length_append]
    apply Nat.le_add_right
  . intro id b' hb'
    have hlookup : (s.db.apply batch).1.budgets.lookup id = some b' := hb'
    rw [show (s.db.apply batch).1.budgets = _ from hbump.2.1, hcharges.budgets] at hlookup
    rcases map_eq_some_iff.mp hlookup with ⟨b, hb, rfl⟩
    have hopened := hinv.opened id
    rw [hnew, drop_append_of_le_length (by dsimp only; omega)]
    rw [map_append, sum_append, ← Int.add_assoc]
    dsimp only [Budget.charged]
    rw [← hinv.spent id b hb]

theorem Inv.openBudget {id tenant : Str} {db' : Database}
    (hensure : s.db.ensureBudget id tenant = some db')
    : Inv db (s.openBudget id db') := by
  unfold Database.ensureBudget at hensure
  split at hensure
  . split at hensure
    . next b hb =>
      -- the budget exists, so only a version moves
      have hmem : id ∈ s.db.budgets := AList.lookup_isSome.mp (by rw [hb]; rfl)
      rw [← some.inj hensure, Ledger.openBudget, if_pos hmem]
      rcases s.db.updateVersion_tables tenant with ⟨hrecords, hbudgets⟩
      apply hinv.frame hrecords
      intro id' b' hb'
      rwa [hbudgets] at hb'
    . next hnone =>
      have hmem : ¬ id ∈ s.db.budgets := AList.lookup_eq_none.mp hnone
      rw [Ledger.openBudget, if_neg hmem]
      have htables : db'.usageRecords = s.db.usageRecords ∧
          db'.budgets = s.db.budgets.insert id ⟨tenant, 0⟩ := by
        rw [← some.inj hensure]
        apply Database.updateVersion_tables _ tenant
      have hlength := hinv.length
      refine ⟨htables.1.trans hinv.records, ?_, ?_⟩
      . intro id'
        have hopened := hinv.opened id'
        dsimp only
        by_cases hid : id' = id
        . subst hid
          rw [update_self, htables.1]
          omega
        . rw [update_of_ne hid, htables.1]
          exact hopened
      . intro id' b' hb'
        dsimp only at hb' ⊢
        rw [htables.2] at hb'
        by_cases hid : id' = id
        . subst hid
          rw [AList.lookup_insert] at hb'
          rw [update_self, update_self, ← some.inj hb']
          -- nothing has been recorded since the budget was made
          have hdrop : (recorded db { s with db := db' }).drop
              (db'.usageRecords.length - db.usageRecords.length) = [] := by
            rw [drop_eq_nil_iff, htables.1, hlength]
            change (s.recorded db).length ≤ _
            omega
          change _ = 0 + (((recorded db { s with db := db' }).drop _).map _).sum
          rw [hdrop]
          rfl
        . rw [AList.lookup_insert_ne hid] at hb'
          rw [update_of_ne hid, update_of_ne hid]
          apply hinv.spent id' b' hb'
  . simp at hensure

theorem Inv.step {e : Event} {s' : Ledger} (he : s.step e = some s') : Inv db s' := by
  cases e with
  | commit batch =>
    rw [← some.inj he]
    apply hinv.commit batch
  | crash batch =>
    rw [← some.inj he]
    exact hinv
  | ensureTenant id =>
    rcases map_eq_some_iff.mp he with ⟨db', hensure, rfl⟩
    unfold Database.ensureTenant at hensure
    split at hensure
    . simp at hensure
    . split at hensure
      . rw [← some.inj hensure]
        rcases s.db.updateVersion_tables id with ⟨hrecords, hbudgets⟩
        apply hinv.frame hrecords
        intro id' b' hb'
        rwa [hbudgets] at hb'
      . rw [← some.inj hensure]
        exact hinv.frame rfl fun _ _ hb => hb
  | ensureBudget id tenant =>
    rcases map_eq_some_iff.mp he with ⟨db', hensure, rfl⟩
    apply hinv.openBudget hensure
  | deleteBudget id =>
    rw [← some.inj he]
    refine hinv.frame (show (s.db.deleteBudget id).usageRecords = s.db.usageRecords from rfl) ?_
    intro id' b' hb'
    by_cases hid : id' = id
    . subst hid
      rw [show (s.db.deleteBudget id').budgets = s.db.budgets.erase id' from rfl] at hb'
      simp at hb'
    . rw [show (s.db.deleteBudget id).budgets = s.db.budgets.erase id from rfl] at hb'
      rwa [AList.lookup_erase_ne hid] at hb'

end

theorem apply_bumps (db : Database) (batch : List UsageEvent) {id : Str} {b b' : Budget}
    (hb : db.budgets.lookup id = some b) (hb' : (db.apply batch).1.budgets.lookup id = some b')
    (hne : b'.spentMicroUSD ≠ b.spentMicroUSD)
    : ∃ v v', db.tenants.lookup b.tenantID = some v ∧
        (db.apply batch).1.tenants.lookup b.tenantID = some v' ∧ v < v' := by
  have hcharges := (applyEvents_spec batch ⟨db, .zero⟩).1
  have hbump := bumpVersions_spec (batch.foldl Accountant.applyEvent ⟨db, .zero⟩).session
    (batch.foldl Accountant.applyEvent ⟨db, .zero⟩).result.tenantsTouched
  rw [show (db.apply batch).1.budgets = _ from hbump.2.1, hcharges.budgets] at hb'
  rw [hb] at hb'
  have htouched : b.tenantID ∈ (batch.foldl Accountant.applyEvent ⟨db, .zero⟩).result.tenantsTouched := by
    apply (hcharges.charged b.tenantID).mpr
    refine .inr ⟨id, b, hb, rfl, lt_of_le_of_ne (hcharges.nonneg b.tenantID id) ?_⟩
    intro hzero
    apply hne
    rw [← some.inj hb']
    dsimp only [Budget.charged]
    rw [← hzero, Int.add_zero]
  rcases Option.isSome_iff_exists.mp (AList.lookup_isSome.mpr (db.foreignKey id b hb)) with ⟨v, hv⟩
  refine ⟨v, _, hv, ?_, Nat.lt_add_of_pos_right (count_pos_iff.mpr htouched)⟩
  rw [show (db.apply batch).1.tenants.lookup b.tenantID = _ from hbump.2.2 b.tenantID]
  rw [hcharges.tenants]
  rw [hv]
  rfl

def dueFor (tenant id : Str) : Option UsageEvent → Int
  | none => 0
  | some e => due tenant id e

theorem reachable_spend {db : Database} {s : Ledger}
    (hreach : TransitionSystem.Reaches step (new db) s)
    : (∀ id b, s.db.budgets.lookup id = some b →
        b.spentMicroUSD = s.initial id + ((s.db.usageRecords.drop (s.opened id)).map fun r =>
          dueFor b.tenantID id (s.committed.find? fun e => e.requestID = r.requestID)).sum) ∧
      (∀ r ∈ s.db.usageRecords.drop db.usageRecords.length, r.requestID ≠ [] ∧ ∃ e,
          s.committed.find? (fun e => e.requestID = r.requestID) = some e ∧ r = e.values) ∧
      (s.db.usageRecords.map (·.requestID)).Nodup ∧
      (∀ e ∈ s.committed, e.requestID ≠ [] → e.requestID ∈ s.db.usageRecords.map (·.requestID)) ∧
      (∀ batch s', s.step (.commit batch) = some s' → ∀ id b b',
        s.db.budgets.lookup id = some b → s'.db.budgets.lookup id = some b' →
        b'.spentMicroUSD ≠ b.spentMicroUSD →
        ∃ v v', s.db.tenants.lookup b.tenantID = some v ∧
          s'.db.tenants.lookup b.tenantID = some v' ∧ v < v') := by
  have hinv : Inv db s := hreach.invariant (Inv db) (fun _ _ _ h he => h.step he) (new_inv db)
  have hfirst : ∀ e ∈ s.recorded db, e.requestID ∉ [] :: db.ids ∧
      s.committed.find? (fun e' => e'.requestID = e.requestID) = some e :=
    fun e he => (mem_distinctBy _).mp he
  refine ⟨?_, ?_, s.db.primaryKey, ?_, ?_⟩
  . intro id b hb
    rw [hinv.spent id b hb, hinv.records]
    rw [drop_append, drop_eq_nil_of_le (hinv.opened id).1, nil_append]
    rw [← map_drop, map_map]
    congr 2
    apply map_congr_left
    intro e he
    change _ = dueFor _ _ (s.committed.find? fun e' => e'.requestID = e.requestID)
    rw [(hfirst e (mem_of_mem_drop he)).2]
    rfl
  . intro r hr
    rw [hinv.records, drop_left, mem_map] at hr
    rcases hr with ⟨e, he, rfl⟩
    rcases hfirst e he with ⟨hseen, hfind⟩
    exact ⟨fun hempty => hseen (hempty ▸ mem_cons_self), e, hfind, rfl⟩
  . intro e he hid
    rw [hinv.records, map_append, mem_append]
    by_cases hseen : e.requestID ∈ db.ids
    . exact .inl hseen
    . right
      have hsome : (s.committed.find? fun e' => e'.requestID = e.requestID).isSome := by
        rw [find?_isSome]
        exact ⟨e, he, by simp⟩
      rcases Option.isSome_iff_exists.mp hsome with ⟨e', he'⟩
      have hkey : e'.requestID = e.requestID := by simpa using find?_some he'
      rw [mem_map]
      refine ⟨e'.values, mem_map_of_mem ((mem_distinctBy _).mpr ⟨?_, ?_⟩), hkey⟩
      . rw [hkey, mem_cons, not_or]
        exact ⟨hid, hseen⟩
      . rw [hkey]
        exact he'
  . intro batch s' he id b b' hb hb' hne
    rw [← some.inj he] at hb' ⊢
    apply apply_bumps s.db batch hb hb' hne

def books : Database where
  usageRecords := []
  budgets := (∅ : GoMap Str Budget).insert (str "b") ⟨str "acme", 7⟩
  tenants := (∅ : GoMap Str Nat).insert (str "acme") 1
  primaryKey := nodup_nil
  foreignKey := by
    intro id b hb
    by_cases hid : id = str "b"
    . rw [hid, AList.lookup_insert] at hb
      rw [← some.inj hb, AList.mem_insert]
      exact .inl rfl
    . rw [AList.lookup_insert_ne hid] at hb
      simp at hb

def priced (id : Str) (price : Int) : UsageEvent :=
  ⟨id, 0, str "acme", [], ⟨0, 0, 0, 0⟩, price, price, [], [], false, [], [], [], false, 0, 0, 1,
    [str "b", str "b"]⟩

def redelivery : List Event :=
  [.commit [priced (str "r1") 5, priced (str "r1") 5, priced [] 9], .crash [priced (str "r2") 1],
    .commit [priced (str "r2") 1, priced (str "r1") 8]]

theorem reachable_spend_redelivery
    : ∃ s b, redelivery.foldlM step (new books) = some s ∧
        s.db.budgets.lookup (str "b") = some b ∧ b.spentMicroUSD = 19 ∧
        b.spentMicroUSD = s.initial (str "b")
          + ((s.db.usageRecords.drop (s.opened (str "b"))).map fun r =>
              dueFor b.tenantID (str "b")
                (s.committed.find? fun e => e.requestID = r.requestID)).sum := by
  have hrun : (redelivery.foldlM step (new books)).bind
      (fun s => (s.db.budgets.lookup (str "b")).map (·.spentMicroUSD)) = some 19 := by
    decide +kernel
  rcases Option.bind_eq_some_iff.mp hrun with ⟨s, hs, hmap⟩
  rcases map_eq_some_iff.mp hmap with ⟨b, hb, hspent⟩
  exact ⟨s, b, hs, hb, hspent, (reachable_spend (.of_foldlM redelivery hs)).1 _ b hb⟩

end Ledger

end ModelGateway.Accounting
