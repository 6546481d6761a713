import ModelGateway.Accounting.Ledger
import ModelGateway.Control.Catalog
import ModelGateway.Lib.Runs

/-!
This module contains the integer columns that the accountant writes to, and the errors of an amount that they
do not hold.
-/

namespace ModelGateway.Accounting.Postgres

open Except List
open Option (some)

def InRange (n : Int) : Prop :=
  -2 ^ 31 ≤ n ∧ n < 2 ^ 31

instance (n : Int) : Decidable (InRange n) :=
  inferInstanceAs (Decidable (_ ∧ _))

structure OutOfRange where

def IsDatetime (ms : Int) : Prop :=
  -62135596800000 ≤ ms ∧ ms < 253402300800000

instance (ms : Int) : Decidable (IsDatetime ms) :=
  inferInstanceAs (Decidable (_ ∧ _))

def Storable (e : UsageEvent) : Prop :=
  IsDatetime e.timestampUnixMs ∧ InRange e.usage.input ∧ InRange e.usage.cachedInput ∧
    InRange e.usage.cacheWrite ∧ InRange e.usage.output ∧ InRange e.costMicroUSD ∧ InRange e.priceMicroUSD ∧
    InRange e.latencyMs ∧ InRange e.timeToFirstByteMs ∧ e.snapshotVersion < 2 ^ 63

instance (e : UsageEvent) : Decidable (Storable e) :=
  inferInstanceAs (Decidable (_ ∧ _))

def raisable (db : Database) (tenant : Str) : Bool :=
  (db.tenants.lookup tenant).all fun version => InRange (version + 1)

section

def record (a : Accountant) (e : UsageEvent) : Except OutOfRange (Bool × Accountant) :=
  if e.requestID ≠ [] ∧ ¬ Storable e then
    .error ⟨⟩
  else
    .ok (a.record e)

def chargeBudget (e : UsageEvent) (a : Accountant) (id : Str) : Except OutOfRange Accountant :=
  match a.session.budgets.lookup id with
  | none => .ok (.chargeBudget e a id)
  | some b =>
    if b.tenantID = e.tenant ∧ ¬ InRange (b.spentMicroUSD + e.priceMicroUSD) then
      .error ⟨⟩
    else
      .ok (.chargeBudget e a id)

def charge (a : Accountant) (e : UsageEvent) : Except OutOfRange Accountant :=
  if e.budgetIDs = [] || e.priceMicroUSD ≤ 0 then
    .ok a
  else
    e.budgetIDs.foldlM (chargeBudget e) a

def applyEvent (a : Accountant) (e : UsageEvent) : Except OutOfRange Accountant := do
  let (recorded, a) ← record a e
  if recorded then charge a e else return a

def apply (db : Database) (events : List UsageEvent) : Except OutOfRange (Database × ApplyResult) := do
  let a ← events.foldlM applyEvent ⟨db, .zero⟩
  -- The updates are of one row for each tenant, so that one of them fails whatever their order is.
  if a.result.tenantsTouched.all (raisable a.session) then
    .ok (Accountant.bumpVersions a.session a.result.tenantsTouched, a.result)
  else
    .error ⟨⟩

end

inductive Failure where
  | outOfRange
  | invalidRequest (message : Str)
  | notFound (message : Str)
  deriving DecidableEq

structure BudgetLimit where
  limitMicroUSD : Int
  headroomBasisPoints : Int

structure Books where
  db : Database
  limits : GoMap Str BudgetLimit

def ensureBudget (s : Books) (id tenant : Str) (limit : BudgetLimit) : Except Failure Books :=
  if limit.limitMicroUSD < 0 then
    .error (.invalidRequest (str "budget " ++ Control.repr id ++ str " has a negative limit"))
  else
    match s.db.ensureBudget id tenant with
    | none => .error (.notFound (str "no tenant " ++ Control.repr tenant))
    | some db =>
      if InRange limit.limitMicroUSD ∧ InRange limit.headroomBasisPoints ∧ raisable s.db tenant = true then
        .ok ⟨db, s.limits.insert id limit⟩
      else
        .error .outOfRange

inductive Op where
  | apply (events : List UsageEvent)
  | ensureBudget (id tenant : Str) (limit : BudgetLimit)

namespace Books

def step (s : Books) : Op → Except Failure Books
  | .apply events =>
    match Postgres.apply s.db events with
    | .error _ => .error .outOfRange
    | .ok applied => .ok { s with db := applied.1 }
  | .ensureBudget id tenant limit => Postgres.ensureBudget s id tenant limit

def next (s : Books) (op : Op) : Books :=
  match s.step op with
  | .ok s' => s'
  | .error _ => s

def Stored (s : Books) : Prop :=
  ∀ id b, s.db.budgets.lookup id = some b → InRange b.spentMicroUSD

def dueOf (s : Books) (events : List UsageEvent) (tenant id : Str) : Int :=
  ((Distinct.distinctBy (·.requestID) ([] :: s.db.ids) events).map (due tenant id)).sum

def Fits (s : Books) : Op → Prop
  | .apply events =>
    (∀ e ∈ events, e.requestID ≠ [] → Storable e) ∧ ∀ id b, s.db.budgets.lookup id = some b →
        b.spentMicroUSD + s.dueOf events b.tenantID id < 2 ^ 31 ∧
        (0 < s.dueOf events b.tenantID id → raisable s.db b.tenantID = true)
  | .ensureBudget _ tenant limit =>
    limit.limitMicroUSD < 0 ∨ tenant ∉ s.db.tenants ∨
      InRange limit.limitMicroUSD ∧ InRange limit.headroomBasisPoints ∧ raisable s.db tenant = true

end Books

section

def Lower (db : Database) : Prop :=
  ∀ id b, db.budgets.lookup id = some b → -2 ^ 31 ≤ b.spentMicroUSD

def Upper (db : Database) : Prop :=
  ∀ id b, db.budgets.lookup id = some b → b.spentMicroUSD < 2 ^ 31

theorem Books.stored_iff (s : Books) : s.Stored ↔ Lower s.db ∧ Upper s.db := by
  constructor
  . intro h
    exact ⟨fun id b hb => (h id b hb).1, fun id b hb => (h id b hb).2⟩
  . intro h id b hb
    exact ⟨h.1 id b hb, h.2 id b hb⟩

variable {amount : Str → Str → Int} {a a' : Accountant} (hcharges : Accountant.Charges amount a a')

include hcharges

theorem lower_of_charges (h : Lower a.session)
    : Lower a'.session := by
  intro id b' hb'
  rw [hcharges.budgets, Option.map_eq_some_iff] at hb'
  rcases hb' with ⟨b, hb, rfl⟩
  have := h id b hb
  have := hcharges.nonneg b.tenantID id
  dsimp only [Budget.charged]
  omega

theorem upper_iff_of_charges
    : Upper a'.session ↔ ∀ id b, a.session.budgets.lookup id = some b →
        b.spentMicroUSD + amount b.tenantID id < 2 ^ 31 := by
  constructor
  . intro h id b hb
    apply h id (Budget.charged b (amount b.tenantID id))
    rw [hcharges.budgets, hb]
    rfl
  . intro h id b' hb'
    rw [hcharges.budgets, Option.map_eq_some_iff] at hb'
    rcases hb' with ⟨b, hb, rfl⟩
    exact h id b hb

theorem upper_of_charges (h : Upper a'.session)
    : Upper a.session := by
  rw [upper_iff_of_charges hcharges] at h
  intro id b hb
  have := h id b hb
  have := hcharges.nonneg b.tenantID id
  omega

theorem raisable_touched_iff (hnone : a.result.tenantsTouched = [])
    : a'.result.tenantsTouched.all (raisable a'.session) = true
        ↔
      ∀ id b, a.session.budgets.lookup id = some b → 0 < amount b.tenantID id →
        raisable a.session b.tenantID = true := by
  have hsame : raisable a'.session = raisable a.session := by
    unfold raisable
    rw [hcharges.tenants]
  rw [all_eq_true, hsame]
  simp only [hcharges.charged, hnone, not_mem_nil, false_or]
  constructor
  . intro h id b hb hpos
    exact h b.tenantID ⟨id, b, hb, rfl, hpos⟩
  . rintro h t ⟨id, b, hb, rfl, hpos⟩
    exact h id b hb hpos

end

variable {e : UsageEvent}

theorem chargeBudget_isOk_iff (hprice : 0 < e.priceMicroUSD) (a : Accountant) (id : Str)
    (hlower : Lower a.session) (hupper : Upper a.session)
    : (∃ a', chargeBudget e a id = .ok a') ↔ Upper (Accountant.chargeBudget e a id).session := by
  rw [upper_iff_of_charges (Accountant.chargeBudget_charges e hprice a id)]
  unfold chargeBudget
  split
  . next hnone =>
    refine ⟨fun _ id' b hb => ?_, fun _ => ⟨_, rfl⟩⟩
    have hne : id' ≠ id := by
      rintro rfl
      simp [hnone] at hb
    have := hupper id' b hb
    rw [if_neg (by simp [hne])]
    omega
  . next b hb =>
    constructor
    . intro h id' b' hb'
      have := hupper id' b' hb'
      split
      . next hmatch =>
        rcases hmatch with ⟨rfl, htenant⟩
        rw [hb] at hb'
        rw [← some.inj hb'] at htenant ⊢
        split at h
        . simp at h
        . next hfits =>
          have hrange : InRange (b.spentMicroUSD + e.priceMicroUSD) := by
            by_contra hnot
            exact hfits ⟨htenant, hnot⟩
          exact hrange.2
      . omega
    . intro h
      have hspent := h id b hb
      have := hlower id b hb
      rw [if_neg]
      . exact ⟨_, rfl⟩
      . rintro ⟨htenant, hnot⟩
        rw [if_pos ⟨rfl, htenant⟩] at hspent
        exact hnot ⟨by omega, hspent⟩

variable {a a' : Accountant}

theorem chargeBudget_eq_ok {id : Str} (h : chargeBudget e a id = .ok a')
    : a' = Accountant.chargeBudget e a id := by
  unfold chargeBudget at h
  split at h
  . exact (ok.inj h).symm
  . split at h
    . simp at h
    . exact (ok.inj h).symm

theorem charge_eq_ok (h : charge a e = .ok a') : a' = a.charge e := by
  unfold charge at h
  unfold Accountant.charge
  split at h
  . next hskip =>
    rw [if_pos hskip]
    exact (ok.inj h).symm
  . next hpay =>
    rw [if_neg hpay]
    exact foldlM_eq_ok_foldl id (fun _ _ _ => chargeBudget_eq_ok) e.budgetIDs h

theorem charge_isOk_iff (a : Accountant) (e : UsageEvent) (hlower : Lower a.session)
    (hupper : Upper a.session)
    : (∃ a', charge a e = .ok a') ↔ Upper (a.charge e).session := by
  unfold charge Accountant.charge
  split
  . exact ⟨fun _ => hupper, fun _ => ⟨a, rfl⟩⟩
  . next hpay =>
    simp only [Bool.or_eq_true, decide_eq_true_eq, not_or, Int.not_le] at hpay
    have hloop := foldlM_isOk_iff_foldl (f := chargeBudget e) (g := Accountant.chargeBudget e)
      (fun a => Lower a.session) (fun a => Upper a.session) (fun _ => True) (fun _ _ _ => chargeBudget_eq_ok)
      (fun a id => lower_of_charges (Accountant.chargeBudget_charges e hpay.2 a id))
      (fun a id _ => upper_of_charges (Accountant.chargeBudget_charges e hpay.2 a id))
      (fun a id hl hu => by rw [chargeBudget_isOk_iff hpay.2 a id hl hu, true_and])
      e.budgetIDs hlower hupper
    simpa using hloop

theorem applyEvent_def (a : Accountant) (e : UsageEvent)
    : a.applyEvent e = if (a.record e).1 then (a.record e).2.charge e else (a.record e).2 := rfl

theorem applyEvent_eq (a : Accountant) (e : UsageEvent)
    : applyEvent a e = if e.requestID ≠ [] ∧ ¬ Storable e then
        .error ⟨⟩
      else if (a.record e).1 then
        charge (a.record e).2 e
      else
        .ok (a.record e).2 := by
  unfold applyEvent record
  split <;> rfl

theorem applyEvent_eq_ok (h : applyEvent a e = .ok a') : a' = a.applyEvent e := by
  rw [applyEvent_eq] at h
  rw [applyEvent_def]
  split at h
  . simp at h
  . split at h
    . next hrecorded =>
      rw [if_pos hrecorded]
      exact charge_eq_ok h
    . next hrecorded =>
      rw [if_neg hrecorded]
      exact (ok.inj h).symm

theorem record_budgets (a : Accountant) (e : UsageEvent)
    : (a.record e).2.session.budgets = a.session.budgets := by
  unfold Accountant.record
  split
  . rfl
  . rcases a.session.insertUsageRecord_cases e.values with ⟨_, hinsert⟩ | ⟨_, hrows, _, hbudgets, _⟩
    . rw [hinsert]
      rfl
    . dsimp only
      rw [hrows]
      exact hbudgets

theorem applyEvent_isOk_iff (a : Accountant) (e : UsageEvent) (hlower : Lower a.session)
    (hupper : Upper a.session)
    : (∃ a', applyEvent a e = .ok a')
        ↔
      (e.requestID ≠ [] → Storable e) ∧ Upper (a.applyEvent e).session := by
  have hlower' : Lower (a.record e).2.session := by
    unfold Lower
    rw [record_budgets]
    exact hlower
  have hupper' : Upper (a.record e).2.session := by
    unfold Upper
    rw [record_budgets]
    exact hupper
  rw [applyEvent_eq, applyEvent_def]
  split
  . next hrefused =>
    refine ⟨fun h => ?_, fun h => absurd (h.1 hrefused.1) hrefused.2⟩
    rcases h with ⟨a', ha'⟩
    simp at ha'
  . next haccepted =>
    have hvalues : e.requestID ≠ [] → Storable e := by
      intro hid
      by_contra hnot
      exact haccepted ⟨hid, hnot⟩
    split
    . rw [charge_isOk_iff _ e hlower' hupper']
      exact ⟨fun h => ⟨hvalues, h⟩, fun h => h.2⟩
    . exact ⟨fun _ => ⟨hvalues, hupper'⟩, fun _ => ⟨_, rfl⟩⟩

theorem applyEvent_raises (a : Accountant) (e : UsageEvent)
    : ∃ amount : Str → Str → Int, Accountant.Charges amount a (a.applyEvent e) := by
  rcases a.applyEvent_spec e with ⟨_, hcharges, _⟩ | ⟨_, hcharges, _⟩
  . exact ⟨_, hcharges⟩
  . exact ⟨_, hcharges⟩

theorem applyEvents_isOk_iff (db : Database) (events : List UsageEvent) (hlower : Lower db)
    (hupper : Upper db)
    : (∃ a, events.foldlM applyEvent ⟨db, .zero⟩ = .ok a)
        ↔
      (∀ e ∈ events, e.requestID ≠ [] → Storable e) ∧
        Upper (events.foldl Accountant.applyEvent ⟨db, .zero⟩).session := by
  exact foldlM_isOk_iff_foldl (f := applyEvent) (g := Accountant.applyEvent)
    (fun a => Lower a.session) (fun a => Upper a.session)
    (fun e => e.requestID ≠ [] → Storable e) (fun _ _ _ => applyEvent_eq_ok)
    (fun a e hl => by
      rcases applyEvent_raises a e with ⟨_, hcharges⟩
      exact lower_of_charges hcharges hl)
    (fun a e _ hu => by
      rcases applyEvent_raises a e with ⟨_, hcharges⟩
      exact upper_of_charges hcharges hu)
    applyEvent_isOk_iff events (s := ⟨db, .zero⟩) hlower hupper

theorem applyEvents_eq_ok {db : Database} {events : List UsageEvent} {a : Accountant}
    (h : events.foldlM applyEvent ⟨db, .zero⟩ = .ok a)
    : a = events.foldl Accountant.applyEvent ⟨db, .zero⟩ :=
  foldlM_eq_ok_foldl id (fun _ _ _ => applyEvent_eq_ok) events h

theorem apply_isOk_iff (db : Database) (events : List UsageEvent) (hlower : Lower db)
    (hupper : Upper db)
    : (∃ applied, apply db events = .ok applied)
        ↔
      ((∀ e ∈ events, e.requestID ≠ [] → Storable e) ∧
        Upper (events.foldl Accountant.applyEvent ⟨db, .zero⟩).session) ∧
      (events.foldl Accountant.applyEvent ⟨db, .zero⟩).result.tenantsTouched.all
        (raisable (events.foldl Accountant.applyEvent ⟨db, .zero⟩).session) = true := by
  rw [← applyEvents_isOk_iff db events hlower hupper]
  unfold apply
  constructor
  . rintro ⟨applied, h⟩
    rw [bind_eq_ok_iff] at h
    rcases h with ⟨a, ha, h⟩
    refine ⟨⟨a, ha⟩, ?_⟩
    rw [← applyEvents_eq_ok ha]
    split at h
    . next hraisable => exact hraisable
    . simp at h
  . rintro ⟨⟨a, ha⟩, hraisable⟩
    rw [← applyEvents_eq_ok ha] at hraisable
    rw [ha]
    exact ⟨_, if_pos hraisable⟩

theorem apply_eq_ok {db : Database} {events : List UsageEvent} {applied : Database × ApplyResult}
    (h : apply db events = .ok applied)
    : applied = db.apply events := by
  unfold apply at h
  rw [bind_eq_ok_iff] at h
  rcases h with ⟨a, ha, h⟩
  split at h
  . rw [← ok.inj h, applyEvents_eq_ok ha]
    rfl
  . simp at h

theorem ensureBudget_cases (db : Database) (id tenant : Str)
    : (tenant ∉ db.tenants ∧ db.ensureBudget id tenant = none) ∨
      (tenant ∈ db.tenants ∧ ∃ db', db.ensureBudget id tenant = some db' ∧
        ∀ id' b, db'.budgets.lookup id' = some b →
          db.budgets.lookup id' = some b ∨ b.spentMicroUSD = 0) := by
  unfold Database.ensureBudget
  split
  . next htenant =>
    right
    split
    . refine ⟨htenant, _, rfl, ?_⟩
      intro id' b hb
      rw [(db.updateVersion_tables tenant).2] at hb
      exact .inl hb
    . refine ⟨htenant, _, rfl, ?_⟩
      intro id' b hb
      rw [(Database.updateVersion_tables _ tenant).2] at hb
      by_cases hid : id' = id
      . rw [hid, AList.lookup_insert] at hb
        rw [← some.inj hb]
        exact .inr rfl
      . rw [AList.lookup_insert_ne hid] at hb
        exact .inl hb
  . next htenant => exact .inl ⟨htenant, rfl⟩

namespace Books

variable {s : Books}

theorem step_apply_ne_outOfRange_iff (hs : s.Stored) (events : List UsageEvent)
    : s.step (.apply events) ≠ .error .outOfRange ↔ s.Fits (.apply events) := by
  rw [stored_iff] at hs
  have happly := apply_isOk_iff s.db events hs.1 hs.2
  have hcharges := (Accountant.applyEvents_spec events ⟨s.db, .zero⟩).1
  rw [upper_iff_of_charges hcharges, raisable_touched_iff hcharges rfl, and_assoc] at happly
  have hfits : s.Fits (.apply events) ↔ ∃ applied, Postgres.apply s.db events = .ok applied := by
    rw [happly]
    apply and_congr_right
    intro _
    constructor
    . intro h
      exact ⟨fun id b hb => (h id b hb).1, fun id b hb => (h id b hb).2⟩
    . rintro ⟨hspent, hversion⟩ id b hb
      exact ⟨hspent id b hb, hversion id b hb⟩
  rw [hfits]
  unfold step
  dsimp only
  split
  . next herror => simp [herror]
  . next applied hok => simp [hok]

theorem step_apply_eq_ok {s' : Books} {events : List UsageEvent} (h : s.step (.apply events) = .ok s')
    : s' = { s with db := (s.db.apply events).1 } := by
  unfold step at h
  dsimp only at h
  split at h
  . simp at h
  . next applied happly => rw [← ok.inj h, apply_eq_ok happly]

theorem step_apply_of_fits (hs : s.Stored) {events : List UsageEvent} (hfits : s.Fits (.apply events))
    : s.step (.apply events) = .ok { s with db := (s.db.apply events).1 } := by
  have hok := (step_apply_ne_outOfRange_iff hs events).mpr hfits
  cases hstep : s.step (.apply events) with
  | ok s' => rw [step_apply_eq_ok hstep]
  | error err =>
    unfold step at hstep
    dsimp only at hstep
    split at hstep
    . next herror => simp [step, herror] at hok
    . simp at hstep

theorem step_ensureBudget_ne_outOfRange_iff (s : Books) (id tenant : Str) (limit : BudgetLimit)
    : s.step (.ensureBudget id tenant limit) ≠ .error .outOfRange
        ↔
      s.Fits (.ensureBudget id tenant limit) := by
  unfold step Fits ensureBudget
  by_cases hneg : limit.limitMicroUSD < 0
  . simp [hneg]
  . rcases ensureBudget_cases s.db id tenant with ⟨htenant, hnone⟩ | ⟨htenant, db', hsome, _⟩
    . simp [hneg, htenant, hnone]
    . by_cases hrange : InRange limit.limitMicroUSD ∧ InRange limit.headroomBasisPoints ∧
        raisable s.db tenant = true
      . simp [hneg, htenant, hsome, hrange]
      . simp [hneg, htenant, hsome, hrange]

theorem Stored.apply (hs : s.Stored) {events : List UsageEvent} (hfits : s.Fits (.apply events))
    (limits : GoMap Str BudgetLimit)
    : Stored ⟨(s.db.apply events).1, limits⟩ := by
  have hcharges := (Accountant.applyEvents_spec events ⟨s.db, .zero⟩).1
  have hbudgets : (s.db.apply events).1.budgets
      = (events.foldl Accountant.applyEvent ⟨s.db, .zero⟩).session.budgets :=
    (Accountant.bumpVersions_spec _ _).2.1
  rw [stored_iff] at hs ⊢
  unfold Lower Upper
  rw [hbudgets]
  exact ⟨lower_of_charges hcharges hs.1,
    (upper_iff_of_charges hcharges).mpr fun id b hb => (hfits.2 id b hb).1⟩

theorem Stored.ensureBudget {s' : Books} (hs : s.Stored) {id tenant : Str} {limit : BudgetLimit}
    (h : Postgres.ensureBudget s id tenant limit = .ok s')
    : s'.Stored := by
  unfold Postgres.ensureBudget at h
  rcases ensureBudget_cases s.db id tenant with ⟨_, hnone⟩ | ⟨_, db', hsome, hspent⟩
  . rw [hnone] at h
    split at h <;> simp at h
  . rw [hsome] at h
    dsimp only at h
    split at h
    . simp at h
    . split at h
      . rw [← ok.inj h]
        intro id' b hb
        rcases hspent id' b hb with hb | hzero
        . exact hs id' b hb
        . rw [hzero]
          decide
      . simp at h

theorem Stored.next (hs : s.Stored) (op : Op) : (s.next op).Stored := by
  unfold Books.next
  split
  . next s' hstep =>
    cases op with
    | apply events =>
      have hfits := (step_apply_ne_outOfRange_iff hs events).mp (by simp [hstep])
      rw [step_apply_eq_ok hstep]
      exact hs.apply hfits s.limits
    | ensureBudget id tenant limit => exact hs.ensureBudget hstep
  . exact hs

theorem amounts_in_range_iff {s : Books} (hs : s.Stored) (ops : List Op)
    : Throughout next (fun s op => s.step op ≠ .error .outOfRange) s ops
        ↔
      Throughout next Fits s ops := by
  apply throughout_congr Stored (fun _ op hs => hs.next op) ?_ ops hs
  intro s op hs
  cases op with
  | apply events => exact step_apply_ne_outOfRange_iff hs events
  | ensureBudget id tenant limit => exact s.step_ensureBudget_ne_outOfRange_iff id tenant limit

end Books

namespace Sample

def tables : Database where
  usageRecords := []
  budgets := (∅ : GoMap Str Budget).insert (str "b") ⟨str "acme", 2000000000⟩
  tenants := (∅ : GoMap Str Nat).insert (str "acme") 1
  primaryKey := nodup_nil
  foreignKey := by
    intro id b hb
    by_cases hid : id = str "b"
    . rw [hid, AList.lookup_insert] at hb
      rw [← some.inj hb, AList.mem_insert]
      exact .inl rfl
    . rw [AList.lookup_insert_ne hid] at hb
      simp at hb

def books : Books := ⟨tables, ∅⟩

def request (id : Str) (price : Int) : UsageEvent :=
  ⟨id, 0, str "acme", str "k1", ⟨0, 0, 0, 0⟩, price, price, [], [], false, [], [], [], false, 0, 0, 1,
    [str "b"]⟩

theorem books_stored : books.Stored := by
  intro id b hb
  change ((∅ : GoMap Str Budget).insert (str "b") ⟨str "acme", 2000000000⟩).lookup id = some b at hb
  by_cases hid : id = str "b"
  . rw [hid, AList.lookup_insert] at hb
    rw [← some.inj hb]
    decide
  . rw [AList.lookup_insert_ne hid] at hb
    simp at hb

end Sample

namespace Books

open Sample

theorem amounts_in_range_small
    : Throughout next Fits books
        [.ensureBudget (str "b") (str "acme") ⟨2100000000, 500⟩, .apply [request (str "r1") 100]] := by
  apply (amounts_in_range_iff books_stored _).mp
  refine ⟨?_, ?_, trivial⟩
  all_goals
    intro h
    have hfails := congrArg Except.toBool h
    revert hfails
    decide +kernel

theorem spend_out_of_range
    : (∀ n, (replicate n (Op.apply [request (str "r1") 200000000])).foldl next books
          = books) ∧
      books.step (.apply [request (str "r1") 200000000]) = .error .outOfRange ∧
      books.step (.ensureBudget (str "c") (str "acme") ⟨3000000000, 500⟩) = .error .outOfRange := by
  have hbatch : books.step (.apply [request (str "r1") 200000000])
      = .error .outOfRange := rfl
  refine ⟨?_, hbatch, rfl⟩
  intro n
  induction n with
  | zero => rfl
  | succ n ih =>
    rw [replicate_succ, foldl_cons]
    have hnext : books.next (.apply [request (str "r1") 200000000]) = books := by
      unfold next
      rw [hbatch]
    rw [hnext, ih]

end Books

end ModelGateway.Accounting.Postgres
