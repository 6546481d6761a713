import ModelGateway.Control.AdapterNames
import ModelGateway.Telemetry.RedisStream

namespace ModelGateway.Control.FineTune

open List

inductive Ending where
  | served (snap : Snapshot) (req : Gateway.Request) (result : Gateway.Result) (stream : Bool)
      (err : Option GoError)
  | mirrored (req : Shadow.Request) (usage : TokenUsage) (err : Option GoError)

def Ending.err : Ending → Option GoError
  | .served _ _ _ _ err => err
  | .mirrored _ _ err => err

structure Use where
  deployment : ModelGateway.Deployment
  ending : Ending
  times : Telemetry.Times
  storedAt : Int

namespace Use

def event (u : Use) : Gateway.UsageEvent :=
  match u.ending with
  | .served snap req result stream err =>
    Gateway.Pipeline.usageEvent snap req
      { result with deployment := u.deployment.id, route := u.deployment.key }
      (some u.deployment) stream err
  | .mirrored req usage err => Gateway.Pipeline.shadowUsageEvent u.deployment req usage err

-- an event that does not say when it was is of the moment it is stored
def occurredAt (u : Use) : Int :=
  if u.times.timestampUnixMs = 0 then u.storedAt else u.times.timestampUnixMs * 1000

def message (u : Use) : Accounting.UsageEvent :=
  Telemetry.encode u.times u.event

def record (u : Use) : UsageRow :=
  { u.message.values with occurredAt := u.occurredAt }

theorem record_deployment (u : Use) : u.record.deployment = u.deployment.id := by
  unfold record message event
  cases u.ending <;> rfl

theorem record_outcome (u : Use) : u.record.outcome ≠ [] ↔ u.ending.err.isSome := by
  have hname : ∀ c : Code, c.name ≠ [] := by
    intro c
    cases c <;> decide
  have houtcome : ∀ err : Option GoError,
      ((err.map (·.codeOf)).map Code.name).getD [] ≠ [] ↔ err.isSome := by
    intro err
    cases err with
    | none => simp
    | some err => simp [hname]
  unfold record message event
  cases u.ending with
  | served snap req result stream err => exact houtcome err
  | mirrored req usage err => exact houtcome err

end Use

-- `usage_records` has the request id as its key, and a record whose id is taken is discarded.
def kept (uses : List Use) : List Use :=
  Distinct.distinctBy (·.message.requestID) [[]] uses

def stored (uses : List Use) : List UsageRow :=
  (kept uses).map (·.record)

theorem stored_records {db : Accounting.Database} (hdb : db.usageRecords = []) (uses : List Use)
    : (db.apply (uses.map (·.message))).1.usageRecords = (stored uses).map (·.toUsageRecord) := by
  have hids : db.ids = [] := by rw [Accounting.Database.ids, hdb, map_nil]
  rw [(db.apply_spec _).1, hdb, hids, nil_append, Distinct.distinctBy_map, map_map, stored, map_map]
  rfl

def emitted (uses : List Use) (id : Str) (since : Int) : Observed :=
  let own := uses.filter fun u => u.deployment.id = id ∧ since ≤ u.occurredAt
  ⟨own.length, (own.filter (·.ending.err.isSome)).length⟩

theorem observe_record (uses : List Use) (deployment : Str) (since : Int)
    : observe (uses.map (·.record)) deployment since = emitted uses deployment since := by
  unfold observe emitted
  simp only [filter_map, length_map]
  have hown : (fun r : UsageRow => decide (r.deployment = deployment ∧ since ≤ r.occurredAt)) ∘ Use.record
      = fun u => decide (u.deployment.id = deployment ∧ since ≤ u.occurredAt) := by
    funext u
    dsimp only [Function.comp_apply]
    rw [u.record_deployment]
    rfl
  have hfailed : (fun r : UsageRow => decide (r.outcome ≠ [])) ∘ Use.record
      = fun u => u.ending.err.isSome := by
    funext u
    dsimp only [Function.comp_apply]
    rw [decide_eq_decide.mpr u.record_outcome, Bool.decide_coe]
  rw [hown, hfailed]

theorem emitted_of_unused {uses : List Use} {id : Str} (h : ∀ u ∈ uses, u.deployment.id ≠ id)
    (since : Int)
    : emitted uses id since = ⟨0, 0⟩ := by
  have hnone : uses.filter (fun u => u.deployment.id = id ∧ since ≤ u.occurredAt) = [] := by
    rw [filter_eq_nil_iff]
    intro u hu
    simp [h u hu]
  unfold emitted
  rw [hnone]
  rfl

/-- No request of the deployment since then comes without an id or with one that was used before. -/
def Unrepeated (uses : List Use) (id : Str) (since : Int) : Prop :=
  (∀ u ∈ uses, u.deployment.id = id ∧ since ≤ u.occurredAt → u.message.requestID ≠ []) ∧
  uses.Pairwise fun u u' => u'.deployment.id = id ∧ since ≤ u'.occurredAt → u'.message.requestID ≠ u.message.requestID

theorem emitted_kept_eq_iff (uses : List Use) (id : Str) (since : Int)
    : emitted (kept uses) id since = emitted uses id since ↔ Unrepeated uses id since := by
  have hfilter := Distinct.filter_distinctBy_eq_iff (·.message.requestID)
    (fun u : Use => u.deployment.id = id ∧ since ≤ u.occurredAt) [[]] uses
  simp only [decide_eq_true_eq, mem_singleton] at hfilter
  refine Iff.trans ?_ hfilter
  unfold emitted
  constructor
  . intro h
    apply ((Distinct.distinctBy_sublist _ _ uses).filter _).eq_of_length
    exact congrArg Observed.requests h
  . intro h
    unfold kept
    rw [h]

/-- A name that is not the deployment's own finds its records only by accident. -/
def Accidental (uses : List Use) (since : Int) (name id other : Str) : Prop :=
  (name = other → emitted uses id since = emitted (kept uses) other since) ∧
  (name ≠ other → emitted uses id since = ⟨0, 0⟩)

theorem emitted_eq_iff_accidental {uses : List Use} {name id other : Str}
    (h : ∀ u ∈ uses, u.deployment.id = id ∨ u.deployment.id = other) (hname : name ≠ id) (since : Int)
    : emitted (kept uses) name since = emitted uses id since ↔ Accidental uses since name id other := by
  unfold Accidental
  by_cases hother : name = other
  . simp [hother, eq_comm]
  . have hunused : ∀ u ∈ kept uses, u.deployment.id ≠ name := by
      intro u hu hid
      rcases h u ((Distinct.distinctBy_sublist _ _ uses).subset hu) with h | h
      . exact hname (hid.symm.trans h)
      . exact hother (hid.symm.trans h)
    rw [emitted_of_unused hunused]
    simp [hother, eq_comm]

theorem adapterName_ne_adapterID (host : Deployment) (job : FineTuneJob)
    : adapterName job ≠ adapterID host job := by
  intro h
  have hlength := congrArg List.length h
  unfold adapterID at hlength
  simp only [length_append, length_cons] at hlength
  omega

namespace Sample

def use (id adapter : Str) (err : Option GoError) (n : Nat) : Use where
  deployment := Gateway.Sample.deployment id adapter .external 1 0
  ending := .served (Gateway.Sample.snapshot Gateway.Sample.outside [] .unset .unset)
    { Gateway.Sample.request [] with
      requestMeta := ⟨Str.ofNat n, str "m", .chatCompletions, false, 8, none, [], 0⟩ }
    .zero false err
  times := ⟨1000, 0, 0⟩
  storedAt := 0

def failures : List Use :=
  (List.range 30).map (use (str "h+acme-bot") (str "bot") (some (.ofCode .internal [])))

end Sample

open FineTune.Sample

end ModelGateway.Control.FineTune
