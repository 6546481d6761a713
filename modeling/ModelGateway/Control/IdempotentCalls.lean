import ModelGateway.Control.KeySecrecy
import Mathlib.Logic.Function.Basic

/-!
This module contains the interleavings of calls that share an idempotency key: each looks for the record,
mints and commits.
-/

namespace ModelGateway.Control.Keys

open List Function Except
open Option (elim_some some)

structure Writes where
  row : ApiKey
  keyRoles : List (Str × Str)
  keyModels : List (Str × Str)
  keyBudgets : List (Str × Str)
  deprecates : Option (Str × Int)
  tenantID : Str
  version : Option Int

section

variable (s : Settings) (db : Database) (call : Call) (secret : Secret)

def Call.writes : Option Writes :=
  match call.operation with
  | .issueKey tenantID body => do
    let tier ← (trustTier s body.minTrustTier).toOption
    return {
      row := ⟨body.columns tenantID tier, s.hmac s.pepper secret.val⟩
      keyRoles := []
      keyModels := []
      keyBudgets := []
      deprecates := none
      tenantID := tenantID
      version := (db.tenants.lookup tenantID).map (· + 1) }
  | .rotateKey keyID body => do
    let existing ← db.key keyID
    let id := successorID keyID body.newKeyID call.namedAt
    return {
      row := ⟨existing.successor id, s.hmac s.pepper secret.val⟩
      keyRoles := Database.inherited db.keyRoles keyID id
      keyModels := Database.inherited db.keyModels keyID id
      keyBudgets := Database.inherited db.keyBudgets keyID id
      deprecates := some (keyID, call.deprecatedAt + s.overlap)
      tenantID := existing.tenantID
      version := (db.tenants.lookup existing.tenantID).map (· + 1) }

def Database.setVersion (tenantID : Str) (version : Option Int) : Database :=
  match version with
  | none => db
  | some version =>
    if (db.tenants.lookup tenantID).isSome then
      { db with tenants := db.tenants.insert tenantID version }
    else
      db

def Database.written (w : Writes) : Database :=
  let inserted :=
    { db with
      apiKeys := db.apiKeys ++ [w.row]
      keyRoles := db.keyRoles ++ w.keyRoles
      keyModels := db.keyModels ++ w.keyModels
      keyBudgets := db.keyBudgets ++ w.keyBudgets }
  (w.deprecates.elim inserted fun d => inserted.markDeprecated d.1 d.2).setVersion w.tenantID w.version

def Database.insertable (w : Writes) : Bool :=
  (db.key w.row.columns.id).isNone && !db.lookups.contains w.row.lookup && s.acceptsKey w.row.columns
    && (w.keyRoles.all fun g => !db.keyRoles.contains g)
    && (w.keyModels.all fun g => !db.keyModels.contains g)
    && (w.keyBudgets.all fun g => !db.keyBudgets.contains g)

def Database.write (w : Writes) : Except Failure Database :=
  if db.insertable s w then .ok (db.written w) else .error .database

def Database.commit (minted : NewKey) (w : Writes) : Except Failure Database := do
  let db ← db.write s w
  match call.retryKey with
  | none => .ok db
  | some key =>
    if (db.record key call.operation.endpoint).isSome then
      .error .database
    else
      db.remember s key call.operation.endpoint call.operation.payload call.operation.status
        minted.response

end

inductive Task where
  | waiting
  | checked
  | minted (key : NewKey) (writes : Writes)
  | committed (response : Response)
  | replayed (response : Response)
  | rehearsed (response : Response)
  | failed (failure : Failure)
  | crashed

def Task.result : Task → Option (Except Failure Response)
  | .committed response => some (.ok response)
  | .replayed response => some (.ok response)
  | .rehearsed response => some (.ok response)
  | .failed failure => some (.error failure)
  | _ => none

def Task.answer : Task → Option Response
  | .committed response => some response
  | .replayed response => some response
  | _ => none

def Task.isCommitted : Task → Bool
  | .committed _ => true
  | _ => false

section

variable (s : Settings) (db : Database) (call : Call) (secret : Secret)

def Task.look : Task → Task
  | .waiting =>
    match call.retryKey.elim (.ok none) (db.replay s · call.operation.endpoint call.operation.payload) with
    | .error failure => .failed failure
    | .ok (some response) => .replayed response
    | .ok none => .checked
  | task => task

def Task.mint : Task → Task
  | .checked =>
    match Keys.mint s db call secret, call.writes s db secret with
    | .error failure, _ => .failed failure
    | .ok _, none => .failed .database
    | .ok (key, _), some writes =>
      if call.dryRun then
        .rehearsed ⟨200,
          jsonDumps [(str "dry_run", jsonBool true), (str "key_id", jsonString key.keyID)]⟩
      else
        .minted key writes
  | task => task

def Task.commit : Task → Task × Database
  | .minted key writes =>
    match db.commit s call key writes with
    | .error failure => (.failed failure, db)
    | .ok db => (.committed ⟨call.operation.status, key.response⟩, db)
  | task => (task, db)

def Task.crash : Task → Task
  | .waiting => .crashed
  | .checked => .crashed
  | .minted _ _ => .crashed
  | task => task

end

structure World (ι : Type) where
  db : Database
  tasks : ι → Task

inductive Event (ι : Type) where
  | look (i : ι)
  | mint (i : ι)
  | commit (i : ι)
  | crash (i : ι)
  /-- Another writer, which writes anything but the records. -/
  | elsewhere (db : Database)

def Event.call? {ι : Type} : Event ι → Option ι
  | .look i => some i
  | .mint i => some i
  | .commit i => some i
  | .crash i => some i
  | .elsewhere _ => none

namespace World

variable {ι : Type} [DecidableEq ι] (s : Settings) (calls : ι → Call × Secret)

def start (db : Database) : World ι :=
  ⟨db, fun _ => .waiting⟩

def step (w : World ι) : Event ι → World ι
  | .look i => { w with tasks := update w.tasks i ((w.tasks i).look s w.db (calls i).1) }
  | .mint i => { w with tasks := update w.tasks i ((w.tasks i).mint s w.db (calls i).1 (calls i).2) }
  | .commit i =>
    let (task, db) := (w.tasks i).commit s w.db (calls i).1
    ⟨db, update w.tasks i task⟩
  | .crash i => { w with tasks := update w.tasks i (w.tasks i).crash }
  | .elsewhere db => { w with db := { db with idempotencyRecords := w.db.idempotencyRecords } }

def run (w : World ι) (events : List (Event ι)) : World ι :=
  events.foldl (step s calls) w

end World

section

variable {s : Settings} {db : Database} {call : Call} {secret : Secret}

theorem setVersion_bump {tenants : GoMap Str Int} (htenants : db.tenants = tenants) (tenantID : Str)
    : db.setVersion tenantID ((tenants.lookup tenantID).map (· + 1)) = db.bumpTenantVersion tenantID := by
  subst htenants
  unfold Database.setVersion Database.bumpTenantVersion
  cases db.tenants.lookup tenantID with
  | none => rfl
  | some version => simp

variable {w : Writes}

theorem insertable_iff
    : db.insertable s w = true
        ↔
      db.key w.row.columns.id = none ∧ w.row.lookup ∉ db.lookups ∧ s.acceptsKey w.row.columns = true ∧
        (∀ g ∈ w.keyRoles, g ∉ db.keyRoles) ∧ (∀ g ∈ w.keyModels, g ∉ db.keyModels) ∧
        ∀ g ∈ w.keyBudgets, g ∉ db.keyBudgets := by
  unfold Database.insertable
  simp only [Bool.and_eq_true, Option.isNone_iff_eq_none, all_eq_true, Bool.not_eq_true',
    contains_eq_mem, decide_eq_false_iff_not, and_assoc]

theorem write_of_insertable (h : db.insertable s w = true) : db.write s w = .ok (db.written w) := by
  unfold Database.write
  rw [if_pos h]

variable {out : Database}

theorem mint_writes {minted : NewKey} (h : mint s db call secret = .ok (minted, out))
    : ∃ w, call.writes s db secret = some w ∧ db.write s w = .ok out := by
  unfold mint at h
  unfold Call.writes
  cases hop : call.operation with
  | issueKey tenantID body =>
    rw [hop] at h
    simp only [bind_eq_ok_iff, issue_eq_ok_iff] at h
    rcases h with ⟨tier, htier, hfresh, _, _, hfree, _, _, _, haccepted, _, rfl⟩
    dsimp only
    rw [htier]
    refine ⟨_, rfl, (write_of_insertable ?_).trans (congrArg Except.ok ?_)⟩
    . exact insertable_iff.mpr ⟨hfree, hfresh, haccepted, forall_mem_nil _, forall_mem_nil _,
        forall_mem_nil _⟩
    . unfold Database.written Database.inserted
      simp only [append_nil]
      exact setVersion_bump rfl tenantID
  | rotateKey keyID body =>
    rw [hop] at h
    rcases rotate_eq_ok_iff.mp h with ⟨hfresh, existing, hrotatable, pre, _, _, rfl⟩
    have hheritable := hrotatable.heritable
    unfold Heritable at hheritable
    simp only [forall_mem_cons] at hheritable
    dsimp only
    rw [hrotatable.key]
    refine ⟨_, rfl, (write_of_insertable ?_).trans (congrArg Except.ok ?_)⟩
    . exact insertable_iff.mpr ⟨hrotatable.free, hfresh, hrotatable.accepted, hheritable.1, hheritable.2.1,
        hheritable.2.2.1⟩
    . exact setVersion_bump (by rfl) existing.tenantID

theorem written_records (w : Writes) : (db.written w).idempotencyRecords = db.idempotencyRecords := by
  have hset : ∀ (db : Database) tenantID version,
      (db.setVersion tenantID version).idempotencyRecords = db.idempotencyRecords := by
    intro db tenantID version
    unfold Database.setVersion
    cases version with
    | none => rfl
    | some version =>
      dsimp only
      split <;> rfl
  unfold Database.written
  rw [hset]
  cases w.deprecates <;> rfl

theorem write_records (h : db.write s w = .ok out)
    : out.idempotencyRecords = db.idempotencyRecords := by
  unfold Database.write at h
  split at h
  . rw [← ok.inj h]
    exact written_records w
  . cases h

theorem record_congr (h : out.idempotencyRecords = db.idempotencyRecords) (key endpoint : Str)
    : out.record key endpoint = db.record key endpoint := by
  unfold Database.record
  rw [h]

theorem commit_of_write {minted : NewKey} (h : db.write s w = .ok out)
    : db.commit s call minted w = call.retryKey.elim (.ok out) fun key =>
        if (db.record key call.operation.endpoint).isSome then
          .error .database
        else
          out.remember s key call.operation.endpoint call.operation.payload call.operation.status
            minted.response := by
  unfold Database.commit
  rw [h]
  cases hkey : call.retryKey with
  | none => rfl
  | some key =>
    change (if (out.record key call.operation.endpoint).isSome then _ else _) = _
    rw [record_congr (write_records h)]
    rfl

theorem alone_eq_serve
    : (((Task.waiting.look s db call).mint s db call secret).commit s db call).1.result
          = some (serve s db call secret).1 ∧
        (((Task.waiting.look s db call).mint s db call secret).commit s db call).2
          = (serve s db call secret).2 := by
  rw [serve_eq]
  unfold mutate Task.look
  cases hreplay : call.retryKey.elim (.ok none)
      (db.replay s · call.operation.endpoint call.operation.payload) with
  | error failure => exact ⟨rfl, rfl⟩
  | ok replayed =>
    cases replayed with
    | some response => exact ⟨rfl, rfl⟩
    | none =>
      unfold Task.mint
      cases hmint : mint s db call secret with
      | error failure => exact ⟨rfl, rfl⟩
      | ok result =>
        rcases result with ⟨minted, out⟩
        rcases mint_writes hmint with ⟨w, hwrites, hwrite⟩
        rw [hwrites]
        cases hdry : call.dryRun with
        | true => exact ⟨rfl, rfl⟩
        | false =>
          simp only [Bool.false_eq_true, if_false]
          unfold Task.commit
          dsimp only
          rw [commit_of_write hwrite]
          cases hkey : call.retryKey with
          | none => exact ⟨rfl, rfl⟩
          | some key =>
            have hrecord : db.record key call.operation.endpoint = none := by
              rw [hkey, elim_some] at hreplay
              unfold Database.replay at hreplay
              cases hrecord : db.record key call.operation.endpoint with
              | none => rfl
              | some record =>
                rw [hrecord] at hreplay
                dsimp only at hreplay
                split at hreplay
                . cases hreplay
                . cases hreplay
            rw [elim_some, elim_some, hrecord]
            cases out.remember s key call.operation.endpoint call.operation.payload call.operation.status
                minted.response with
            | error failure => exact ⟨rfl, rfl⟩
            | ok db => exact ⟨rfl, rfl⟩

end

section

variable {s : Settings} {db : Database} {call : Call}

theorem record_append {out : Database} {records : List IdempotencyRecord}
    (h : out.idempotencyRecords = db.idempotencyRecords ++ records) {key endpoint : Str}
    {record : IdempotencyRecord} (hrecord : db.record key endpoint = some record)
    : out.record key endpoint = some record := by
  unfold Database.record at hrecord ⊢
  rw [h, find?_append, hrecord]
  rfl

theorem commit_eq_ok {minted : NewKey} {w : Writes} {out : Database} (h : db.commit s call minted w = .ok out)
    : (call.retryKey = none ∧ out.idempotencyRecords = db.idempotencyRecords) ∨
      ∃ key, call.retryKey = some key ∧ db.record key call.operation.endpoint = none ∧
        out.idempotencyRecords = db.idempotencyRecords ++
          [⟨key, call.operation.endpoint, fingerprint s call.operation.payload, call.operation.status,
            minted.response⟩] := by
  cases hwrite : db.write s w with
  | error failure =>
    unfold Database.commit at h
    rw [hwrite] at h
    cases h
  | ok written =>
    have hrecords := write_records hwrite
    rw [commit_of_write hwrite] at h
    cases hkey : call.retryKey with
    | none =>
      rw [hkey] at h
      rw [← ok.inj h]
      exact .inl ⟨rfl, hrecords⟩
    | some key =>
      rw [hkey, elim_some] at h
      unfold Database.remember at h
      rw [ite_error_eq_ok_iff] at h
      rcases h with ⟨hnone, h⟩
      split at h
      . rw [← ok.inj h]
        refine .inr ⟨key, rfl, Option.not_isSome_iff_eq_none.mp hnone, ?_⟩
        rw [hrecords]
      . cases h

end

section

variable {s : Settings} {db : Database} {call : Call} {secret : Secret} {task : Task} {response : Response}

theorem look_answer (h : (task.look s db call).answer = some response)
    : task.answer = some response ∨ ∃ key, call.retryKey = some key ∧
        db.replay s key call.operation.endpoint call.operation.payload = .ok (some response) := by
  cases task with
  | waiting =>
    cases hkey : call.retryKey with
    | none =>
      unfold Task.look at h
      rw [hkey] at h
      cases h
    | some key =>
      unfold Task.look at h
      rw [hkey, elim_some] at h
      cases hreplay : db.replay s key call.operation.endpoint call.operation.payload with
      | error failure =>
        rw [hreplay] at h
        cases h
      | ok replayed =>
        rw [hreplay] at h
        cases replayed with
        | none => cases h
        | some response' =>
          rw [← some.inj h]
          exact .inr ⟨key, rfl, hreplay⟩
  | _ => exact .inl h

theorem look_isCommitted : (task.look s db call).isCommitted = task.isCommitted := by
  cases task with
  | waiting =>
    unfold Task.look
    cases call.retryKey.elim (.ok none)
        (db.replay s · call.operation.endpoint call.operation.payload) with
    | error failure => rfl
    | ok replayed => cases replayed <;> rfl
  | _ => rfl

theorem mint_unanswered
    : (task.mint s db call secret).answer = task.answer ∧
        (task.mint s db call secret).isCommitted = task.isCommitted := by
  cases task with
  | checked =>
    unfold Task.mint
    cases mint s db call secret with
    | error failure => exact ⟨rfl, rfl⟩
    | ok minted =>
      cases call.writes s db secret with
      | none => exact ⟨rfl, rfl⟩
      | some writes => cases call.dryRun <;> exact ⟨rfl, rfl⟩
  | _ => exact ⟨rfl, rfl⟩

theorem crash_unanswered : task.crash.answer = task.answer ∧ task.crash.isCommitted = task.isCommitted := by
  cases task <;> exact ⟨rfl, rfl⟩

def Task.Real (call : Call) (task : Task) : Prop :=
  ∀ response, task.result = some (.ok response) → call.dryRun = false → task.answer = some response

theorem Task.Real.look (h : task.Real call) : (task.look s db call).Real call := by
  cases task with
  | waiting =>
    intro response
    unfold Task.look
    cases call.retryKey.elim (.ok none)
        (db.replay s · call.operation.endpoint call.operation.payload) with
    | error failure => exact fun hresult => by cases hresult
    | ok replayed =>
      cases replayed with
      | none => exact fun hresult => by cases hresult
      | some response' =>
        intro hresult _
        cases hresult
        rfl
  | _ => exact h

theorem Task.Real.mint (h : task.Real call) : (task.mint s db call secret).Real call := by
  cases task with
  | checked =>
    intro response
    unfold Task.mint
    cases Keys.mint s db call secret with
    | error failure => exact fun hresult => by cases hresult
    | ok minted =>
      cases call.writes s db secret with
      | none => exact fun hresult => by cases hresult
      | some writes =>
        cases hdry : call.dryRun with
        | true => exact fun _ hreal => by cases hreal
        | false => exact fun hresult => by cases hresult
  | _ => exact h

theorem Task.Real.crash (h : task.Real call) : task.crash.Real call := by
  cases task with
  | waiting => exact fun _ hresult => by cases hresult
  | checked => exact fun _ hresult => by cases hresult
  | minted key writes => exact fun _ hresult => by cases hresult
  | _ => exact h

theorem commit_cases
    : task.commit s db call = (task, db) ∨
      (∃ failure, task.isCommitted = false ∧ task.commit s db call = (.failed failure, db)) ∨
      ∃ key writes out, db.commit s call key writes = .ok out ∧
        task.commit s db call = (.committed ⟨call.operation.status, key.response⟩, out) := by
  cases task with
  | minted key writes =>
    unfold Task.commit
    dsimp only
    cases hcommit : db.commit s call key writes with
    | error failure => exact .inr (.inl ⟨failure, rfl, rfl⟩)
    | ok out => exact .inr (.inr ⟨key, writes, out, hcommit, rfl⟩)
  | _ => exact .inl rfl

end

namespace World

variable {ι : Type} [DecidableEq ι] {s : Settings} {calls : ι → Call × Secret} {w : World ι}

theorem step_records (e : Event ι)
    : ∃ records, (w.step s calls e).db.idempotencyRecords = w.db.idempotencyRecords ++ records := by
  cases e with
  | look i => exact ⟨[], (append_nil _).symm⟩
  | mint i => exact ⟨[], (append_nil _).symm⟩
  | crash i => exact ⟨[], (append_nil _).symm⟩
  | elsewhere db => exact ⟨[], (append_nil _).symm⟩
  | commit i =>
    change ∃ records, ((w.tasks i).commit s w.db (calls i).1).2.idempotencyRecords = _
    cases htask : w.tasks i with
    | minted key writes =>
      unfold Task.commit
      dsimp only
      cases hcommit : w.db.commit s (calls i).1 key writes with
      | error failure => exact ⟨[], (append_nil _).symm⟩
      | ok db =>
        rcases commit_eq_ok hcommit with ⟨_, hrecords⟩ | ⟨_, _, _, hrecords⟩
        . exact ⟨[], hrecords.trans (append_nil _).symm⟩
        . exact ⟨_, hrecords⟩
    | _ => exact ⟨[], (append_nil _).symm⟩

variable {key endpoint : Str} {record : IdempotencyRecord}

theorem step_record (e : Event ι) (h : w.db.record key endpoint = some record)
    : (w.step s calls e).db.record key endpoint = some record := by
  rcases @step_records _ _ s calls w e with ⟨_, hrecords⟩
  exact record_append hrecords h

variable {i : ι}

theorem step_tasks_of_ne {e : Event ι} (h : e.call? ≠ some i)
    : (w.step s calls e).tasks i = w.tasks i := by
  have hupdate : ∀ j task, some j ≠ some i → update w.tasks j task i = w.tasks i := by
    intro j task hne
    apply update_of_ne
    rintro rfl
    exact hne rfl
  cases e with
  | look j => exact hupdate j _ h
  | mint j => exact hupdate j _ h
  | commit j => exact hupdate j _ h
  | crash j => exact hupdate j _ h
  | elsewhere db => rfl

theorem step_task (e : Event ι) (i : ι)
    : (w.step s calls e).tasks i = w.tasks i ∨
      (w.step s calls e).tasks i = (w.tasks i).look s w.db (calls i).1 ∨
      (w.step s calls e).tasks i = (w.tasks i).mint s w.db (calls i).1 (calls i).2 ∨
      (w.step s calls e).tasks i = (w.tasks i).crash ∨
      e = .commit i ∧ (w.step s calls e).tasks i = ((w.tasks i).commit s w.db (calls i).1).1 := by
  by_cases hcall : e.call? = some i
  . cases e with
    | look j =>
      cases hcall
      exact .inr (.inl (update_self _ _ _))
    | mint j =>
      cases hcall
      exact .inr (.inr (.inl (update_self _ _ _)))
    | crash j =>
      cases hcall
      exact .inr (.inr (.inr (.inl (update_self _ _ _))))
    | commit j =>
      cases hcall
      exact .inr (.inr (.inr (.inr ⟨rfl, update_self _ _ _⟩)))
    | elsewhere db => cases hcall
  . exact .inl (step_tasks_of_ne hcall)

theorem step_cases (e : Event ι) (i : ι)
    : (((w.step s calls e).tasks i).isCommitted = (w.tasks i).isCommitted ∧
        ∀ response, ((w.step s calls e).tasks i).answer = some response →
          (w.tasks i).answer = some response ∨ ∃ key, (calls i).1.retryKey = some key ∧
              w.db.replay s key (calls i).1.operation.endpoint (calls i).1.operation.payload
                = .ok (some response)) ∨
      ∃ key writes, e = .commit i ∧ w.db.commit s (calls i).1 key writes = .ok (w.step s calls e).db ∧
        (w.step s calls e).tasks i = .committed ⟨(calls i).1.operation.status, key.response⟩ := by
  rcases step_task e i with h | h | h | h | ⟨rfl, h⟩
  . rw [h]
    exact .inl ⟨rfl, fun response => .inl⟩
  . rw [h]
    exact .inl ⟨look_isCommitted, fun response => look_answer⟩
  . rw [h, mint_unanswered.1]
    exact .inl ⟨mint_unanswered.2, fun response => .inl⟩
  . rw [h, crash_unanswered.1]
    exact .inl ⟨crash_unanswered.2, fun response => .inl⟩
  . have hdb : (w.step s calls (.commit i)).db = ((w.tasks i).commit s w.db (calls i).1).2 := rfl
    rw [h, hdb]
    rcases @commit_cases s w.db (calls i).1 (w.tasks i) with hsame | ⟨_, hnot, hfailed⟩ | ⟨key, writes, out, hcommit, hdone⟩
    . rw [hsame]
      exact .inl ⟨rfl, fun response => .inl⟩
    . rw [hfailed, hnot]
      exact .inl ⟨rfl, fun response h => by cases h⟩
    . rw [hdone]
      exact .inr ⟨key, writes, rfl, hcommit, rfl⟩

variable (s calls w) in
structure Settled : Prop where
  answered : ∀ i response, (w.tasks i).answer = some response → ∀ key ∈ (calls i).1.retryKey,
    ∃ record, w.db.record key (calls i).1.operation.endpoint = some record ∧
      record.requestFingerprint = fingerprint s (calls i).1.operation.payload ∧
      response = ⟨record.statusCode, record.responseBody⟩
  once : ∀ i j, (w.tasks i).isCommitted = true → (w.tasks j).isCommitted = true →
    ∀ key ∈ (calls i).1.retryKey, key ∈ (calls j).1.retryKey →
      (calls i).1.operation.endpoint = (calls j).1.operation.endpoint → i = j

omit [DecidableEq ι] in
theorem start_settled (db : Database) : (start db : World ι).Settled s calls := by
  constructor
  . intro i response h
    cases h
  . intro i j h
    cases h

theorem replay_eq_ok {db : Database} {payload : Str} {response : Response}
    (h : db.replay s key endpoint payload = .ok (some response))
    : ∃ record, db.record key endpoint = some record ∧ record.requestFingerprint = fingerprint s payload ∧
        response = ⟨record.statusCode, record.responseBody⟩ := by
  unfold Database.replay at h
  cases hrecord : db.record key endpoint with
  | none =>
    rw [hrecord] at h
    cases h
  | some record =>
    rw [hrecord] at h
    dsimp only at h
    split at h
    . next hsame => exact ⟨record, rfl, hsame, (some.inj (ok.inj h)).symm⟩
    . cases h

theorem step_committed {e : Event ι} {minted : NewKey} {writes : Writes}
    (hcommit : w.db.commit s (calls i).1 minted writes = .ok (w.step s calls e).db)
    (hkey : key ∈ (calls i).1.retryKey)
    : w.db.record key (calls i).1.operation.endpoint = none ∧
        (w.step s calls e).db.record key (calls i).1.operation.endpoint
          = some ⟨key, (calls i).1.operation.endpoint, fingerprint s (calls i).1.operation.payload,
              (calls i).1.operation.status, minted.response⟩ := by
  rcases commit_eq_ok hcommit with ⟨hnone, _⟩ | ⟨key', hsome, hfree, hrecords⟩
  . rw [hnone] at hkey
    cases hkey
  . rw [hsome] at hkey
    cases hkey
    refine ⟨hfree, ?_⟩
    unfold Database.record at hfree ⊢
    rw [hrecords, find?_append, hfree, Option.none_or, find?_cons_of_pos]
    simp

theorem Settled.step (h : w.Settled s calls) (e : Event ι) : (w.step s calls e).Settled s calls := by
  constructor
  . intro i response hanswer key hkey
    rcases @step_cases _ _ s calls w e i with ⟨_, hkept⟩ | ⟨minted, writes, _, hcommit, htask⟩
    . rcases hkept response hanswer with hbefore | ⟨key', hkey', hreplay⟩
      . rcases h.answered i response hbefore key hkey with ⟨record, hrecord, hrest⟩
        exact ⟨record, step_record e hrecord, hrest⟩
      . rw [hkey'] at hkey
        cases hkey
        rcases replay_eq_ok hreplay with ⟨record, hrecord, hrest⟩
        exact ⟨record, step_record e hrecord, hrest⟩
    . rw [htask] at hanswer
      exact ⟨_, (step_committed hcommit hkey).2, rfl, (some.inj hanswer).symm⟩
  . intro i j hi hj key hkeyi hkeyj hendpoint
    -- a call that had committed keeps another one with its key from committing
    have hblocked : ∀ a b, (calls a).1.operation.endpoint = (calls b).1.operation.endpoint →
        key ∈ (calls a).1.retryKey → key ∈ (calls b).1.retryKey → (w.tasks a).isCommitted = true →
        ∀ minted writes, w.db.commit s (calls b).1 minted writes ≠ .ok (w.step s calls e).db := by
      intro a b hend ha hb hcommitted minted writes hcommit
      have hfree := (step_committed hcommit hb).1
      cases htask : w.tasks a with
      | committed response =>
        rcases h.answered a response (by rw [htask]; rfl) key ha with ⟨record, hrecord, _⟩
        rw [hend, hfree] at hrecord
        cases hrecord
      | _ =>
        rw [htask] at hcommitted
        cases hcommitted
    rcases @step_cases _ _ s calls w e i with ⟨hkept, _⟩ | ⟨minted, writes, hevent, hcommit, _⟩
    . rcases @step_cases _ _ s calls w e j with ⟨hkept', _⟩ | ⟨_, _, _, hcommit', _⟩
      . exact h.once i j (hkept ▸ hi) (hkept' ▸ hj) key hkeyi hkeyj hendpoint
      . exact absurd hcommit' (hblocked i j hendpoint hkeyi hkeyj (hkept ▸ hi) _ _)
    . rcases @step_cases _ _ s calls w e j with ⟨hkept', _⟩ | ⟨_, _, hevent', _, _⟩
      . exact absurd hcommit (hblocked j i hendpoint.symm hkeyj hkeyi (hkept' ▸ hj) _ _)
      . rw [hevent] at hevent'
        exact Event.commit.inj hevent'

theorem step_real (h : ∀ i, (w.tasks i).Real (calls i).1) (e : Event ι) (i : ι)
    : ((w.step s calls e).tasks i).Real (calls i).1 := by
  rcases step_task e i with htask | htask | htask | htask | ⟨_, htask⟩
  . rw [htask]
    exact h i
  . rw [htask]
    exact (h i).look
  . rw [htask]
    exact (h i).mint
  . rw [htask]
    exact (h i).crash
  . rw [htask]
    rcases @commit_cases s w.db (calls i).1 (w.tasks i) with hsame | ⟨_, _, hfailed⟩ | ⟨_, _, _, _, hdone⟩
    . rw [hsame]
      exact h i
    . rw [hfailed]
      exact fun _ hresult => by cases hresult
    . rw [hdone]
      exact fun response hresult _ => by rw [ok.inj (some.inj hresult)]; rfl

theorem failed_step {failure : Failure} (h : w.tasks i = .failed failure) (e : Event ι)
    : (w.step s calls e).tasks i = .failed failure := by
  rcases step_task e i with htask | htask | htask | htask | ⟨_, htask⟩
  . rw [htask, h]
  . rw [htask, h]
    rfl
  . rw [htask, h]
    rfl
  . rw [htask, h]
    rfl
  . rw [htask, h]
    rfl

theorem step_db {e : Event ι} (hcall : e.call? = some i)
    (h : ((w.step s calls e).tasks i).isCommitted = false)
    : (w.step s calls e).db = w.db := by
  cases e with
  | commit j =>
    cases hcall
    have htask : (w.step s calls (.commit i)).tasks i = ((w.tasks i).commit s w.db (calls i).1).1 :=
      update_self _ _ _
    change ((w.tasks i).commit s w.db (calls i).1).2 = w.db
    rw [htask] at h
    rcases @commit_cases s w.db (calls i).1 (w.tasks i) with hsame | ⟨_, _, hfailed⟩ | ⟨_, _, _, _, hdone⟩
    . rw [hsame]
    . rw [hfailed]
    . rw [hdone] at h
      cases h
  | elsewhere db => cases hcall
  | _ => rfl

theorem run_settled (db : Database) (events : List (Event ι))
    : ((start db).run s calls events).Settled s calls ∧
        ∀ i, (((start db).run s calls events).tasks i).Real (calls i).1 := by
  unfold run
  induction events using reverseRecOn with
  | nil => exact ⟨start_settled db, fun i response hresult => by cases hresult⟩
  | append_singleton events e ih =>
    rw [foldl_append]
    exact ⟨ih.1.step e, step_real ih.2 e⟩

variable (calls) in
def Keyed (key endpoint : Str) (i : ι) : Prop :=
  (calls i).1.idempotencyKey = some key ∧ (calls i).1.operation.endpoint = endpoint

omit [DecidableEq ι] in
theorem Keyed.retryKey (hkey : key ≠ []) (h : Keyed calls key endpoint i)
    : (calls i).1.retryKey = some key := by
  unfold Call.retryKey
  rw [h.1]
  simp [hkey]

theorem look_conflict (hkey : key ≠ []) (hkeyed : Keyed calls key endpoint i)
    (hrecord : w.db.record key endpoint = some record)
    (hother : record.requestFingerprint ≠ fingerprint s (calls i).1.operation.payload)
    (hwaiting : w.tasks i = .waiting)
    : w.step s calls (.look i)
        =
      { w with tasks := update w.tasks i (.failed (.conflict (str "idempotency key "
          ++ Control.repr key ++ str " was already used with a different request body"))) } := by
  have hlook : (w.tasks i).look s w.db (calls i).1 = .failed (.conflict (str "idempotency key "
      ++ Control.repr key ++ str " was already used with a different request body")) := by
    rw [hwaiting]
    unfold Task.look
    rw [hkeyed.retryKey hkey, elim_some, hkeyed.2]
    unfold Database.replay
    rw [hrecord]
    dsimp only
    rw [if_neg hother]
  change { w with tasks := update w.tasks i ((w.tasks i).look s w.db (calls i).1) } = _
  rw [hlook]

end World

open World in
theorem keyed_calls_once {ι : Type} [DecidableEq ι] (s : Settings)
    (hfingerprint : Injective (fingerprint s)) (calls : ι → Call × Secret) (db : Database)
    (events : List (Event ι)) {key endpoint : Str} (hkey : key ≠ []) {w : World ι}
    (hw : (start db).run s calls events = w)
    : (∀ i j, Keyed calls key endpoint i → Keyed calls key endpoint j → (w.tasks i).isCommitted = true →
        (w.tasks j).isCommitted = true → i = j) ∧
      (∀ i j response response', Keyed calls key endpoint i → Keyed calls key endpoint j →
        (calls i).1.dryRun = false → (calls j).1.dryRun = false →
        (w.tasks i).result = some (.ok response) → (w.tasks j).result = some (.ok response') →
        response = response') ∧
      (∀ i record payload, Keyed calls key endpoint i → w.db.record key endpoint = some record →
        record.requestFingerprint = fingerprint s payload → (calls i).1.operation.payload ≠ payload →
        w.tasks i = .waiting →
        (w.step s calls (.look i)).db = w.db ∧
        ∀ later, ((w.step s calls (.look i)).run s calls later).tasks i
          = .failed (.conflict (str "idempotency key " ++ Control.repr key
              ++ str " was already used with a different request body"))) ∧
      ∀ e i, e.call? = some i → ((w.step s calls e).tasks i).isCommitted = false →
        (w.step s calls e).db = w.db := by
  rcases @run_settled _ _ s calls db events with ⟨hsettled, hreal⟩
  rw [hw] at hsettled hreal
  refine ⟨?_, ?_, ?_, fun e i => step_db⟩
  . intro i j hi hj hcommitted hcommitted'
    exact hsettled.once i j hcommitted hcommitted' key (hi.retryKey hkey) (hj.retryKey hkey)
      (hi.2.trans hj.2.symm)
  . intro i j response response' hi hj hdry hdry' hresult hresult'
    rcases hsettled.answered i response (hreal i response hresult hdry) key (hi.retryKey hkey)
      with ⟨record, hrecord, _, rfl⟩
    rcases hsettled.answered j response' (hreal j response' hresult' hdry') key (hj.retryKey hkey)
      with ⟨_, hrecord', _, rfl⟩
    rw [hi.2] at hrecord
    rw [hj.2, hrecord, some.injEq] at hrecord'
    rw [hrecord']
  . intro i record payload hi hrecord hpayload hne hwaiting
    have hother : record.requestFingerprint ≠ fingerprint s (calls i).1.operation.payload := by
      rw [hpayload]
      intro h
      exact hne (hfingerprint h).symm
    rw [look_conflict hkey hi hrecord hother hwaiting]
    refine ⟨rfl, ?_⟩
    intro later
    unfold World.run
    induction later using reverseRecOn with
    | nil => exact update_self _ _ _
    | append_singleton later e ih =>
      rw [foldl_append]
      exact failed_step ih e

namespace Sample

def openSettings : Settings :=
  { settings with sha256 := id }

theorem fingerprint_injective : Injective (fingerprint openSettings) :=
  Pii.hexEncode_injective

def twin (dryRun : Bool) : Call :=
  { issueCall (some (str "abc-123")) with dryRun := dryRun }

def twins (i : Fin 2) : Call × Secret :=
  (twin false, secret ⟨i, by omega⟩)

local instance neZero_two : NeZero 2 := ⟨by decide⟩

def overlap : List (Event (Fin 2)) :=
  [.look 0, .look 1, .mint 0, .mint 1, .commit 1, .commit 0]

def replayed : List (Event (Fin 2)) :=
  [.look 1, .mint 1, .commit 1, .look 0]

def rehearsal (i : Fin 2) : Call × Secret :=
  (twin (i = 0), secret ⟨i, by omega⟩)

end Sample

open Sample

theorem keyed_calls_once_twins
    : let w := (World.start database).run openSettings twins overlap
      let w' := (World.start database).run openSettings twins replayed
      (w.tasks 1).isCommitted = true ∧ w.tasks 0 = .failed .database ∧
        (∀ i j, World.Keyed twins (str "abc-123") (str "issue_key") i →
          World.Keyed twins (str "abc-123") (str "issue_key") j → (w.tasks i).isCommitted = true →
          (w.tasks j).isCommitted = true → i = j) ∧
        (∀ e i, e.call? = some i → ((w.step openSettings twins e).tasks i).isCommitted = false →
          (w.step openSettings twins e).db = w.db) ∧
        ∃ response, (w'.tasks 1).result = some (.ok response) ∧
          ∀ response', (w'.tasks 0).result = some (.ok response') → response' = response := by
  intro w w'
  have honce := @keyed_calls_once _ _ openSettings fingerprint_injective twins database overlap
    (str "abc-123") (str "issue_key") (by decide) w rfl
  have hsame := (@keyed_calls_once _ _ openSettings fingerprint_injective twins database replayed
    (str "abc-123") (str "issue_key") (by decide) w' rfl).2.1
  refine ⟨by rfl, by rfl, honce.1, honce.2.2.2, _, by rfl, ?_⟩
  intro response' hresponse'
  exact hsame 0 1 _ _ ⟨rfl, rfl⟩ ⟨rfl, rfl⟩ rfl rfl hresponse' (by rfl)

theorem rehearsed_differs
    : ∃ response response', (((World.start database).run openSettings rehearsal
          [.look 0, .mint 0, .look 1, .mint 1, .commit 1]).tasks 0).result = some (.ok response) ∧
        (((World.start database).run openSettings rehearsal
          [.look 0, .mint 0, .look 1, .mint 1, .commit 1]).tasks 1).result = some (.ok response') ∧
        (rehearsal 0).1.operation = (rehearsal 1).1.operation ∧
        (rehearsal 0).1.idempotencyKey = (rehearsal 1).1.idempotencyKey ∧
        response.statusCode = 200 ∧ response'.statusCode = 201 :=
  ⟨_, _, by rfl, by rfl, by rfl, by rfl, by rfl, by rfl⟩

end ModelGateway.Control.Keys
