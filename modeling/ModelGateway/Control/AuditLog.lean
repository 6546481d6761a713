import ModelGateway.Control.AuditChain
import ModelGateway.Lib.Distinct
import ModelGateway.Lib.TextColumn

/-!
This module contains the batches that the audit log appends and the columns that its table keeps them in.
-/

namespace ModelGateway.Control.Audit

open List Distinct

open TextColumn (Fits varchar)

structure Entry where
  eventID : Str
  action : Str
  occurredAt : Int
  requestID : Str
  tenant : Str
  actor : Str
  resource : Str
  outcome : Str
  reason : Str
  sourceIP : Str
  snapshotVersion : Int
  deriving DecidableEq

structure Appended where
  appended : Nat
  duplicates : Nat
  deriving DecidableEq

inductive DatabaseError where
  | refused
  | violated
  deriving DecidableEq

def Link.stored (link : Link) : Option Link := do
  let eventID ← varchar 255 link.eventID
  let requestID ← varchar 128 link.requestID
  let tenant ← varchar 64 link.tenant
  let actor ← varchar 255 link.actor
  let action ← varchar 128 link.action
  let resource ← varchar 255 link.resource
  let outcome ← varchar 64 link.outcome
  let sourceIP ← varchar 64 link.sourceIP
  if link.reason.contains 0 ∨ ¬ (-2 ^ 63 ≤ link.snapshotVersion ∧ link.snapshotVersion < 2 ^ 63) then
    none
  else
    some { link with
      eventID := eventID, requestID := requestID, tenant := tenant, actor := actor, action := action
      resource := resource, outcome := outcome, sourceIP := sourceIP }

namespace AuditTable

def empty : AuditTable := ⟨[], .nil, .nil, .nil⟩

variable (table : AuditTable)

def ids : List Str :=
  table.rows.map (·.eventID)

def insertStored (row : AuditRecord) : Except DatabaseError AuditTable :=
  if h : (table.rows.map (·.seq)).contains row.seq = false ∧ table.ids.contains row.eventID = false then
    .ok {
      rows := table.rows.orderedInsert AuditRecord.AtOrBefore row
      ordered := table.ordered.orderedInsert row table.rows
      primaryKey := by
        rw [((table.rows.perm_orderedInsert _ row).map _).nodup_iff]
        exact nodup_cons.mpr ⟨by simpa using h.1, table.primaryKey⟩
      uniqueEvents := by
        rw [((table.rows.perm_orderedInsert _ row).map _).nodup_iff]
        exact nodup_cons.mpr ⟨by simpa [ids] using h.2, table.uniqueEvents⟩
    }
  else
    .error .violated

def insert (row : AuditRecord) : Except DatabaseError AuditTable :=
  match row.toLink.stored with
  | none => .error .refused
  | some link => table.insertStored { row with toLink := link }

def head : Int × Str :=
  match table.rows.getLast? with
  | none => (0, genesis)
  | some row => (row.seq, row.hash)

def seen (eventID : Str) : Bool :=
  table.ids.contains eventID

end AuditTable

section

def Entry.link (entry : Entry) (seq : Int) : Link where
  seq := seq
  eventID := entry.eventID
  requestID := entry.requestID
  occurredAt := entry.occurredAt
  tenant := entry.tenant
  actor := entry.actor
  action := entry.action
  resource := entry.resource
  outcome := entry.outcome
  reason := entry.reason
  sourceIP := entry.sourceIP
  snapshotVersion := entry.snapshotVersion

structure Appending where
  table : AuditTable
  seq : Int
  prevHash : Str
  appended : Nat
  duplicates : Nat

variable (e : Hashing)

def appendOne (a : Appending) (entry : Entry) : Except DatabaseError Appending :=
  if a.table.seen entry.eventID then
    .ok { a with duplicates := a.duplicates + 1 }
  else
    let seq := a.seq + 1
    let link := entry.link seq
    let digest := computeHash e link a.prevHash
    match a.table.insert ⟨link, a.prevHash, digest⟩ with
    | .error err => .error err
    | .ok table => .ok ⟨table, seq, digest, a.appended + 1, a.duplicates⟩

def append (table : AuditTable) (entries : List Entry)
    : Except DatabaseError (Appended × AuditTable) :=
  if entries = [] then
    .ok (⟨0, 0⟩, table)
  else
    let (seq, prevHash) := table.head
    match entries.foldlM (appendOne e) ⟨table, seq, prevHash, 0, 0⟩ with
    | .error err => .error err
    | .ok a => .ok (⟨a.appended, a.duplicates⟩, a.table)

def appendAll (table : AuditTable)
    : List (List Entry) → Except DatabaseError (List Appended × AuditTable)
  | [] => .ok ([], table)
  | batch :: batches => do
    let (result, table) ← append e table batch
    let (results, table) ← appendAll table batches
    .ok (result :: results, table)

end

section

def entryOf (row : AuditRecord) : Entry where
  eventID := row.eventID
  action := row.action
  occurredAt := row.occurredAt
  requestID := row.requestID
  tenant := row.tenant
  actor := row.actor
  resource := row.resource
  outcome := row.outcome
  reason := row.reason
  sourceIP := row.sourceIP
  snapshotVersion := row.snapshotVersion

structure Entry.Storable (entry : Entry) : Prop where
  eventID : Fits 255 entry.eventID
  requestID : Fits 128 entry.requestID
  tenant : Fits 64 entry.tenant
  actor : Fits 255 entry.actor
  action : Fits 128 entry.action
  resource : Fits 255 entry.resource
  outcome : Fits 64 entry.outcome
  sourceIP : Fits 64 entry.sourceIP
  reason : 0 ∉ entry.reason
  snapshotVersion : -2 ^ 63 ≤ entry.snapshotVersion ∧ entry.snapshotVersion < 2 ^ 63

theorem Entry.Storable.stored {entry : Entry} (h : entry.Storable) (seq : Int)
    : (entry.link seq).stored = some (entry.link seq) := by
  rcases h with ⟨heventID, hrequestID, htenant, hactor, haction, hresource, houtcome, hsourceIP, hreason, hversion⟩
  unfold TextColumn.Fits at *
  unfold Link.stored Entry.link
  dsimp only
  rw [heventID, hrequestID, htenant, hactor, haction, hresource, houtcome, hsourceIP]
  simpa [hreason] using hversion

def numbers (n : Nat) : List Int :=
  (List.range n).map fun i : Nat => (i : Int) + 1

variable (e : Hashing)

def chainHead (rows : List AuditRecord) : Str :=
  HashChain.head (computeHash e) genesis (rows.map linkOf)

structure Sound (table : AuditTable) : Prop where
  numbered : table.rows.map (·.seq) = numbers table.rows.length
  linked : Linked e genesis table.rows

structure AtEnd (a : Appending) : Prop where
  sound : Sound e a.table
  seq : a.seq = a.table.rows.length
  prevHash : a.prevHash = chainHead e a.table.rows

variable {e}

variable {row : AuditRecord}

theorem linked_append_iff {prevHash : Str} {rows : List AuditRecord}
    : Linked e prevHash (rows ++ [row]) ↔ Linked e prevHash rows ∧
        row.prevHash = HashChain.head (computeHash e) prevHash (rows.map linkOf) ∧
        row.hash = computeHash e (linkOf row) row.prevHash := by
  induction rows generalizing prevHash with
  | nil =>
    simp only [nil_append, Linked, map_nil, HashChain.head, foldl_nil, and_true, true_and]
    constructor
    . rintro ⟨hprev, hhash⟩
      exact ⟨hprev, by rw [hprev]; exact hhash⟩
    . rintro ⟨hprev, hhash⟩
      exact ⟨hprev, by rw [← hprev]; exact hhash⟩
  | cons first rows ih =>
    rw [cons_append]
    unfold Linked
    rw [ih, map_cons]
    constructor
    . rintro ⟨hprev, hhash, hrest⟩
      rw [hhash] at hrest
      exact ⟨⟨hprev, hhash, by rw [hhash]; exact hrest.1⟩, hrest.2⟩
    . rintro ⟨⟨hprev, hhash, hrest⟩, hlast⟩
      refine ⟨hprev, hhash, hrest, ?_⟩
      rw [hhash]
      exact hlast

theorem numbered_append_iff {rows : List AuditRecord}
    : (rows ++ [row]).map (·.seq) = numbers (rows ++ [row]).length
        ↔
      rows.map (·.seq) = numbers rows.length ∧ row.seq = rows.length + 1 := by
  unfold numbers
  rw [length_append, length_singleton, range_succ, map_append, map_append,
    append_eq_append_iff_of_size_eq_right]
  . simp
  . rfl

variable {table : AuditTable}

theorem Sound.head (h : Sound e table)
    : table.head = ((table.rows.length : Int), chainHead e table.rows) := by
  rcases h with ⟨hnumbered, hlinked⟩
  unfold AuditTable.head chainHead
  generalize table.rows = rows at hnumbered hlinked
  cases rows using reverseRecOn with
  | nil => rfl
  | append_singleton rows row =>
    rw [numbered_append_iff] at hnumbered
    rw [linked_append_iff] at hlinked
    rw [getLast?_concat, map_append, map_singleton, HashChain.head_append,
      ← hlinked.2.1, ← hlinked.2.2, length_append]
    dsimp only
    rw [hnumbered.2]
    rfl

theorem Sound.seq_le (h : Sound e table) (hrow : row ∈ table.rows)
    : row.seq ≤ table.rows.length := by
  have hmem : row.seq ∈ table.rows.map (·.seq) := mem_map_of_mem hrow
  rw [h.numbered, numbers, mem_map] at hmem
  rcases hmem with ⟨i, hi, heq⟩
  rw [mem_range] at hi
  omega

theorem insert_last {row : AuditRecord}
    (hstored : row.toLink.stored = some row.toLink)
    (hseq : ∀ row' ∈ table.rows, row'.seq < row.seq) (hid : row.eventID ∉ table.ids)
    : ∃ table', table.insert row = .ok table' ∧ table'.rows = table.rows ++ [row] := by
  have hnew : (table.rows.map (·.seq)).contains row.seq = false := by
    rw [← Bool.not_eq_true, contains_iff_mem]
    intro hmem
    rcases mem_map.mp hmem with ⟨row', hrow', heq⟩
    have := hseq row' hrow'
    omega
  have hbefore : ∀ row' ∈ table.rows, decide (¬ row.AtOrBefore row') = true := by
    intro row' hrow'
    have := hseq row' hrow'
    unfold AuditRecord.AtOrBefore
    rw [decide_eq_true_eq]
    omega
  unfold AuditTable.insert
  rw [hstored]
  change ∃ table', table.insertStored row = .ok table' ∧ _
  unfold AuditTable.insertStored
  rw [← contains_iff_mem, Bool.not_eq_true] at hid
  rw [dif_pos ⟨hnew, hid⟩]
  refine ⟨_, rfl, ?_⟩
  change table.rows.orderedInsert AuditRecord.AtOrBefore row = _
  rw [orderedInsert_eq_take_drop, takeWhile_eq_self_iff.mpr hbefore,
    dropWhile_eq_nil_iff.mpr hbefore]

theorem AtEnd.appendOne {a : Appending} (h : AtEnd e a) {entry : Entry}
    (hfits : entry.eventID ∉ a.table.ids → entry.Storable)
    : ∃ a', appendOne e a entry = .ok a' ∧ AtEnd e a' ∧
        a'.appended + a'.duplicates = a.appended + a.duplicates + 1 ∧
        if entry.eventID ∈ a.table.ids then
          a'.table = a.table
        else
          a'.table.rows.map entryOf = a.table.rows.map entryOf ++ [entry] := by
  unfold Audit.appendOne AuditTable.seen
  by_cases hseen : entry.eventID ∈ a.table.ids
  . rw [if_pos (contains_iff_mem.mpr hseen)]
    refine ⟨_, rfl, ⟨h.sound, h.seq, h.prevHash⟩, by dsimp only; omega, ?_⟩
    rw [if_pos hseen]
  . rw [if_neg (mt contains_iff_mem.mp hseen)]
    dsimp only
    have hseq : ∀ row ∈ a.table.rows, row.seq < a.seq + 1 := by
      intro row hrow
      have := h.sound.seq_le hrow
      rw [h.seq]
      omega
    rcases @insert_last a.table ⟨entry.link (a.seq + 1), a.prevHash,
      computeHash e (entry.link (a.seq + 1)) a.prevHash⟩ ((hfits hseen).stored _) hseq hseen with ⟨_, hinsert, hrows⟩
    rw [hinsert]
    refine ⟨_, rfl, ⟨⟨?_, ?_⟩, ?_, ?_⟩, by dsimp only; omega, ?_⟩
    . rw [hrows, numbered_append_iff]
      refine ⟨h.sound.numbered, ?_⟩
      rw [← h.seq]
      rfl
    . rw [hrows, linked_append_iff]
      exact ⟨h.sound.linked, h.prevHash, rfl⟩
    . rw [hrows, h.seq, length_append]
      rfl
    . unfold chainHead
      rw [hrows, map_append, map_singleton, HashChain.head_append]
      rw [h.prevHash]
      rfl
    . rw [if_neg hseen, hrows, map_append]
      rfl

theorem ids_eq (table : AuditTable) : table.ids = (table.rows.map entryOf).map (·.eventID) := by
  rw [map_map]
  rfl

theorem AtEnd.foldlM {a : Appending} (h : AtEnd e a) {entries : List Entry}
    (hfits : ∀ entry ∈ distinctBy (·.eventID) a.table.ids entries, entry.Storable)
    : ∃ a', entries.foldlM (Audit.appendOne e) a = .ok a' ∧ AtEnd e a' ∧
        a'.appended + a'.duplicates = a.appended + a.duplicates + entries.length ∧
        a'.table.rows.map entryOf
          =
        a.table.rows.map entryOf ++ Distinct.distinctBy (·.eventID) a.table.ids entries := by
  induction entries generalizing a with
  | nil => exact ⟨a, rfl, h, rfl, by simp [Distinct.distinctBy]⟩
  | cons entry entries ih =>
    rw [distinctBy] at hfits
    have hentry : entry.eventID ∉ a.table.ids → entry.Storable := by
      intro hnew
      rw [if_neg hnew, forall_mem_cons] at hfits
      exact hfits.1
    rcases h.appendOne hentry with ⟨a₁, ha₁, hend, hcount, hrows⟩
    have hids : entry.eventID ∉ a.table.ids → ∀ id, id ∈ a₁.table.ids ↔ id ∈ entry.eventID :: a.table.ids := by
      intro hnew id
      rw [if_neg hnew] at hrows
      rw [ids_eq, hrows, ids_eq, map_append, mem_append, mem_cons, map_singleton, mem_singleton]
      exact or_comm
    have hrest : ∀ entry ∈ distinctBy (·.eventID) a₁.table.ids entries, entry.Storable := by
      split at hrows
      . next hseen =>
        rw [if_pos hseen] at hfits
        rwa [hrows]
      . next hseen =>
        rw [if_neg hseen, forall_mem_cons] at hfits
        rw [distinctBy_congr _ (hids hseen)]
        exact hfits.2
    rcases ih hend hrest with ⟨a', ha', hend', hcount', hrows'⟩
    refine ⟨a', ?_, hend', ?_, ?_⟩
    . rw [foldlM_cons, ha₁]
      exact ha'
    . rw [hcount', hcount, length_cons]
      omega
    . rw [hrows', Distinct.distinctBy]
      split at hrows
      . next hseen => rw [if_pos hseen, hrows]
      . next hseen =>
        rw [if_neg hseen, hrows, distinctBy_congr _ (hids hseen)]
        simp

theorem Sound.append (h : Sound e table) {entries : List Entry}
    (hfits : ∀ entry ∈ distinctBy (·.eventID) table.ids entries, entry.Storable)
    : ∃ result table', append e table entries = .ok (result, table') ∧ Sound e table' ∧
        result.appended + result.duplicates = entries.length ∧
        table'.rows.map entryOf
          =
        table.rows.map entryOf ++ Distinct.distinctBy (·.eventID) table.ids entries := by
  unfold Audit.append
  by_cases hnone : entries = []
  . rw [if_pos hnone, hnone]
    exact ⟨_, _, rfl, h, rfl, by simp [Distinct.distinctBy]⟩
  . rw [if_neg hnone, h.head]
    dsimp only
    have hstart : AtEnd e ⟨table, table.rows.length, chainHead e table.rows, 0, 0⟩ := ⟨h, rfl, rfl⟩
    rcases hstart.foldlM hfits with ⟨a, ha, hend, hcount, hrows⟩
    rw [ha]
    exact ⟨_, _, rfl, hend.sound, by simpa using hcount, hrows⟩

theorem Sound.appendAll (h : Sound e table) {batches : List (List Entry)}
    (hfits : ∀ entry ∈ distinctBy (·.eventID) table.ids batches.flatten, entry.Storable)
    : ∃ results table', appendAll e table batches = .ok (results, table') ∧ Sound e table' ∧
        results.map (fun r => r.appended + r.duplicates) = batches.map List.length ∧
        table'.rows.map entryOf
          =
        table.rows.map entryOf ++ Distinct.distinctBy (·.eventID) table.ids batches.flatten := by
  induction batches generalizing table with
  | nil => exact ⟨[], table, rfl, h, rfl, by simp [Distinct.distinctBy]⟩
  | cons batch batches ih =>
    rw [flatten_cons, distinctBy_append, forall_mem_append] at hfits
    rcases h.append hfits.1 with ⟨result, table₁, happend, hsound, hcount, hrows⟩
    have hids : table₁.ids = table.ids ++ (distinctBy (·.eventID) table.ids batch).map (·.eventID) := by
      rw [ids_eq, hrows, ids_eq, map_append]
    rcases ih hsound (by rw [hids]; exact hfits.2) with ⟨results, table', hrest, hsound', hcounts, hrows'⟩
    refine ⟨result :: results, table', ?_, hsound', ?_, ?_⟩
    . unfold Audit.appendAll
      rw [happend]
      dsimp only [bind, Except.bind]
      rw [hrest]
    . rw [map_cons, map_cons, hcount, hcounts]
    . rw [hrows', hrows, hids, flatten_cons, distinctBy_append, append_assoc]

end

theorem appended_batches (e : Hashing) (batches : List (List Entry))
    (hfits : ∀ entry ∈ distinctBy (·.eventID) [] batches.flatten, entry.Storable)
    : ∃ results table, appendAll e .empty batches = .ok (results, table) ∧
        table.rows.map (·.seq) = numbers table.rows.length ∧
        table.ids.Nodup ∧
        (∀ id, id ∈ table.ids ↔ ∃ entry ∈ batches.flatten, entry.eventID = id) ∧
        table.rows.map entryOf = Distinct.distinctBy (·.eventID) [] batches.flatten ∧
        results.map (fun r => r.appended + r.duplicates) = batches.map List.length ∧
        (verify e table none).intact = true := by
  have hempty : Sound e .empty := ⟨rfl, trivial⟩
  rcases hempty.appendAll hfits with ⟨results, table, hall, hsound, hcounts, hrows⟩
  refine ⟨results, table, hall, hsound.numbered, table.uniqueEvents, ?_, hrows, hcounts, ?_⟩
  . intro id
    rw [ids_eq, hrows]
    apply mem_map_distinctBy
  . unfold verify
    rw [go_intact_iff]
    exact hsound.linked

namespace Sample

def entry (eventID resource : Str) : Entry :=
  entryOf ⟨{ link 0 eventID with resource := resource }, [], []⟩

theorem entry_storable {eventID resource : Str} (hid : Fits 255 eventID) (hresource : Fits 255 resource)
    : (entry eventID resource).Storable := by
  have hrest : Fits 128 (str "req") ∧ Fits 64 (str "acme") ∧ Fits 255 (str "key-1") ∧
      Fits 128 (str "chat_completions") ∧ Fits 64 [] ∧ -2 ^ 63 ≤ (7 : Int) ∧ (7 : Int) < 2 ^ 63 := by
    decide
  rcases hrest with ⟨hrequest, htenant, hactor, haction, hnone, hversion⟩
  exact ⟨hid, hrequest, htenant, hactor, haction, hresource, hnone, hnone, not_mem_nil, hversion⟩

def redelivered : List (List Entry) := [
  [entry (str "a") (str "echo-1"), entry (str "b") (str "echo-2")],
  [entry (str "a") (str "echo-1"), entry (str "c") (str "echo-1")]]

end Sample

open Audit.Sample

theorem appended_batches_redelivered
    : ∃ results table, appendAll hashing .empty redelivered = .ok (results, table) ∧
        table.rows.map (·.seq) = numbers table.rows.length ∧
        table.ids.Nodup ∧
        (∀ id, id ∈ table.ids ↔ ∃ entry ∈ redelivered.flatten, entry.eventID = id) ∧
        table.rows.map entryOf = Distinct.distinctBy (·.eventID) [] redelivered.flatten ∧
        results.map (fun r => r.appended + r.duplicates) = redelivered.map List.length ∧
        (verify hashing table none).intact = true := by
  apply appended_batches
  have hdistinct : distinctBy (·.eventID) [] redelivered.flatten
      = [entry (str "a") (str "echo-1"), entry (str "b") (str "echo-2"), entry (str "c") (str "echo-1")] := by
    decide
  rw [hdistinct]
  simp only [forall_mem_cons]
  exact ⟨entry_storable (by decide) (by decide), entry_storable (by decide) (by decide),
    entry_storable (by decide) (by decide), by simp⟩

theorem long_resource_broken
    : let appended (resource : Str) := (appendAll hashing .empty [[entry (str "a") resource]]).map fun (_, table) =>
        (table.rows.map (·.resource), (verify hashing table none).intact)
      appended (replicate 255 0x6d ++ [TextColumn.space]) = .ok ([replicate 255 0x6d], false) ∧
      appended (replicate 256 0x6d) = .error .refused := by
  decide +kernel

end ModelGateway.Control.Audit
