import ModelGateway.Control.Catalog
import ModelGateway.Lib.HashChain
import ModelGateway.Pii.Placeholders

namespace ModelGateway.Control.Audit

open Function List

structure Link where
  seq : Int
  eventID : Str
  requestID : Str
  occurredAt : Int
  tenant : Str
  actor : Str
  action : Str
  resource : Str
  outcome : Str
  reason : Str
  sourceIP : Str
  snapshotVersion : Int
  deriving DecidableEq

structure Hashing where
  sha256 : Str → Str
  microseconds : Int → Int

def genesis : Str := replicate 64 0x30

def separator : UInt8 := 0x1f

def domain : Str := str "model-gateway/audit/v1"

section

variable (e : Hashing)

def Link.parts (link : Link) (prevHash : Str) : List Str := [
  domain,
  decimal link.seq,
  prevHash,
  link.eventID,
  link.requestID,
  decimal (e.microseconds link.occurredAt),
  link.tenant,
  link.actor,
  link.action,
  link.resource,
  link.outcome,
  link.reason,
  link.sourceIP,
  decimal link.snapshotVersion]

def computeHash (link : Link) (prevHash : Str) : Str :=
  Pii.hexEncode (e.sha256 ((link.parts e prevHash).flatMap (HashChain.frame Str.ofNat separator)))

theorem decimal_injective : Injective decimal := by
  have hminus : ∀ n m : Nat, str "-" ++ Str.ofNat n ≠ Str.ofNat m := by
    intro n m h
    have hmem : (0x2d : UInt8) ∈ Str.ofNat m := by
      rw [← h]
      exact mem_append_left _ (by decide)
    have := (Str.isDigit_of_mem_ofNat hmem).1
    revert this
    decide
  intro n m h
  unfold decimal at h
  split at h
  . next hn =>
    split at h
    . next hm =>
      have := Str.ofNat_inj (append_cancel_left h)
      omega
    . exact absurd h (hminus _ _)
  . next hn =>
    split at h
    . exact absurd h.symm (hminus _ _)
    . next hm =>
      have := Str.ofNat_inj h
      omega

theorem separator_notMem_ofNat (n : Nat) : separator ∉ Str.ofNat n := by
  intro h
  have := (Str.isDigit_of_mem_ofNat h).1
  revert this
  decide

variable {e}

theorem computeHash_inj (hsha256 : Injective e.sha256)
    (hmicroseconds : ∀ t, e.microseconds t = t) {link link' : Link} {prev prev' : Str}
    (h : computeHash e link prev = computeHash e link' prev')
    : link = link' ∧ prev = prev' := by
  have hnumber : Injective Str.ofNat := fun _ _ => Str.ofNat_inj
  have hparts : link.parts e prev = link'.parts e prev' :=
    HashChain.frames_injective hnumber separator_notMem_ofNat (hsha256 (Pii.hexEncode_injective h))
  unfold Link.parts at hparts
  simp only [List.cons.injEq, decimal_injective.eq_iff, hmicroseconds] at hparts
  rcases link' with ⟨_, _, _, _, _, _, _, _, _, _, _, _⟩
  rcases hparts with ⟨-, rfl, rfl, rfl, rfl, rfl, rfl, rfl, rfl, rfl, rfl, rfl, rfl, rfl, -⟩
  exact ⟨rfl, rfl⟩

end

structure AuditRecord extends Link where
  prevHash : Str
  hash : Str
  deriving DecidableEq

def linkOf (row : AuditRecord) : Link := row.toLink

namespace AuditRecord

def AtOrBefore (row row' : AuditRecord) : Prop :=
  row.seq ≤ row'.seq

instance : DecidableRel AtOrBefore := fun row row' => inferInstanceAs (Decidable (row.seq ≤ row'.seq))

instance : IsTrans AuditRecord AtOrBefore := ⟨fun _ _ _ h h' => Int.le_trans h h'⟩

instance : Std.Total AtOrBefore := ⟨fun row row' => Int.le_total row.seq row'.seq⟩

end AuditRecord

structure AuditTable where
  rows : List AuditRecord
  ordered : rows.Pairwise AuditRecord.AtOrBefore
  primaryKey : (rows.map (·.seq)).Nodup
  uniqueEvents : (rows.map (·.eventID)).Nodup

structure Verdict where
  checked : Nat
  brokenAt : Option Int
  reason : Str
  head : Str
  deriving DecidableEq

def Verdict.intact (v : Verdict) : Bool :=
  v.brokenAt.isNone

section

variable (e : Hashing)

def verify.go (checked : Nat) (prevHash : Str) : List AuditRecord → Verdict
  | [] => ⟨checked, none, [], prevHash⟩
  | row :: rows =>
    if row.prevHash ≠ prevHash then
      ⟨checked, some row.seq,
        str "record " ++ decimal row.seq ++ str " follows " ++ row.prevHash.take 12
          ++ str "… but the previous record hashes to " ++ prevHash.take 12
          ++ str "… — a record between them is missing or was changed", prevHash⟩
    else
      let expected := computeHash e (linkOf row) prevHash
      if expected ≠ row.hash then
        ⟨checked, some row.seq,
          str "record " ++ decimal row.seq ++ str " hashes to " ++ expected.take 12
            ++ str "… but stores " ++ row.hash.take 12
            ++ str "… — its contents were changed after it was written", prevHash⟩
      else
        verify.go checked row.hash rows

def verify (table : AuditTable) (limit : Option Nat) : Verdict :=
  let rows := limit.elim table.rows table.rows.take
  verify.go e rows.length genesis rows

def Linked (prevHash : Str) : List AuditRecord → Prop
  | [] => True
  | row :: rows =>
    row.prevHash = prevHash ∧ row.hash = computeHash e (linkOf row) prevHash ∧ Linked row.hash rows

theorem go_intact_iff (checked : Nat) (prevHash : Str) (rows : List AuditRecord)
    : (verify.go e checked prevHash rows).intact = true ↔ Linked e prevHash rows := by
  induction rows generalizing prevHash with
  | nil => simp [verify.go, Linked, Verdict.intact]
  | cons row rows ih =>
    unfold verify.go Linked
    split
    . next hprev => simp [Verdict.intact, hprev]
    . next hprev =>
      rw [not_not] at hprev
      dsimp only
      split
      . next hhash => simp [Verdict.intact, Ne.symm hhash]
      . next hhash =>
        rw [not_not] at hhash
        rw [ih]
        simp [hprev, hhash]

theorem go_head {checked : Nat} {prevHash : Str} {rows : List AuditRecord}
    (h : Linked e prevHash rows)
    : (verify.go e checked prevHash rows).head
        =
      HashChain.head (computeHash e) prevHash (rows.map linkOf) := by
  induction rows generalizing prevHash with
  | nil => rfl
  | cons row rows ih =>
    rcases h with ⟨hprev, hhash, hrest⟩
    unfold verify.go
    rw [if_neg (not_not.mpr hprev)]
    rw [if_neg (not_not.mpr hhash.symm), ih hrest, hhash]
    rfl

variable {e}

theorem verified_head_determines (hsha256 : Injective e.sha256)
    (hgenesis : ∀ payload, Pii.hexEncode (e.sha256 payload) ≠ genesis)
    (hmicroseconds : ∀ t, e.microseconds t = t) (table table' : AuditTable)
    (hintact : (verify e table none).intact = true) (hintact' : (verify e table' none).intact = true)
    (hhead : (verify e table none).head = (verify e table' none).head)
    : table.rows.length = table'.rows.length ∧ table.rows.map linkOf = table'.rows.map linkOf := by
  unfold verify at hintact hintact' hhead
  rw [go_intact_iff] at hintact hintact'
  rw [go_head e hintact, go_head e hintact'] at hhead
  have hlinks : table.rows.map linkOf = table'.rows.map linkOf := by
    apply HashChain.head_injective _ _ hhead
    . intro link link' prev prev' h
      exact computeHash_inj hsha256 hmicroseconds h
    . intro link prev
      apply hgenesis
  refine ⟨?_, hlinks⟩
  have := congrArg List.length hlinks
  rwa [length_map, length_map] at this

end

namespace Sample

def hashing : Hashing where
  sha256 := fun payload => 1 :: payload
  microseconds := id

def link (seq : Int) (eventID : Str) : Link where
  seq := seq
  eventID := eventID
  requestID := str "req"
  occurredAt := 1756814400000000
  tenant := str "acme"
  actor := str "key-1"
  action := str "chat_completions"
  resource := str "echo-1"
  outcome := []
  reason := []
  sourceIP := []
  snapshotVersion := 7

def first : AuditRecord where
  toLink := link 1 (str "a")
  prevHash := genesis
  hash := computeHash hashing (link 1 (str "a")) genesis

def second : AuditRecord where
  toLink := link 2 (str "b")
  prevHash := first.hash
  hash := computeHash hashing (link 2 (str "b")) first.hash

def table : AuditTable where
  rows := [first, second]
  ordered := by decide
  primaryKey := by decide
  uniqueEvents := by decide

end Sample

open Audit.Sample

theorem verified_head_determines_sample
    : (verify hashing table none).intact = true ∧ table.rows.length = table.rows.length ∧
      table.rows.map linkOf = table.rows.map linkOf := by
  have hintact : (verify hashing table none).intact = true := by decide +kernel
  refine ⟨hintact, verified_head_determines ?_ ?_ ?_ table table hintact hintact rfl⟩
  . intro payload payload' h
    exact tail_eq_of_cons_eq h
  . intro payload h
    have : (Pii.hexEncode (1 :: payload)).take 2 = genesis.take 2 := congrArg (List.take 2) h
    simp [Pii.hexEncode, genesis] at this
    revert this
    decide
  . intro t
    rfl

end ModelGateway.Control.Audit
