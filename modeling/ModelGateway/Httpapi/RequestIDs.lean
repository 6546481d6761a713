import ModelGateway.Accounting.Columns
import ModelGateway.Gateway.Events
import ModelGateway.Gateway.Pipeline
import ModelGateway.Httpapi.Server
import ModelGateway.Lib.TextColumn
import ModelGateway.Telemetry.RedisStream

/-!
This module contains the ids of the requests that the server takes, and what the consumers of usage and audit
events make of the events that carry them.
-/

namespace ModelGateway

open List

namespace Pii

theorem colon_not_mem_hexEncode (s : Str) : 58 ∉ hexEncode s := by
  apply not_mem_hexEncode
  intro n hn
  unfold Str.quoteByte.hexDigit
  split <;> grind

theorem of_mem_hexEncode {s : Str} {b : UInt8} (hb : b ∈ hexEncode s) : b ≠ 0 ∧ (b &&& 0xc0 != 0x80) = true := by
  by_contra hnot
  refine not_mem_hexEncode (c := b) ?_ s hb
  have hdigits : ∀ n : Fin 16, Str.quoteByte.hexDigit (UInt8.ofNat n) ≠ 0 ∧
      (Str.quoteByte.hexDigit (UInt8.ofNat n) &&& 0xc0 != 0x80) = true := by
    decide
  rintro n hn rfl
  have hdigit := hdigits ⟨n.toNat, UInt8.lt_iff_toNat_lt.mp hn⟩
  rw [UInt8.ofNat_toNat] at hdigit
  exact hnot hdigit

theorem contains_hexEncode (s : Str) : (hexEncode s).contains 0 = false := by
  rw [← Bool.not_eq_true, contains_iff_mem]
  intro h
  exact (of_mem_hexEncode h).1 rfl

theorem width_hexEncode (s : Str) : TextColumn.width (hexEncode s) = 2 * s.length := by
  have hlength : (hexEncode s).length = 2 * s.length := by
    simp [hexEncode, Nat.mul_comm]
  rw [← hlength]
  apply countP_eq_length.mpr
  intro b hb
  exact (of_mem_hexEncode hb).2

end Pii

namespace Httpapi

open Gateway (Request Pipeline Ports World UsageEvent AuditEvent Event)
open Gateway.Pipeline (Emission)
open Accounting.Postgres (Books Storable)
open TextColumn (Fits varchar fits_iff_width width_append)

namespace Server

variable (s : Server) (c : Call)

def draw : TraceID :=
  if s.tracing && c.traceDraw.isValid then c.traceDraw else c.idDraw

def Accepts : Prop :=
  c.body.length ≤ maxBodyBytes ∧ c.readErr = none ∧
    ∃ parsed, s.unmarshal c.body = .ok parsed ∧ s.validModelName parsed.model = true ∧
      (parsed.stream = true → c.flusher = true)

theorem requestID_eq
    : s.requestID c
        =
      Pii.hexEncode (if (s.extract c.header).isValid then s.extract c.header else s.draw c).val := by
  have hne : ∀ id : TraceID, Pii.hexEncode id.val ≠ [] := by
    intro id h
    have hnil : id.val = [] := Pii.hexEncode_injective h
    have := id.property
    rw [hnil] at this
    simp at this
  unfold requestID startSpan traceIDFrom draw
  by_cases hremote : (s.extract c.header).isValid
  . simp [hremote, hne]
  . by_cases htracing : s.tracing
    . by_cases hdraw : c.traceDraw.isValid
      . simp [hremote, htracing, hdraw, hne]
      . simp [hremote, htracing, hdraw]
    . have hzero : TraceID.zero.isValid = false := rfl
      simp [hremote, htracing, hzero]

theorem width_requestID : TextColumn.width (s.requestID c) = 32 ∧ (s.requestID c).contains 0 = false := by
  have hlength : ∀ id : TraceID, id.val.length = 16 := fun id => id.property
  rw [s.requestID_eq, Pii.width_hexEncode, hlength]
  exact ⟨rfl, Pii.contains_hexEncode _⟩

theorem requestID_ne_nil : s.requestID c ≠ [] := by
  intro h
  have hwidth := (s.width_requestID c).1
  rw [h] at hwidth
  exact absurd hwidth (by decide)

theorem fits_requestID : Fits 128 (s.requestID c) := by
  rw [fits_iff_width, (s.width_requestID c).1]
  exact ⟨(s.width_requestID c).2, by decide⟩

theorem fits_shadow_iff (id : Str) : Fits 128 (s.requestID c ++ str ":shadow:" ++ id) ↔ Fits 88 id := by
  have hmark : TextColumn.width (str ":shadow:") = 8 ∧ (str ":shadow:").contains 0 = false := by decide
  rw [fits_iff_width, fits_iff_width, width_append, width_append, contains_append, contains_append,
    (s.width_requestID c).1, (s.width_requestID c).2, hmark.1, hmark.2]
  simp only [Bool.or_self, Bool.false_or]
  apply and_congr_right
  intro _
  omega

theorem parse_of_accepts (h : s.Accepts c)
    : ∃ req, s.parse c = .ok req ∧ req.requestMeta.requestID = s.requestID c ∧
        (req.requestMeta.stream = true → c.flusher = true) := by
  rcases h with ⟨hsize, hread, parsed, hparsed, hvalid, hflusher⟩
  have hmodel : parsed.model ≠ [] := by
    intro hempty
    simp [validModelName, hempty] at hvalid
  unfold parse
  rw [if_neg (by omega), hread]
  rw [hparsed]
  dsimp only
  rw [if_neg hmodel, if_pos hvalid]
  exact ⟨_, rfl, rfl, hflusher⟩

theorem accepts_of_parse {req : Request} (h : s.parse c = .ok req)
    (hflusher : req.requestMeta.stream = true → c.flusher = true)
    : s.Accepts c := by
  unfold parse at h
  split at h
  . simp at h
  . split at h
    . simp at h
    . next hsize _ hread =>
      split at h
      . simp at h
      . next parsed hparsed =>
        split at h
        . simp at h
        . split at h
          . next hvalid =>
            rw [← Except.ok.inj h] at hflusher
            exact ⟨by omega, hread, parsed, hparsed, hvalid, hflusher⟩
          . simp at h

end Server

inductive Emits (s : Server) (v : Serving) (c : Call) : Event → Prop where
  | served {e : Event} (h : e ∈ (s.serveCompletion v c).events) : Emits s v c e
  | mirrored {e : Event} {job : Shadow.Job} (hjob : job ∈ (s.serveCompletion v c).jobs)
      (ports : Ports) (w : World) (hw : w.events = [])
      (h : e ∈ (v.pipeline.shadowCall ports job.deployment job.request w).2.events) : Emits s v c e

def stem (id : Str) : Str :=
  id.takeWhile (· ≠ 58)

theorem stem_append (r rest : Str) (hr : 58 ∉ r) (hrest : rest = [] ∨ rest.head? = some 58)
    : stem (r ++ rest) = r := by
  unfold stem
  rw [takeWhile_append_of_pos]
  . rcases hrest with hrest | hrest
    . rw [hrest, takeWhile_nil, append_nil]
    . cases rest with
      | nil => simp
      | cons b rest =>
        rw [head?_cons, Option.some.injEq] at hrest
        simp [hrest]
  . intro b hb
    have : b ≠ 58 := fun h => hr (h ▸ hb)
    simpa using this

def eventID : Event → Str
  | .usage e => e.requestID
  | .audit e => e.eventID

variable {requestMeta : RequestMeta}

theorem emission_stem {snap : Snapshot} {events : List Event} (h : Emission snap requestMeta events)
    (hcolon : 58 ∉ requestMeta.requestID) {e : Event} (he : e ∈ events)
    : stem (eventID e) = requestMeta.requestID := by
  rcases h with ⟨req, _, d, _, _, err, rfl, rfl⟩
  rcases mem_cons.mp he with rfl | he
  . have := stem_append req.requestMeta.requestID [] hcolon (.inl rfl)
    rw [append_nil] at this
    exact this
  . rw [Option.mem_toList, Option.map_eq_some_iff] at he
    rcases he with ⟨a, ha, rfl⟩
    rcases Option.map_eq_some_iff.mp ha with ⟨⟨_, _⟩, _, rfl⟩
    dsimp only [eventID]
    rw [append_assoc]
    apply stem_append _ _ hcolon (.inr rfl)

theorem emission_usage {snap : Snapshot} {events : List Event} (h : Emission snap requestMeta events)
    : ∃ a, Event.usage a ∈ events ∧ a.requestID = requestMeta.requestID := by
  rcases h with ⟨req, _, d, _, _, err, rfl, rfl⟩
  exact ⟨_, mem_cons_self, rfl⟩

theorem serveCompletion_events (s : Server) (v : Serving) (c : Call)
    : (s.Accepts c ∧ ∃ requestMeta : RequestMeta, requestMeta.requestID = s.requestID c ∧
        Emission v.snap requestMeta (s.serveCompletion v c).events ∧
        ∀ job ∈ (s.serveCompletion v c).jobs, job.request.requestMeta = requestMeta) ∨
      (¬ s.Accepts c ∧ (s.serveCompletion v c).events = [] ∧ (s.serveCompletion v c).jobs = []) := by
  by_cases haccepts : s.Accepts c
  . refine .inl ⟨haccepts, ?_⟩
    rcases s.parse_of_accepts c haccepts with ⟨req, hparse, hid, hflusher⟩
    refine ⟨req.requestMeta, hid, ?_⟩
    unfold Server.serveCompletion
    rw [hparse]
    dsimp only
    split
    . next hstream =>
      rw [if_pos (hflusher hstream)]
      have hjobs := v.pipeline.handleStream_jobs v.ports v.snap req
        { v.world with events := [], jobs := [] }
      rcases v.pipeline.handleStream_events v.ports v.snap req
        { v.world with events := [], jobs := [] } with ⟨err, new, herr, hevents, hnew⟩ | ⟨herr, hfinish⟩
      . generalize v.pipeline.handleStream v.ports v.snap req _ = out at *
        rcases out with ⟨⟨result, err'⟩, w⟩
        subst herr
        rw [hevents, hjobs]
        exact ⟨hnew, by simp⟩
      . generalize v.pipeline.handleStream v.ports v.snap req _ = out at *
        rcases out with ⟨⟨result, err'⟩, w⟩
        subst herr
        rcases hfinish v.usage v.streamErr with ⟨new, hevents, hnew⟩
        rw [hevents, v.pipeline.finish_jobs, hjobs]
        exact ⟨hnew, by simp⟩
    . rcases v.pipeline.handle_events v.ports v.snap req
        { v.world with events := [], jobs := [] } with ⟨new, hevents, hnew⟩
      rcases v.pipeline.handle_jobs v.ports v.snap req
        { v.world with events := [], jobs := [] } with ⟨jobs, hjobs, hrequests⟩
      rw [hevents, hjobs]
      refine ⟨hnew, ?_⟩
      intro job hjob
      rcases hrequests job hjob with ⟨prep, _, _, _, hprep, _, _, _, _, _, hrequest⟩
      rw [hrequest]
      apply v.pipeline.prepare_requestMeta v.ports v.snap hprep
  . refine .inr ⟨haccepts, ?_⟩
    unfold Server.serveCompletion
    split
    . exact ⟨rfl, rfl⟩
    . next req hparse =>
      split
      . next hstream =>
        split
        . next hflusher => exact absurd (s.accepts_of_parse c hparse fun _ => hflusher) haccepts
        . exact ⟨rfl, rfl⟩
      . next hstream =>
        exact absurd (s.accepts_of_parse c hparse fun h => absurd h hstream) haccepts

theorem colon_not_mem_requestID (s : Server) (c : Call) : 58 ∉ s.requestID c := by
  rw [s.requestID_eq]
  apply Pii.colon_not_mem_hexEncode

theorem emits_stem {s : Server} {v : Serving} {c : Call} {e : Event} (he : Emits s v c e)
    : s.Accepts c ∧ stem (eventID e) = s.requestID c := by
  have hcolon := colon_not_mem_requestID s c
  rcases serveCompletion_events s v c with
    ⟨haccepts, _, hid, hemission, hjobs⟩ | ⟨_, hevents, hjobs⟩
  . refine ⟨haccepts, ?_⟩
    rw [← hid] at hcolon ⊢
    cases he with
    | served h => exact emission_stem hemission hcolon h
    | mirrored hjob ports w hw h =>
      rcases v.pipeline.shadowCall_events ports _ _ w e h with h | ⟨_, err, rfl⟩
      . rw [hw] at h
        simp at h
      . dsimp only [eventID, Gateway.Pipeline.shadowUsageEvent]
        rw [hjobs _ hjob, append_assoc]
        apply stem_append _ _ hcolon (.inr rfl)
  . cases he with
    | served h => simp [hevents] at h
    | mirrored hjob _ _ _ _ => simp [hjobs] at hjob

theorem emits_usage {s : Server} {v : Serving} {c : Call} {a : UsageEvent} (ha : Emits s v c (.usage a))
    : a.requestID = s.requestID c ∨ ∃ job ∈ (s.serveCompletion v c).jobs,
        a.requestID = s.requestID c ++ str ":shadow:" ++ job.deployment.id ∧
        ∃ ports w, World.events w = [] ∧
          .usage a ∈ (v.pipeline.shadowCall ports job.deployment job.request w).2.events := by
  rcases serveCompletion_events s v c with
    ⟨_, m, hid, ⟨req, _, d, _, _, err, rfl, hevents⟩, hjobs⟩ | ⟨_, hevents, hjobs⟩
  . cases ha with
    | served h =>
      rw [hevents, mem_cons] at h
      rcases h with h | h
      . cases h
        exact .inl hid
      . simp at h
    | mirrored hjob ports w hw h =>
      refine .inr ⟨_, hjob, ?_, ports, w, hw, h⟩
      rcases v.pipeline.shadowCall_events ports _ _ w _ h with h | ⟨_, err, h⟩
      . rw [hw] at h
        simp at h
      . cases h
        dsimp only [Gateway.Pipeline.shadowUsageEvent]
        rw [hjobs _ hjob, hid]
  . cases ha with
    | served h => simp [hevents] at h
    | mirrored hjob _ _ _ _ => simp [hjobs] at hjob

theorem emits_audit_unique {s : Server} {v : Serving} {c : Call} {a b : AuditEvent}
    (ha : Emits s v c (.audit a)) (hb : Emits s v c (.audit b))
    : a = b := by
  have hserved : ∀ {a : AuditEvent}, Emits s v c (.audit a) → .audit a ∈ (s.serveCompletion v c).events := by
    intro a ha
    cases ha with
    | served h => exact h
    | mirrored hjob ports w hw h =>
      rcases v.pipeline.shadowCall_events ports _ _ w _ h with h | ⟨_, _, h⟩
      . rw [hw] at h
        simp at h
      . simp at h
  replace ha := hserved ha
  replace hb := hserved hb
  rcases serveCompletion_events s v c with
    ⟨_, _, _, ⟨req, _, d, _, _, err, _, hevents⟩, _⟩ | ⟨_, hevents, _⟩
  . rw [hevents] at ha hb
    simp only [mem_cons, reduceCtorEq, false_or, Option.mem_toList, Option.map_eq_some_iff] at ha hb
    rcases ha with ⟨_, ha, haudit⟩
    rcases hb with ⟨_, hb, haudit'⟩
    rw [ha, Option.some.injEq] at hb
    cases haudit
    cases haudit'
    exact hb
  . simp [hevents] at ha

variable {ι : Type}

def DistinctIDs (s : Server) (v : ι → Serving) (c : ι → Call) : Prop :=
  ∀ i j, i ≠ j → (∀ a b, Emits s (v i) (c i) (.usage a) → Emits s (v j) (c j) (.usage b) →
      a.requestID ≠ b.requestID) ∧
    (∀ a b, Emits s (v i) (c i) (.audit a) → Emits s (v j) (c j) (.audit b) → a.eventID ≠ b.eventID)

def Delivered (s : Server) (v : ι → Serving) (c : ι → Call) (d : ι × Accounting.UsageEvent) : Prop :=
  ∃ times a, Emits s (v d.1) (c d.1) (.usage a) ∧ d.2 = Telemetry.encode times a

-- The id is the key of `usage_records`, in a column of 128 characters.
def consume (books : Books) (batch : List Accounting.UsageEvent) : Option Books := do
  let rows ← batch.mapM fun m => (varchar 128 m.requestID).map fun id => { m with requestID := id }
  (books.step (.apply rows)).toOption

/--
Of the usage events of the calls, however often and in whatever batches they are delivered, each is recorded and
charged once: the one that is kept of those that share an id is of the same call.
-/
def Accounts (s : Server) (v : ι → Serving) (c : ι → Call) : Prop :=
  ∀ (books : Books) (batches : List (List (ι × Accounting.UsageEvent))), books.Stored →
    (∀ d ∈ batches.flatten, Delivered s v c d ∧ d.2.requestID ∉ books.db.ids) →
    Throughout Books.next Books.Fits books (batches.map fun batch => .apply (batch.map (·.2))) →
    ∃ books' kept, (batches.map (·.map (·.2))).foldlM consume books = some books' ∧
      kept <+ batches.flatten ∧ (kept.map (·.2.requestID)).Nodup ∧
      (∀ d ∈ batches.flatten, ∃ k ∈ kept, k.1 = d.1 ∧ k.2.requestID = d.2.requestID) ∧
      books'.db.usageRecords = books.db.usageRecords ++ kept.map (·.2.values) ∧
      ∀ id, books'.db.budgets.lookup id = (books.db.budgets.lookup id).map fun b =>
        b.charged (kept.map fun k => Accounting.due b.tenantID id k.2).sum

-- The log keeps the first record with each event id.
def Audits (s : Server) (v : ι → Serving) (c : ι → Call) : Prop :=
  ∀ delivered : List (ι × AuditEvent), (∀ d ∈ delivered, Emits s (v d.1) (c d.1) (.audit d.2)) →
    ∀ d ∈ delivered, d ∈ Distinct.distinctBy (·.2.eventID) [] delivered

def Mirrors (s : Server) (v : Serving) (c : Call) (d : Deployment) : Prop :=
  ∃ job ∈ (s.serveCompletion v c).jobs, job.deployment = d ∧ ∃ ports w a times, World.events w = [] ∧
    .usage a ∈ (v.pipeline.shadowCall ports d job.request w).2.events ∧ Storable (Telemetry.encode times a)

section

variable {s : Server} {v : ι → Serving} {c : ι → Call}

theorem DistinctIDs.audits (h : DistinctIDs s v c) : Audits s v c := by
  intro delivered hemits d hd
  have hsome : (delivered.find? fun k => k.2.eventID = d.2.eventID).isSome = true := by
    rw [find?_isSome]
    exact ⟨d, hd, by simp⟩
  rcases Option.isSome_iff_exists.mp hsome with ⟨k, hk⟩
  have hid : k.2.eventID = d.2.eventID := by simpa using find?_some hk
  have hkept := hemits k (mem_of_find?_eq_some hk)
  have hcall : k.1 = d.1 := by
    by_contra hne
    exact (h k.1 d.1 hne).2 _ _ hkept (hemits d hd) hid
  have hsame : k = d := by
    rcases k with ⟨i, a⟩
    rcases d with ⟨j, b⟩
    dsimp only at hcall hkept
    subst hcall
    rw [emits_audit_unique hkept (hemits _ hd)]
  rw [Distinct.mem_distinctBy, ← hsame]
  exact ⟨not_mem_nil, by rw [hsame] at hk ⊢; exact hk⟩

theorem Delivered.requestID_ne_nil {d : ι × Accounting.UsageEvent} (h : Delivered s v c d) : d.2.requestID ≠ [] := by
  rcases h with ⟨times, a, ha, hd⟩
  rw [hd]
  intro hnil
  have hstem := (emits_stem ha).2
  rw [show eventID (.usage a) = [] from hnil] at hstem
  exact s.requestID_ne_nil _ hstem.symm

theorem fits_delivered_iff
    : (∀ d, Delivered s v c d → Storable d.2 → Fits 128 d.2.requestID)
        ↔
      ∀ i d, Mirrors s (v i) (c i) d → Fits 88 d.id := by
  constructor
  . rintro h i _ ⟨job, hjob, rfl, ports, w, a, times, hw, ha, hstorable⟩
    have hfits := h (i, Telemetry.encode times a) ⟨times, a, .mirrored hjob ports w hw ha, rfl⟩ hstorable
    rw [← s.fits_shadow_iff (c i)]
    rcases v i |>.pipeline.shadowCall_events ports _ _ w _ ha with ha | ⟨_, err, ha⟩
    . rw [hw] at ha
      simp at ha
    . cases ha
      rcases serveCompletion_events s (v i) (c i) with ⟨_, m, hid, _, hjobs⟩ | ⟨_, _, hjobs⟩
      . rw [← hid, ← hjobs _ hjob]
        exact hfits
      . simp [hjobs] at hjob
  . rintro h ⟨i, m⟩ ⟨times, a, ha, rfl⟩ hstorable
    change Fits 128 a.requestID
    rcases emits_usage ha with hid | ⟨job, hjob, hid, ports, w, hw, hshadow⟩
    . rw [hid]
      exact s.fits_requestID _
    . rw [hid, s.fits_shadow_iff]
      exact h i _ ⟨job, hjob, rfl, ports, w, a, times, hw, hshadow, hstorable⟩

theorem consume_of_fits {books : Books} {batch : List Accounting.UsageEvent}
    (h : ∀ m ∈ batch, Fits 128 m.requestID)
    : consume books batch = (books.step (.apply batch)).toOption := by
  have hrows : batch.mapM (fun m => (varchar 128 m.requestID).map fun id => { m with requestID := id })
      = some batch := by
    induction batch with
    | nil => rfl
    | cons m batch ih =>
      rw [forall_mem_cons] at h
      rw [mapM_cons, ih h.2, show varchar 128 m.requestID = some m.requestID from h.1]
      rfl
  unfold consume
  rw [hrows]
  rfl

theorem foldlM_consume {books : Books} (hs : books.Stored) {batches : List (List Accounting.UsageEvent)}
    (hfits : ∀ m ∈ batches.flatten, m.requestID ≠ [] ∧ (Storable m → Fits 128 m.requestID))
    (hrange : Throughout Books.next Books.Fits books (batches.map .apply))
    : ∃ books', batches.foldlM consume books = some books' ∧
        books'.db.usageRecords = books.db.usageRecords
          ++ (Distinct.distinctBy (·.requestID) ([] :: books.db.ids) batches.flatten).map (·.values) ∧
        ∀ id, books'.db.budgets.lookup id = (books.db.budgets.lookup id).map fun b =>
          b.charged ((Distinct.distinctBy (·.requestID) ([] :: books.db.ids) batches.flatten).map
            (Accounting.due b.tenantID id)).sum := by
  induction batches generalizing books with
  | nil =>
    refine ⟨books, rfl, by simp [Distinct.distinctBy], ?_⟩
    intro id
    cases books.db.budgets.lookup id <;> simp [Distinct.distinctBy, Accounting.Budget.charged]
  | cons batch batches ih =>
    rw [flatten_cons, forall_mem_append] at hfits
    rcases hrange with ⟨hbatch, hrest⟩
    have hstep := Books.step_apply_of_fits hs hbatch
    have hnext : books.next (.apply batch) = { books with db := (books.db.apply batch).1 } := by
      unfold Books.next
      rw [hstep]
    have hstored := hs.next (.apply batch)
    rw [hnext] at hrest hstored
    rcases ih hstored hfits.2 hrest with ⟨books', hfold, hrecords, hbudgets⟩
    rcases books.db.apply_spec batch with ⟨hrecords₁, hbudgets₁⟩
    have hids : (books.db.apply batch).1.ids = books.db.ids
        ++ (Distinct.distinctBy (·.requestID) ([] :: books.db.ids) batch).map (·.requestID) := by
      rw [Accounting.Database.ids, hrecords₁, map_append, map_map]
      rfl
    have hall : Distinct.distinctBy (·.requestID) ([] :: books.db.ids) (batch :: batches).flatten
        = Distinct.distinctBy (·.requestID) ([] :: books.db.ids) batch
          ++ Distinct.distinctBy (·.requestID) ([] :: (books.db.apply batch).1.ids) batches.flatten := by
      rw [flatten_cons, Distinct.distinctBy_append, hids]
      rfl
    refine ⟨books', ?_, ?_, ?_⟩
    . rw [foldlM_cons, consume_of_fits fun m hm => (hfits.1 m hm).2 (hbatch.1 m hm (hfits.1 m hm).1), hstep]
      exact hfold
    . rw [hall, map_append, ← append_assoc, ← hrecords₁]
      exact hrecords
    . intro id
      rw [hall, hbudgets, hbudgets₁, Option.map_map]
      congr 1
      funext b
      simp [Accounting.Budget.charged, Int.add_assoc]

theorem DistinctIDs.accounts (h : DistinctIDs s v c)
    (hfits : ∀ d, Delivered s v c d → Storable d.2 → Fits 128 d.2.requestID)
    : Accounts s v c := by
  intro books batches hs hdelivered hrange
  have hflatten : (batches.map (·.map (·.2))).flatten = batches.flatten.map (·.2) := map_flatten.symm
  rcases @foldlM_consume books hs (batches.map (·.map (·.2))) (by
      rw [hflatten, forall_mem_map]
      intro d hd
      exact ⟨(hdelivered d hd).1.requestID_ne_nil, hfits d (hdelivered d hd).1⟩) (by rwa [map_map]) with
    ⟨books', hfold, hrecords, hbudgets⟩
  rw [hflatten, Distinct.distinctBy_map] at hrecords hbudgets
  refine ⟨books', Distinct.distinctBy (·.2.requestID) ([] :: books.db.ids) batches.flatten, hfold,
    Distinct.distinctBy_sublist _ _ _, ?_, ?_, ?_, ?_⟩
  . apply Distinct.nodup_map_distinctBy
  . intro d hd
    have hnew : d.2.requestID ∉ [] :: books.db.ids := by
      rw [mem_cons, not_or]
      exact ⟨(hdelivered d hd).1.requestID_ne_nil, (hdelivered d hd).2⟩
    rcases Distinct.exists_mem_distinctBy (·.2.requestID) hd hnew with ⟨k, hk, hid⟩
    refine ⟨k, hk, ?_, hid⟩
    by_contra hne
    rcases (hdelivered k ((Distinct.distinctBy_sublist _ _ _).subset hk)).1 with ⟨_, a, ha, hka⟩
    rcases (hdelivered d hd).1 with ⟨_, b, hb, hdb⟩
    rw [hka, hdb] at hid
    exact (h k.1 d.1 hne).1 a b ha hb hid
  . rw [hrecords, map_map]
    rfl
  . intro id
    rw [hbudgets]
    congr 1
    funext b
    rw [map_map]
    rfl

end

def noBooks : Books where
  db := ⟨[], ∅, ∅, nodup_nil, by simp⟩
  limits := ∅

theorem fits_of_accounts {s : Server} {v : ι → Serving} {c : ι → Call} (h : Accounts s v c)
    {d : ι × Accounting.UsageEvent} (hd : Delivered s v c d) (hstorable : Storable d.2)
    : Fits 128 d.2.requestID := by
  rcases h noBooks [[d]] (by intro id b hb; simp [noBooks] at hb) (by simpa [noBooks, Accounting.Database.ids] using hd)
    ⟨⟨by simpa using fun _ => hstorable, by intro id b hb; simp [noBooks] at hb⟩, trivial⟩ with
    ⟨books', kept, hfold, hsub, _, hcovers, hrecords, _⟩
  have hkept : kept = [d] := by
    rcases hcovers d (by simp) with ⟨k, hk, _⟩
    rcases sublist_singleton.mp hsub with rfl | h
    . simp at hk
    . exact h
  have hconsume : consume noBooks [d.2] = some books' := by simpa using hfold
  unfold consume at hconsume
  cases hid : varchar 128 d.2.requestID with
  | none => simp [hid] at hconsume
  | some id =>
    have hstep : noBooks.step (.apply [{ d.2 with requestID := id }]) = .ok books' := by
      cases hstep : noBooks.step (.apply [{ d.2 with requestID := id }]) with
      | error err => simp [hid, hstep, Except.toOption] at hconsume
      | ok books => simpa [hid, hstep, Except.toOption] using hconsume
    -- The record is stored under what the column makes of the id.
    have hstored : d.2.values ∈ books'.db.usageRecords := by
      rw [hrecords, hkept]
      simp
    rw [Books.step_apply_eq_ok hstep] at hstored
    change d.2.values ∈ (noBooks.db.apply _).1.usageRecords at hstored
    rw [(noBooks.db.apply_spec _).1] at hstored
    simp only [noBooks, nil_append, mem_map] at hstored
    rcases hstored with ⟨row, hrow, hvalues⟩
    have hrow := mem_singleton.mp ((Distinct.distinctBy_sublist _ _ _).subset hrow)
    have hsame : id = d.2.requestID := by
      rw [hrow] at hvalues
      exact congrArg Accounting.UsageRecord.requestID hvalues
    unfold TextColumn.Fits
    rw [hid, hsame]

theorem requestID_ne_iff (s : Server) {c c' : Call} (hfresh : s.draw c ≠ s.draw c')
    : s.requestID c ≠ s.requestID c' ↔
      ((s.extract c.header).isValid = true → s.extract c'.header ≠ s.extract c.header ∧
        ((s.extract c'.header).isValid = false → s.draw c' ≠ s.extract c.header)) ∧
      ((s.extract c'.header).isValid = true →
        (s.extract c.header).isValid = false → s.draw c ≠ s.extract c'.header) := by
  rw [s.requestID_eq, s.requestID_eq, Pii.hexEncode_injective.ne_iff, Subtype.coe_injective.ne_iff]
  cases hc : (s.extract c.header).isValid with
  | true =>
    cases hc' : (s.extract c'.header).isValid with
    | true => simp [eq_comm]
    | false =>
      have hne : s.extract c'.header ≠ s.extract c.header := by
        intro h
        rw [h, hc] at hc'
        simp at hc'
      simp [hne, eq_comm]
  | false =>
    cases hc' : (s.extract c'.header).isValid with
    | true => simp
    | false => simp [hfresh]

theorem event_ids_distinct_iff (s : Server) (v : ι → Serving) (c : ι → Call)
    (hfresh : ∀ i j, i ≠ j → s.draw (c i) ≠ s.draw (c j))
    : DistinctIDs s v c ↔
      ∀ i j, i ≠ j → s.Accepts (c i) → s.Accepts (c j) → (s.extract (c i).header).isValid = true →
        s.extract (c j).header ≠ s.extract (c i).header ∧
        ((s.extract (c j).header).isValid = false → s.draw (c j) ≠ s.extract (c i).header) := by
  constructor
  . intro hdistinct i j hij hi hj
    have hne : s.requestID (c i) ≠ s.requestID (c j) := by
      rcases serveCompletion_events s (v i) (c i) with ⟨_, m, hm, hemission, _⟩ | ⟨hnot, _⟩
      . rcases serveCompletion_events s (v j) (c j) with ⟨_, m', hm', hemission', _⟩ | ⟨hnot, _⟩
        . rcases emission_usage hemission with ⟨a, ha, haid⟩
          rcases emission_usage hemission' with ⟨b, hb, hbid⟩
          have := (hdistinct i j hij).1 a b (.served ha) (.served hb)
          rwa [haid, hbid, hm, hm'] at this
        . exact absurd hj hnot
      . exact absurd hi hnot
    exact ((requestID_ne_iff s (hfresh i j hij)).mp hne).1
  . intro h i j hij
    -- the stem of an event's id is the request id of its call
    have hstem : ∀ e e', Emits s (v i) (c i) e → Emits s (v j) (c j) e' → eventID e ≠ eventID e' := by
      intro e e' he he' heq
      rcases emits_stem he with ⟨hi, hei⟩
      rcases emits_stem he' with ⟨hj, hej⟩
      apply (requestID_ne_iff s (hfresh i j hij)).mpr
        ⟨h i j hij hi hj, fun hvalid => (h j i (Ne.symm hij) hj hi hvalid).2⟩
      rw [← hei, ← hej, heq]
    exact ⟨fun a b ha hb => hstem _ _ ha hb, fun a b ha hb => hstem _ _ ha hb⟩

namespace Replay

def traceparent (h : Header) : TraceID :=
  let id := unhex ((h.get (str "Traceparent")).drop 3)
  if hlen : (id.take 16).length = 16 then ⟨id.take 16, hlen⟩ else .zero
where
  digit (b : UInt8) : UInt8 :=
    if b < 58 then b - 48 else b - 87
  unhex : Str → Str
    | b :: b' :: rest => (digit b * 16 + digit b') :: unhex rest
    | _ => []

def server : Server where
  extract := traceparent
  tracing := true
  unmarshal := fun _ => .ok ⟨str "m", false⟩
  trimSpace := id
  printable := fun _ => true

def call (parent body : Str) (draw : TraceID) : Call where
  endpoint := .chatCompletions
  header := ((∅ : Header).insert (str "Authorization") [str "Bearer gw_ac_secret"]).insert
    (str "Traceparent") [parent]
  body := body
  readErr := none
  clientIP := none
  deadline := 0
  flusher := true
  traceDraw := draw
  idDraw := draw

def parent : Str := str "00-0af7651916cd43dd8448eb211c80319c-b7ad6b7169203331-01"

def calls : Bool → Call
  | false => call parent (str "a") ⟨replicate 16 1, rfl⟩
  | true => call parent (str "bbbb") ⟨replicate 16 2, rfl⟩

def apart : Bool → Call
  | false => call parent (str "a") ⟨replicate 16 1, rfl⟩
  | true => call [] (str "bbbb") ⟨replicate 16 2, rfl⟩

def metered : Ports :=
  { Gateway.Sample.calm with
    invoke := fun _ call => .ok ⟨200, [], ⟨call.body.length, 0, 0, 0⟩⟩ }

def serving (_ : Bool) : Serving where
  pipeline := Gateway.Sample.pipeline
  ports := metered
  snap := Gateway.Sample.snapshot Gateway.Sample.outside [] .publicData .external
  world := .zero
  usage := .zero
  streamErr := none

def mirroring (_ : Bool) : Serving :=
  { serving false with snap := Gateway.Sample.snapshot Gateway.Sample.shadowed [] .publicData .external }

def usages (i : Bool) : List UsageEvent :=
  (server.serveCompletion (serving i) (calls i)).events.filterMap fun
    | .usage e => some e
    | .audit _ => none

def empty : Accounting.Database where
  usageRecords := []
  budgets := ∅
  tenants := ∅
  primaryKey := nodup_nil
  foreignKey := by simp

end Replay

open Replay

end Httpapi

end ModelGateway
