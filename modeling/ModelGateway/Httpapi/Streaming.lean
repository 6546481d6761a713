import ModelGateway.Adapters.ChunkStream
import ModelGateway.Lib.JsonScan
import ModelGateway.Pii.Restorer

/-!
This module contains the streamed completion as the handler relays it, with placeholders restored in its
deltas.
-/

namespace ModelGateway.Httpapi

open List hiding lex

open Adapters (Chunk Stream StreamErr)
open Json
open Pii (Replacements Restorer Shaped placeholders original restore)

inductive SentEvent where
  | data (body : Str)
  | error (code : Code) (requestID : Str)
  | done
  deriving DecidableEq

def SentEvent.body : SentEvent → Option Str
  | data body => some body
  | _ => none

structure Relayed where
  events : List SentEvent
  usage : TokenUsage
  streamErr : Option GoError
  misses : Nat

def dataEvent (body : Str) : List SentEvent :=
  if body = [] then [] else [.data body]

def finishStream (usage : TokenUsage) (restorer : Restorer) : Relayed :=
  let (tail, restorer) := restorer.flush
  ⟨dataEvent tail ++ [.done], usage, none, restorer.misses⟩

def streamCompletion (requestID : Str)
    : TokenUsage → Restorer → List (Chunk × Option StreamErr) → Relayed
  | usage, restorer, [] => ⟨[], usage, none, restorer.misses⟩
  | usage, restorer, (chunk, err) :: rest =>
    let usage := if chunk.usage.input ≠ 0 ∨ chunk.usage.output ≠ 0 then chunk.usage else usage
    let (body, restorer) := restorer.push chunk.body
    let after :=
      match err with
      | some .eof => finishStream usage restorer
      | some (.failed err) => ⟨[.error err.codeOf requestID], usage, some err, restorer.misses⟩
      | none => streamCompletion requestID usage restorer rest
    { after with events := dataEvent body ++ after.events }

def payloads (results : List (Chunk × Option StreamErr)) : List Str :=
  (results.map fun result => result.1.body).filter (· ≠ [])

def written (events : List SentEvent) : List Str :=
  events.filterMap SentEvent.body

section

/-
Which strings of an event carry the text of the response, by where they stand.
-/
variable (carries : List (Frame (List Glyph)) → Bool)

def tokens (event : Str) : List (Token (List Glyph)) :=
  (lex event).getD []

def deltas (event : Str) : List (List Glyph) :=
  Reader.start.collect (fun r => r.next.awaitsValue && carries r.stack) (tokens event)

def deltaText (events : List Str) : Str :=
  (events.flatMap (deltas carries)).flatMap text

end

def isContent : List (Frame (List Glyph)) → Bool
  | [.object (some content), .object (some delta), .array _, .object (some choices)] =>
    text content == str "content" && text delta == str "delta" && text choices == str "choices"
  | _ => false

def Issued (replacements : Replacements) (w value : Str) : Prop :=
  Shaped w ∧ replacements.lookup w = some value

/-- An event that restoring its bytes does to as restoring its text would. -/
structure Undisturbed (replacements : Replacements) (carries : List (Frame (List Glyph)) → Bool)
    (event : Str) : Prop where
  closed : Restorer.Closed event
  plain (gs : List Glyph) : .string gs ∈ tokens event → ∀ w value, Issued replacements w value →
    w.map Glyph.plain <:+: gs → ∀ b ∈ value, isPlain b = true
  names (gs : List Glyph) : gs ∈ Json.names .start (tokens event) → ∀ w value,
    Issued replacements w value → ¬ w.map Glyph.plain <:+: gs
  spelled (gs : List Glyph) : gs ∈ deltas carries event → ∀ ys, ys <:+ gs → ∀ w value,
    Issued replacements w value → w <+: text ys → w.map Glyph.plain <+: ys
  halves (gs : List Glyph) : gs ∈ deltas carries event → ∀ g ys, g :: ys <:+ gs → g.high = true →
    ∀ w, Issued replacements w [] → ¬ w.map Glyph.plain <+: ys

def Whole (replacements : Replacements) (strings : List (List Glyph)) : Prop :=
  ∀ front gs, front ++ [gs] <+: strings → ∀ k < (front.flatMap text).length, ∀ w value,
    Issued replacements w value → w <+: (front.flatMap text ++ text gs).drop k →
      k + w.length ≤ (front.flatMap text).length

section

theorem isPlain_of_mem_shaped {w : Str} (h : Shaped w) : ∀ b ∈ w, isPlain b = true := by
  rcases h with ⟨kind, _, _, hkind, _, hdigits, rfl⟩
  intro b hb
  simp only [mem_append, mem_cons, not_mem_nil, or_false] at hb
  rcases hb with (rfl | rfl) | hb | rfl | hb | rfl | rfl
  . rfl
  . rfl
  . grind [Pii.isKindByte, isPlain]
  . rfl
  . grind [Pii.isDigit, isPlain]
  . rfl
  . rfl

theorem not_lexes_kind {b : UInt8} (hb : Pii.isKindByte b = true) {rest : Str}
    {ts : List (Token (List Glyph))}
    : ¬ Lexes (b :: rest) ts := by
  intro h
  rcases h.cons_cases with hspace | ⟨m, hm, _⟩ | hquote | ⟨word, hword⟩
  . grind [Pii.isKindByte, isSpace]
  . cases m <;> rw [hm] at hb <;> exact absurd hb (by decide)
  . rw [hquote] at hb
    exact absurd hb (by decide)
  . rcases head_of_isScalar hword with hdigit | hmore
    . grind [Pii.isKindByte, Json.isDigit]
    . rcases hmore with rfl | rfl | rfl | rfl <;> exact absurd hb (by decide)

theorem placeholders_inStrings : InStrings placeholders := by
  constructor
  . intro text w h
    exact isPlain_of_mem_shaped (Pii.placeholders_token_eq_some_iff.mp h).1
  . intro text w h b hb
    rcases (Pii.placeholders_token_eq_some_iff.mp h).1.body with ⟨body, rfl, _⟩
    rw [head?_cons, Option.mem_some_iff] at hb
    subst hb
    decide
  . intro text ts h
    rw [Option.eq_none_iff_forall_ne_some]
    intro w hw
    rcases Pii.placeholders_token_eq_some_iff.mp hw with ⟨hshaped, hleads⟩
    -- Both brackets would open an array, and then a kind follows.
    have hbracket : ∀ {rest : Str} {ts : List (Token (List Glyph))}, Lexes (91 :: rest) ts →
        ∃ ts', Lexes rest ts' := by
      intro rest ts h
      rcases h.cons_cases with hspace | ⟨_, _, hrest⟩ | hquote | ⟨word, hword⟩
      . exact absurd hspace (by decide)
      . exact hrest
      . exact absurd hquote (by decide)
      . exact absurd (head_of_isScalar hword) (by decide)
    rcases hshaped with ⟨kind, _, hne, hkind, _, _, rfl⟩
    rcases hleads with ⟨tail, rfl⟩
    rcases hbracket h with ⟨ts', h'⟩
    rcases hbracket h' with ⟨ts'', h''⟩
    cases kind with
    | nil => contradiction
    | cons b kind => exact not_lexes_kind (hkind b (by simp)) h''

end

section

variable {replacements : Replacements} {carries : List (Frame (List Glyph)) → Bool} {event : Str}

def restored (replacements : Replacements) : List Glyph → List Glyph :=
  (plainly placeholders).replace (plainOf (original replacements))

theorem original_of_isNone {w : Str} (h : replacements.lookup w = none)
    : original replacements w = w := by
  unfold original
  rw [h]

theorem original_of_isSome {w value : Str} (h : replacements.lookup w = some value)
    : original replacements w = value := by
  unfold original
  rw [h]

variable {gs : List Glyph}

theorem token_drop {v : List Glyph} {k : Nat} (h : (plainly placeholders).token (gs.drop k) = some v)
    : ∃ w, v = w.map .plain ∧ Shaped w ∧ w.map .plain <:+: gs := by
  have hleads := (plainly placeholders).starts h
  rcases Option.map_eq_some_iff.mp h with ⟨w, hw, rfl⟩
  refine ⟨w, rfl, (Pii.placeholders_token_eq_some_iff.mp hw).1, ?_⟩
  exact hleads.isInfix.trans (drop_suffix k gs).isInfix

theorem lexes_tokens (h : complete event = true)
    : Lexes event (tokens event) ∧ isDocument (tokens event) = true := by
  unfold complete at h
  rw [Option.any_eq_true] at h
  rcases h with ⟨ts, hts, h⟩
  unfold tokens
  rw [hts]
  exact ⟨lex_eq_some_iff.mp hts, h⟩

theorem ne_nil_of_complete (h : complete event = true) : event ≠ [] := by
  rintro rfl
  exact absurd h (by decide)

theorem lexes_restored (hcomplete : complete event = true)
    (h : Undisturbed replacements carries event)
    : Lexes (placeholders.replace (original replacements) event)
        ((tokens event).map (Token.map (restored replacements))) := by
  apply Lexes.replace placeholders_inStrings (lexes_tokens hcomplete).1
  intro gs hgs k v hv
  rcases token_drop hv with ⟨w, rfl, hshaped, hinfix⟩
  rw [rawText_map_plain]
  cases hlookup : replacements.lookup w with
  | none =>
    rw [original_of_isNone hlookup]
    exact isPlain_of_mem_shaped hshaped
  | some value =>
    rw [original_of_isSome hlookup]
    exact h.plain gs hgs w value ⟨hshaped, hlookup⟩ hinfix

theorem restored_name (h : Undisturbed replacements carries event)
    (hgs : gs ∈ Json.names .start (tokens event))
    : restored replacements gs = gs := by
  apply Scanner.replace_eq_self
  intro k v hv
  rcases token_drop hv with ⟨w, rfl, hshaped, hinfix⟩
  rw [plainOf, rawText_map_plain]
  cases hlookup : replacements.lookup w with
  | none => rw [original_of_isNone hlookup]
  | some value => exact absurd hinfix (h.names gs hgs w value ⟨hshaped, hlookup⟩)

theorem restored_event (hcomplete : complete event = true)
    (h : Undisturbed replacements carries event)
    : complete (placeholders.replace (original replacements) event) = true ∧
        deltas carries (placeholders.replace (original replacements) event)
          =
        (deltas carries event).map (restored replacements) := by
  have hlex := lex_eq_some_iff.mpr (lexes_restored hcomplete h)
  have hnames : ∀ gs ∈ Json.names .start (tokens event), restored replacements gs = gs := by
    intro gs hgs
    exact restored_name h hgs
  constructor
  . unfold complete isDocument
    rw [hlex, Option.any_some, foldlM_step_map hnames]
    exact (lexes_tokens hcomplete).2
  . unfold deltas
    rw [← collect_map _ hnames]
    unfold tokens
    rw [hlex]
    rfl

theorem text_restored (h : Undisturbed replacements carries event) (hgs : gs ∈ deltas carries event)
    : text (restored replacements gs) = placeholders.replace (original replacements) (text gs) := by
  apply text_replace_of_imp placeholders_inStrings (p := fun w => (replacements.lookup w).isSome)
  . intro w hw
    apply original_of_isNone
    simpa using hw
  . intro ys hys w hw htoken
    rcases Option.isSome_iff_exists.mp hw with ⟨value, hvalue⟩
    rcases Pii.placeholders_token_eq_some_iff.mp htoken with ⟨hshaped, hleads⟩
    exact h.spelled gs hgs ys hys w value ⟨hshaped, hvalue⟩ hleads
  . intro g ys hys hhigh w hw htoken hempty
    rcases Option.isSome_iff_exists.mp hw with ⟨value, hvalue⟩
    rw [original_of_isSome hvalue] at hempty
    subst hempty
    rcases Option.map_eq_some_iff.mp htoken with ⟨w', hw', heq⟩
    have heq : w' = w := by
      have := congrArg rawText heq
      rwa [rawText_map_plain, rawText_map_plain] at this
    subst heq
    apply h.halves gs hgs g ys hys hhigh w' ⟨(Pii.placeholders_token_eq_some_iff.mp hw').1, hvalue⟩
    exact (plainly placeholders).starts htoken

end

section

variable {replacements : Replacements}

theorem Whole.replace {strings : List (List Glyph)} (h : Whole replacements strings)
    : placeholders.replace (original replacements) (strings.flatMap text)
        =
      strings.flatMap fun gs => placeholders.replace (original replacements) (text gs) := by
  induction strings using reverseRecOn with
  | nil => simp
  | append_singleton front gs ih =>
    have hfront : Whole replacements front := by
      intro front' gs' hleads
      exact h front' gs' (hleads.trans (prefix_append _ _))
    rw [flatMap_append, flatMap_append, flatMap_singleton, flatMap_singleton, ← ih hfront]
    apply Scanner.replace_append
    intro k hk w hw hacross
    cases hlookup : replacements.lookup w with
    | none => exact original_of_isNone hlookup
    | some value =>
      rw [← drop_append_of_le_length (by omega)] at hw
      rcases Pii.placeholders_token_eq_some_iff.mp hw with ⟨hshaped, hleads⟩
      have := h front gs (prefix_refl _) k hk w value ⟨hshaped, hlookup⟩ hleads
      omega

structure Ready (replacements : Replacements) (r : Restorer) : Prop where
  replacements_eq : r.replacements = replacements
  held_eq : r.held = []

variable {r : Restorer}

theorem push_ready (hr : Ready replacements r) (body : Str)
    (hbody : body ≠ [] → replacements.entries ≠ [] → Restorer.pendingTail body = 0)
    : (r.push body).1 = restore body replacements ∧ Ready replacements (r.push body).2 := by
  have hactive : r.active = decide (0 < replacements.entries.length) := by
    rw [← hr.replacements_eq]
    rfl
  unfold Restorer.push
  by_cases hentries : replacements.entries = []
  . rw [hactive, hentries, if_pos (by simp)]
    exact ⟨by simp [restore, hentries], hr⟩
  . rw [hactive, if_neg (by simpa [length_pos_iff] using hentries)]
    dsimp only
    rw [hr.held_eq, nil_append]
    by_cases hnil : body = []
    . subst hnil
      rw [if_pos (by simp), Pii.restore_of_ne_nil hentries, Scanner.replace_nil]
      exact ⟨rfl, hr.replacements_eq, rfl⟩
    . have hpos := length_pos_of_ne_nil hnil
      rw [hbody hnil hentries, if_neg (by omega)]
      rw [Nat.sub_zero, take_length, drop_length]
      unfold Restorer.substitute
      rw [hr.replacements_eq, Pii.replaceAllFunc_placeholderPattern, Pii.restore_of_ne_nil hentries]
      exact ⟨rfl, rfl, rfl⟩

theorem written_finishStream (hr : Ready replacements r) (usage : TokenUsage)
    : written (finishStream usage r).events = [] := by
  have hflush : r.flush.1 = [] := by
    unfold Restorer.flush
    rw [hr.held_eq]
    split <;> rfl
  unfold finishStream
  dsimp only
  rw [hflush]
  rfl

@[simp]
theorem written_append (a b : List SentEvent) : written (a ++ b) = written a ++ written b :=
  filterMap_append

theorem written_dataEvent (body : Str) : written (dataEvent body) = if body = [] then [] else [body] := by
  unfold dataEvent
  split <;> rfl

theorem payloads_cons (result : Chunk × Option StreamErr) (rest : List (Chunk × Option StreamErr))
    : payloads (result :: rest)
        =
      (if result.1.body = [] then [] else [result.1.body]) ++ payloads rest := by
  unfold payloads
  split <;> simp_all

theorem written_streamCompletion (requestID : Str) {front : List (Chunk × Option StreamErr)}
    (chunk : Chunk) (err : StreamErr) (hfront : ∀ result ∈ front, result.2 = none)
    (hr : Ready replacements r) (usage : TokenUsage)
    (hpayloads : ∀ event ∈ payloads (front ++ [(chunk, some err)]),
      (replacements.entries ≠ [] → Restorer.pendingTail event = 0) ∧ restore event replacements ≠ [])
    : written (streamCompletion requestID usage r (front ++ [(chunk, some err)])).events
        =
      (payloads (front ++ [(chunk, some err)])).map (restore · replacements) := by
  have hnil : restore [] replacements = [] := by
    unfold restore
    split <;> rfl
  -- What one chunk adds, before the rest is looked at.
  have hchunk : ∀ {r : Restorer}, Ready replacements r → ∀ (result : Chunk × Option StreamErr)
      (rest : List (Chunk × Option StreamErr)),
      (∀ event ∈ payloads (result :: rest),
        (replacements.entries ≠ [] → Restorer.pendingTail event = 0) ∧
          restore event replacements ≠ []) →
      written (dataEvent (r.push result.1.body).1)
        = (if result.1.body = [] then [] else [result.1.body]).map (restore · replacements) ∧
      Ready replacements (r.push result.1.body).2 := by
    intro r hr result rest hall
    rw [payloads_cons] at hall
    have hbody : result.1.body ≠ [] →
        (replacements.entries ≠ [] → Restorer.pendingTail result.1.body = 0) ∧
          restore result.1.body replacements ≠ [] := by
      intro hne
      apply hall
      simp [hne]
    rcases push_ready hr result.1.body (fun hne => (hbody hne).1) with ⟨hpush, hready⟩
    refine ⟨?_, hready⟩
    rw [written_dataEvent, hpush]
    by_cases hne : result.1.body = []
    . rw [hne, hnil]
      simp
    . rw [if_neg (hbody hne).2, if_neg hne]
      rfl
  induction front generalizing r usage with
  | nil =>
    rw [nil_append] at hpayloads ⊢
    rcases hchunk hr _ _ hpayloads with ⟨hwritten, hready⟩
    rw [payloads_cons, map_append, ← hwritten]
    unfold streamCompletion
    rw [written_append]
    congr 1
    cases err with
    | eof => exact written_finishStream hready _
    | failed err => rfl
  | cons result front ih =>
    rw [forall_mem_cons] at hfront
    rw [cons_append] at hpayloads ⊢
    rcases hchunk hr _ _ hpayloads with ⟨hwritten, hready⟩
    rcases result with ⟨_, err'⟩
    obtain rfl : err' = none := hfront.1
    rw [payloads_cons, map_append, ← hwritten]
    unfold streamCompletion
    rw [written_append]
    congr 1
    apply ih hfront.2 hready
    intro event hevent
    apply hpayloads
    rw [payloads_cons]
    exact mem_append_right _ hevent

end

theorem streamed_restored (usageFrom : Str → TokenUsage) (ctxErr : Nat → Option GoError)
    (s : Stream) (requestID : Str) (replacements : Replacements)
    (carries : List (Frame (List Glyph)) → Bool)
    (hcomplete : ∀ event ∈ payloads (s.received usageFrom ctxErr), complete event = true)
    (h : replacements.entries ≠ [] →
      (∀ event ∈ payloads (s.received usageFrom ctxErr), Undisturbed replacements carries event) ∧
      Whole replacements ((payloads (s.received usageFrom ctxErr)).flatMap (deltas carries)))
    : (∀ event ∈ written (streamCompletion requestID .zero (.new replacements)
          (s.received usageFrom ctxErr)).events, complete event = true) ∧
      deltaText carries (written (streamCompletion requestID .zero (.new replacements)
          (s.received usageFrom ctxErr)).events)
        =
      restore (deltaText carries (payloads (s.received usageFrom ctxErr))) replacements := by
  rcases @Stream.received_ends usageFrom ctxErr s with ⟨front, chunk, err, heq, hfront⟩
  rw [heq] at hcomplete h ⊢
  generalize hevents : payloads (front ++ [(chunk, some err)]) = events at hcomplete h ⊢
  have hready : Ready replacements (.new replacements) := ⟨rfl, rfl⟩
  by_cases hentries : replacements.entries = []
  . have hid : ∀ event, restore event replacements = event := by
      intro event
      unfold restore
      rw [if_pos hentries]
    have hwritten := written_streamCompletion requestID chunk err hfront hready .zero (by
      intro event hevent
      rw [hevents] at hevent
      refine ⟨absurd hentries, ?_⟩
      rw [hid]
      exact ne_nil_of_complete (hcomplete event hevent))
    rw [hwritten, hevents, map_congr_left fun event _ => hid event, map_id', hid]
    exact ⟨hcomplete, rfl⟩
  . rcases h hentries with ⟨hundisturbed, hwhole⟩
    have hrestored : ∀ event ∈ events, complete (restore event replacements) = true ∧
          deltas carries (restore event replacements)
            = (deltas carries event).map (restored replacements) := by
      intro event hevent
      rw [Pii.restore_of_ne_nil hentries]
      exact restored_event (hcomplete event hevent) (hundisturbed event hevent)
    have hwritten := written_streamCompletion requestID chunk err hfront hready .zero (by
      intro event hevent
      rw [hevents] at hevent
      refine ⟨fun _ => ?_, ne_nil_of_complete (hrestored event hevent).1⟩
      apply Restorer.pendingTail_eq_zero (hundisturbed event hevent).closed
      rw [← getLast?_eq_getElem?]
      exact getLast?_of_complete (hcomplete event hevent))
    rw [hwritten, hevents]
    constructor
    . intro event hevent
      rcases mem_map.mp hevent with ⟨event, hmem, rfl⟩
      exact (hrestored event hmem).1
    . rw [Pii.restore_of_ne_nil hentries, deltaText, deltaText, hwhole.replace, flatMap_map,
        flatMap_congr fun event hevent => (hrestored event hevent).2, ← map_flatMap,
        flatMap_map]
      apply flatMap_congr
      intro gs hgs
      rcases mem_flatMap.mp hgs with ⟨event, hevent, hgs⟩
      exact text_restored (hundisturbed event hevent) hgs

namespace Sample

def replacements : Replacements :=
  AList.singleton (str "[[EMAIL_1]]") (str "a@b.co")

def event (content : String) : Str :=
  str "\x7b\"choices\":[\x7b\"delta\":\x7b\"content\":\"" ++ str content ++ str "\"\x7d\x7d]\x7d"

def stream (contents : List String) : Stream where
  lines := contents.flatMap (fun content => [str "data: " ++ event content, []]) ++ [str "data: [DONE]"]
  readErr := none
  finished := false
  usage := .zero

def received (contents : List String) : List (Chunk × Option StreamErr) :=
  (stream contents).received (fun _ => .zero) fun _ => none

def sent (contents : List String) : List Str :=
  written (streamCompletion (str "r1") .zero (.new replacements) (received contents)).events

theorem split_placeholder_torn
    : (payloads (received ["[[EMAIL", "_1]]"])).all complete = true ∧
        (sent ["[[EMAIL", "_1]]"]).any complete = false ∧
        deltaText isContent (sent ["[[EMAIL", "_1]]"])
          ≠
        restore (deltaText isContent (payloads (received ["[[EMAIL", "_1]]"]))) replacements := by
  decide +kernel

def contents : List String :=
  ["Hi [[EMAIL_1]]\\n", "[[1]] [[X_9]]"]

theorem issued_iff {w value : Str} (h : Issued replacements w value)
    : w = str "[[EMAIL_1]]" ∧ value = str "a@b.co" := by
  rcases h with ⟨_, h⟩
  have hmem : w ∈ replacements.keys := AList.lookup_isSome.mp (Option.isSome_of_mem h)
  have hw : w = str "[[EMAIL_1]]" := by simpa [replacements] using hmem
  subst hw
  refine ⟨rfl, ?_⟩
  have : replacements.lookup (str "[[EMAIL_1]]") = some (str "a@b.co") := by decide
  exact (Option.some.inj h).symm

theorem contents_shape
    : (∀ event ∈ payloads (received contents), Restorer.pendingTail event = 0) ∧
      (∀ event ∈ payloads (received contents), ∀ gs ∈ Json.names .start (tokens event),
        ¬ (str "[[EMAIL_1]]").map Glyph.plain <:+: gs) ∧
      (∀ event ∈ payloads (received contents), ∀ gs ∈ deltas isContent event,
        ∀ ys ∈ gs.tails, str "[[EMAIL_1]]" <+: text ys →
          (str "[[EMAIL_1]]").map Glyph.plain <+: ys) := by
  decide +kernel

theorem undisturbed_contents
    : ∀ event ∈ payloads (received contents), Undisturbed replacements isContent event := by
  intro event hevent
  rcases contents_shape with ⟨hclosed, hnames, hspelled⟩
  constructor
  . exact Restorer.closed_of_pendingTail (hclosed event hevent)
  . intro gs _ w value hissued _
    rcases issued_iff hissued with ⟨rfl, rfl⟩
    decide +kernel
  . intro gs hgs w value hissued
    rcases issued_iff hissued with ⟨rfl, rfl⟩
    exact hnames event hevent gs hgs
  . intro gs hgs ys hys w value hissued
    rcases issued_iff hissued with ⟨rfl, rfl⟩
    exact hspelled event hevent gs hgs ys ((mem_tails _ _).mpr hys)
  . intro gs _ g ys _ _ w hissued
    have := (issued_iff hissued).2
    exact absurd this (by decide)

theorem whole_contents
    : Whole replacements ((payloads (received contents)).flatMap (deltas isContent)) := by
  generalize hstrings : (payloads (received contents)).flatMap (deltas isContent) = strings
  have hwhole : ∀ m < strings.length, ∀ k < ((strings.take m).flatMap text).length,
      str "[[EMAIL_1]]" <+: ((strings.take (m + 1)).flatMap text).drop k →
        k + (str "[[EMAIL_1]]").length ≤ ((strings.take m).flatMap text).length := by
    subst hstrings
    decide +kernel
  intro front gs hleads k hk w value hissued hw
  rcases issued_iff hissued with ⟨rfl, rfl⟩
  have hfront : front = strings.take front.length :=
    prefix_iff_eq_take.mp ((prefix_append _ _).trans hleads)
  have hlast : front ++ [gs] = strings.take (front.length + 1) := by
    have := prefix_iff_eq_take.mp hleads
    simpa using this
  have hlt : front.length < strings.length := by
    have := hleads.length_le
    simp only [length_append, length_singleton] at this
    omega
  have := hwhole front.length hlt k (by rw [← hfront]; exact hk) (by
    rw [← hlast, flatMap_append, flatMap_singleton]
    exact hw)
  rwa [← hfront] at this

theorem contents_restored
    : (∀ event ∈ sent contents, complete event = true) ∧
        deltaText isContent (sent contents) = str "Hi a@b.co\n[[1]] [[X_9]]" := by
  have := streamed_restored (fun _ => .zero) (fun _ => none) (stream contents) (str "r1") replacements
    isContent (by decide +kernel) fun _ => ⟨undisturbed_contents, whole_contents⟩
  refine ⟨this.1, this.2.trans ?_⟩
  decide +kernel

end Sample

end ModelGateway.Httpapi
