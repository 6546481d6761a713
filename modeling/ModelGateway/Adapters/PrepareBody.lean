import ModelGateway.Core.Basic
import ModelGateway.Lib.JsonEncode

/-!
This module contains the rewriting of request bodies by the provider adapters.
-/

namespace ModelGateway.Adapters

open AList (lookup_insert lookup_insert_ne)
open List hiding lex

open Json

/-- A decoded request body, with raw messages as their tokens. -/
abbrev Payload := GoMap Str (List (Token (List Glyph)))

def insertMember (payload : Payload) (member : List Glyph × List (Token (List Glyph))) : Payload :=
  payload.insert (toValid (text member.1)) member.2

def unmarshal (body : Str) : Option (Option Payload) :=
  (lex body).bind fun ts =>
    if ts = [.scalar nullWord] then some none
    else (object ts).map fun members => some (members.foldl insertMember ∅)

def marshal (payload : Payload) : Str :=
  write <| objectTokens <|
    (payload.entries.mergeSort fun a b => a.1 ≤ b.1).map fun entry =>
      (encode entry.1, entry.2.map (Token.map escapeHTML))

def rawMessage (text : Str) : List (Token (List Glyph)) :=
  (lex text).getD []

inductive Prepared where
  | sent (body : Str)
  | failed (err : GoError)
  | panicked
  deriving DecidableEq

def notAnObject (cause : GoError) : GoError :=
  .wrap .invalidRequest (str "the request body is not a JSON object") false cause

section

/-
What `json.Unmarshal` says of a text it does not accept.
-/
variable (unmarshalError : Str → GoError)

def Openaicompat.rewrite (key : RoutingKey) (stream : Bool) (payload : Payload) : Payload :=
  let served := if key.isAdapter then key.adapterID else key.baseModel
  let payload := payload.insert (str "model") [.string (encode served)]
  let payload := payload.insert (str "stream") (rawMessage (str "false"))
  if stream then
    (payload.insert (str "stream") (rawMessage (str "true"))).insert (str "stream_options")
      (rawMessage (str "\x7b\"include_usage\":true\x7d"))
  else
    payload

-- Encoding a string or a map of messages that were decoded does not fail.
def Openaicompat.prepareBody (call : ProviderCall) (stream : Bool) : Prepared :=
  match unmarshal call.body with
  | none => .failed (notAnObject (unmarshalError call.body))
  | some none => .panicked
  | some (some payload) =>
    .sent (marshal (Openaicompat.rewrite call.deployment.key stream payload))

def Anthropic.defaultMaxTokens : Nat := 4096

def Anthropic.rewrite (key : RoutingKey) (stream : Bool) (payload : Payload) : Payload :=
  let payload := payload.insert (str "model") [.string (encode key.baseModel)]
  let payload := payload.insert (str "stream") (rawMessage (str "false"))
  let payload :=
    if stream then payload.insert (str "stream") (rawMessage (str "true")) else payload
  if (payload.lookup (str "max_tokens")).isNone then
    payload.insert (str "max_tokens") (rawMessage (Str.ofNat Anthropic.defaultMaxTokens))
  else
    payload

def Anthropic.prepareBody (call : ProviderCall) (stream : Bool) : Prepared :=
  match unmarshal call.body with
  | none => .failed (notAnObject (unmarshalError call.body))
  | some none => .panicked
  | some (some payload) =>
    .sent (marshal (Anthropic.rewrite call.deployment.key stream payload))

end

structure WellFormed (payload : Payload) : Prop where
  name : ∀ entry ∈ payload.entries, toValid entry.1 = entry.1
  valid : ∀ entry ∈ payload.entries, ∀ t ∈ entry.2, t.Valid
  isValue : ∀ entry ∈ payload.entries, IsValue entry.2

def field (payload : Payload) (name : Str) : Option (List (Token Str)) :=
  (payload.lookup name).map (List.map (Token.map text))

section

variable {payload : Payload} {v : List (Token (List Glyph))}

variable {entry : Sigma fun _ : Str => List (Token (List Glyph))}

theorem mem_entries_insert {name : Str} (h : entry ∈ (payload.insert name v).entries)
    : entry = ⟨name, v⟩ ∨ entry ∈ payload.entries := by
  rw [AList.entries_insert, mem_cons] at h
  rcases h with h | h
  . exact .inl h
  . exact .inr ((kerase_sublist _ _).subset h)

theorem WellFormed.insert (h : WellFormed payload) {name : Str} (hname : toValid name = name)
    (hvalid : ∀ t ∈ v, t.Valid) (hv : IsValue v)
    : WellFormed (payload.insert name v) := by
  constructor
  . intro entry hentry
    rcases mem_entries_insert hentry with rfl | hentry
    . exact hname
    . exact h.name entry hentry
  . intro entry hentry
    rcases mem_entries_insert hentry with rfl | hentry
    . exact hvalid
    . exact h.valid entry hentry
  . intro entry hentry
    rcases mem_entries_insert hentry with rfl | hentry
    . exact hv
    . exact h.isValue entry hentry

variable {members : List (List Glyph × List (Token (List Glyph)))}

theorem wellFormed_foldl_insertMember (hvalid : ∀ m ∈ members, ∀ t ∈ m.2, t.Valid)
    (hvalue : ∀ m ∈ members, IsValue m.2) (h : WellFormed payload)
    : WellFormed (members.foldl insertMember payload) := by
  induction members generalizing payload with
  | nil => exact h
  | cons m members ih =>
    rw [forall_mem_cons] at hvalid hvalue
    apply ih hvalid.2 hvalue.2
    exact h.insert (toValid_toValid _) hvalid.1 hvalue.1

theorem wellFormed_of_unmarshal {body : Str} (h : unmarshal body = some (some payload))
    : WellFormed payload := by
  rcases Option.bind_eq_some_iff.mp h with ⟨ts, hts, h⟩
  split at h
  . simp at h
  . rcases Option.map_eq_some_iff.mp h with ⟨_, hmembers, heq⟩
    cases heq
    apply wellFormed_foldl_insertMember _ (isValue_of_mem_object hmembers)
    . constructor <;> simp
    . intro m hm t ht
      apply (lex_eq_some_iff.mp hts).valid
      exact mem_of_mem_object hmembers m hm t ht

theorem lookup_foldl_insertMember_of_notMem {name : Str}
    (h : name ∉ members.map fun m => toValid (text m.1)) (payload : Payload)
    : (members.foldl insertMember payload).lookup name = payload.lookup name := by
  induction members generalizing payload with
  | nil => rfl
  | cons m members ih =>
    rw [map_cons, mem_cons, not_or] at h
    rw [foldl_cons, ih h.2]
    exact lookup_insert_ne h.1

theorem lookup_foldl_insertMember_of_mem (hnodup : (members.map fun m => toValid (text m.1)).Nodup)
    {m : List Glyph × List (Token (List Glyph))} (hm : m ∈ members) (payload : Payload)
    : (members.foldl insertMember payload).lookup (toValid (text m.1)) = some m.2 := by
  induction members generalizing payload with
  | nil => simp at hm
  | cons m' members ih =>
    rw [map_cons, nodup_cons] at hnodup
    rw [foldl_cons]
    rcases mem_cons.mp hm with rfl | hm
    . rw [lookup_foldl_insertMember_of_notMem hnodup.1]
      exact lookup_insert _
    . exact ih hnodup.2 hm _

def written (entry : Sigma fun _ : Str => List (Token (List Glyph)))
    : List Glyph × List (Token (List Glyph)) :=
  (encode entry.1, entry.2.map (Token.map escapeHTML))

theorem WellFormed.writable (h : WellFormed payload) (hentry : entry ∈ payload.entries)
    : Writable (written entry) := by
  constructor
  . intro g hg
    exact (valid_of_mem_encode hg).1
  . intro t ht
    rcases mem_map.mp ht with ⟨t, hmem, rfl⟩
    have := h.valid entry hentry t hmem
    cases t with
    | mark m => exact trivial
    | scalar word => exact this
    | string gs => exact valid_of_mem_escapeHTML this
  . exact (h.isValue entry hentry).map escapeHTML

theorem field_unmarshal_marshal (h : WellFormed payload)
    : ∃ sent, unmarshal (marshal payload) = some (some sent) ∧
        ∀ name, field sent name = field payload name := by
  generalize hsorted : (payload.entries.mergeSort fun a b => a.1 ≤ b.1) = sorted
  have hperm : sorted.Perm payload.entries := by
    rw [← hsorted]
    exact mergeSort_perm _ _
  have hread := @object_write (sorted.map written) (by
    intro m hm
    rcases mem_map.mp hm with ⟨entry, hentry, rfl⟩
    exact h.writable (hperm.subset hentry))
  have hkeys : (sorted.map written).map (fun m => toValid (text m.1)) = sorted.map Sigma.fst := by
    rw [map_map]
    apply map_congr_left
    intro entry hentry
    have := h.name entry (hperm.subset hentry)
    simp only [Function.comp_apply, written, text_encode, toValid_toValid]
    exact this
  have hnodup : ((sorted.map written).map fun m => toValid (text m.1)).Nodup := by
    rw [hkeys]
    exact (hperm.map _).nodup_iff.mpr payload.nodupKeys
  refine ⟨(sorted.map written).foldl insertMember ∅, ?_, ?_⟩
  . unfold unmarshal marshal
    rw [hsorted]
    rcases Option.bind_eq_some_iff.mp hread with ⟨ts, hts, hobject⟩
    change (lex (write (objectTokens (sorted.map written)))).bind _ = _
    rw [hts, Option.bind_some, if_neg, hobject]
    . rfl
    . rintro rfl
      simp [object] at hobject
  . intro name
    unfold field
    cases hlookup : payload.lookup name with
    | none =>
      have hnot : name ∉ (sorted.map written).map fun m => toValid (text m.1) := by
        rw [hkeys]
        intro hmem
        have hmem : name ∈ payload := (hperm.map Sigma.fst).subset hmem
        rw [← AList.lookup_isSome, hlookup] at hmem
        simp at hmem
      rw [lookup_foldl_insertMember_of_notMem hnot, AList.lookup_empty]
    | some v =>
      have hmem : (⟨name, v⟩ : Sigma fun _ : Str => List (Token (List Glyph))) ∈ sorted :=
        hperm.mem_iff.mpr (AList.mem_lookup_iff.mp hlookup)
      have hname := h.name _ (hperm.subset hmem)
      have := lookup_foldl_insertMember_of_mem hnodup (mem_map_of_mem hmem) ∅
      dsimp only [written] at this hname
      rw [text_encode, toValid_toValid, hname] at this
      rw [this, Option.map_some, Option.map_some, map_map]
      congr 1
      apply map_congr_left
      intro t _
      cases t with
      | mark m => rfl
      | scalar word => rfl
      | string gs => exact congrArg Token.string (text_escapeHTML gs)

end

def served (key : RoutingKey) : Str :=
  if key.isAdapter then key.adapterID else key.baseModel

structure Honours (key : RoutingKey) (stream : Bool) (added : List Str) (caller sent : Payload)
    : Prop where
  model : field sent (str "model") = some [.string (toValid (served key))]
  stream : field sent (str "stream") = some [.scalar (if stream then trueWord else falseWord)]
  others (name : Str) : name ≠ str "model" → name ≠ str "stream" → name ∉ added →
    field sent name = field caller name

inductive Adapter where
  | openaicompat
  | anthropic
  deriving DecidableEq

namespace Adapter

def prepareBody (unmarshalError : Str → GoError) : Adapter → ProviderCall → Bool → Prepared
  | openaicompat => Openaicompat.prepareBody unmarshalError
  | anthropic => Anthropic.prepareBody unmarshalError

def rewrite : Adapter → RoutingKey → Bool → Payload → Payload
  | openaicompat => Openaicompat.rewrite
  | anthropic => Anthropic.rewrite

def additions (adapter : Adapter) (stream : Bool) (caller : Payload) : List (Str × Str) :=
  match adapter with
  | openaicompat =>
    if stream then [(str "stream_options", str "\x7b\"include_usage\":true\x7d")] else []
  | anthropic =>
    if (caller.lookup (str "max_tokens")).isNone then
      [(str "max_tokens", Str.ofNat Anthropic.defaultMaxTokens)]
    else
      []

def asksFor (adapter : Adapter) (key : RoutingKey) : Str :=
  match adapter with
  | openaicompat => served key
  | anthropic => key.baseModel

end Adapter

section

variable {adapter : Adapter} {key : RoutingKey} {stream : Bool} {payload : Payload}

def addressed (name : Str) (stream : Bool) (payload : Payload) : Payload :=
  (payload.insert (str "model") [.string (encode name)]).insert (str "stream")
    [.scalar (if stream then trueWord else falseWord)]

def addLiteral (payload : Payload) (addition : Str × Str) : Payload :=
  payload.insert addition.1 (rawMessage addition.2)

theorem rawMessage_flag
    : rawMessage (str "true") = [.scalar trueWord] ∧ rawMessage (str "false") = [.scalar falseWord] := by
  decide +kernel

theorem rewrite_eq
    : adapter.rewrite key stream payload = (adapter.additions stream payload).foldl addLiteral
        (addressed (adapter.asksFor key) stream payload) := by
  rcases rawMessage_flag with ⟨htrue, hfalse⟩
  have hother : ∀ ts, ((payload.insert (str "model") ts).insert (str "stream")
      [.scalar (if stream then trueWord else falseWord)]).lookup (str "max_tokens")
        = payload.lookup (str "max_tokens") := by
    intro ts
    rw [lookup_insert_ne (by decide), lookup_insert_ne (by decide)]
  cases adapter with
  | openaicompat =>
    unfold Adapter.rewrite Openaicompat.rewrite Adapter.additions
    dsimp only
    cases stream <;> rfl
  | anthropic =>
    have hflag : ∀ p : Payload, (if stream then
        (p.insert (str "stream") [.scalar falseWord]).insert (str "stream") [.scalar trueWord]
      else p.insert (str "stream") [.scalar falseWord])
        = p.insert (str "stream") [.scalar (if stream then trueWord else falseWord)] := by
      intro p
      cases stream
      . rfl
      . exact AList.insert_insert _
    unfold Adapter.rewrite Anthropic.rewrite Adapter.additions
    dsimp only
    rw [htrue, hfalse, hflag, hother]
    split <;> rfl

theorem wellFormed_addressed (h : WellFormed payload) (name : Str)
    : WellFormed (addressed name stream payload) := by
  have hmodel : WellFormed (payload.insert (str "model") [.string (encode name)]) := by
    refine h.insert (by decide +kernel) ?_ (show IsValue [.string (encode name)] from rfl)
    intro t ht
    rw [mem_singleton] at ht
    subst ht
    intro g hg
    exact (valid_of_mem_encode hg).1
  refine hmodel.insert (by decide +kernel) ?_ (by cases stream <;> rfl)
  intro t ht
  rw [mem_singleton] at ht
  subst ht
  cases stream <;> rfl

theorem additions_literal {addition : Str × Str} (h : addition ∈ adapter.additions stream payload)
    : toValid addition.1 = addition.1 ∧ addition.1 ≠ str "model" ∧ addition.1 ≠ str "stream" ∧
        ∃ ts, lex addition.2 = some ts ∧ IsValue ts := by
  cases adapter with
  | openaicompat =>
    unfold Adapter.additions at h
    dsimp only at h
    split at h
    . rw [mem_singleton] at h
      subst h
      refine ⟨by decide +kernel, by decide, by decide, _, rfl, ?_⟩
      unfold IsValue
      decide +kernel
    . simp at h
  | anthropic =>
    unfold Adapter.additions at h
    dsimp only at h
    split at h
    . rw [mem_singleton] at h
      subst h
      exact ⟨by decide +kernel, by decide, by decide, [.scalar (Str.ofNat Anthropic.defaultMaxTokens)],
        by decide +kernel, rfl⟩
    . simp at h

theorem wellFormed_rewrite (h : WellFormed payload)
    : WellFormed (adapter.rewrite key stream payload) := by
  rw [rewrite_eq]
  apply foldlRecOn _ addLiteral (wellFormed_addressed h _)
  intro p hp addition haddition
  rcases additions_literal haddition with ⟨hname, _, _, ts, hlex, hvalue⟩
  unfold addLiteral rawMessage
  rw [hlex]
  exact hp.insert hname (lex_eq_some_iff.mp hlex).valid hvalue

theorem lookup_rewrite {name : Str}
    (h : ∀ addition ∈ adapter.additions stream payload, name ≠ addition.1)
    : (adapter.rewrite key stream payload).lookup name
        =
      (addressed (adapter.asksFor key) stream payload).lookup name := by
  rw [rewrite_eq]
  refine foldlRecOn (motive := fun p : Payload =>
    p.lookup name = (addressed (adapter.asksFor key) stream payload).lookup name) _ addLiteral rfl ?_
  intro p hp addition haddition
  rw [← hp]
  exact lookup_insert_ne (h addition haddition)

theorem field_rewrite_model
    : field (adapter.rewrite key stream payload) (str "model")
        =
      some [.string (toValid (adapter.asksFor key))] := by
  unfold field
  rw [lookup_rewrite fun addition h => (additions_literal h).2.1.symm, addressed,
    lookup_insert_ne (by decide), lookup_insert, Option.map_some, ← text_encode]
  rfl

theorem field_rewrite_stream
    : field (adapter.rewrite key stream payload) (str "stream")
        =
      some [.scalar (if stream then trueWord else falseWord)] := by
  unfold field
  rw [lookup_rewrite fun addition h => (additions_literal h).2.2.1.symm, addressed, lookup_insert]
  rfl

theorem field_rewrite_other {name : Str} (hmodel : name ≠ str "model") (hstream : name ≠ str "stream")
    (hadded : name ∉ (adapter.additions stream payload).map Prod.fst)
    : field (adapter.rewrite key stream payload) name = field payload name := by
  have hnot : ∀ addition ∈ adapter.additions stream payload, name ≠ addition.1 := by
    rintro addition haddition rfl
    exact hadded (mem_map_of_mem haddition)
  unfold field
  rw [lookup_rewrite hnot, addressed, lookup_insert_ne hstream, lookup_insert_ne hmodel]

theorem asksFor_served_iff
    : toValid (adapter.asksFor key) = toValid (served key)
        ↔
      (adapter = .anthropic → key.isAdapter = true → toValid key.adapterID = toValid key.baseModel)
      := by
  cases adapter with
  | openaicompat => simp [Adapter.asksFor]
  | anthropic =>
    unfold Adapter.asksFor served
    cases key.isAdapter
    . simp
    . simp [eq_comm]

theorem exists_sent (unmarshalError : Str → GoError) (adapter : Adapter) (call : ProviderCall)
    (stream : Bool) {caller : Payload} (hcaller : unmarshal call.body = some (some caller))
    : ∃ sent, adapter.prepareBody unmarshalError call stream
            =
          .sent (marshal (adapter.rewrite call.deployment.key stream caller)) ∧
        unmarshal (marshal (adapter.rewrite call.deployment.key stream caller)) = some (some sent) ∧
        ∀ name, field sent name = field (adapter.rewrite call.deployment.key stream caller) name := by
  have hformed : WellFormed (adapter.rewrite call.deployment.key stream caller) :=
    wellFormed_rewrite (wellFormed_of_unmarshal hcaller)
  rcases field_unmarshal_marshal hformed with ⟨sent, hsent, hfield⟩
  refine ⟨sent, ?_, hsent, hfield⟩
  cases adapter with
  | openaicompat =>
    unfold Adapter.prepareBody Openaicompat.prepareBody
    dsimp only
    rw [hcaller]
    rfl
  | anthropic =>
    unfold Adapter.prepareBody Anthropic.prepareBody
    dsimp only
    rw [hcaller]
    rfl

end

theorem honours_iff (unmarshalError : Str → GoError) (adapter : Adapter) (call : ProviderCall)
    (stream : Bool) (caller : Payload) (hcaller : unmarshal call.body = some (some caller))
    : (∃ body sent, adapter.prepareBody unmarshalError call stream = .sent body ∧
        unmarshal body = some (some sent) ∧
        Honours call.deployment.key stream ((adapter.additions stream caller).map Prod.fst) caller sent)
        ↔
      (adapter = .anthropic → call.deployment.key.isAdapter = true →
        toValid call.deployment.key.adapterID = toValid call.deployment.key.baseModel) := by
  rcases exists_sent unmarshalError adapter call stream hcaller with ⟨sent, hprepared, hsent, hfield⟩
  rw [hprepared, ← asksFor_served_iff]
  constructor
  . rintro ⟨body, _, hbody, hsent', hhonours⟩
    cases hbody
    rw [hsent] at hsent'
    cases hsent'
    have := hhonours.model
    rw [hfield, field_rewrite_model] at this
    simpa using this
  . intro hmodel
    refine ⟨_, sent, rfl, hsent, ?_, ?_, ?_⟩
    . rw [hfield, field_rewrite_model, hmodel]
    . rw [hfield, field_rewrite_stream]
    . intro name hname hname' hadded
      rw [hfield, field_rewrite_other hname hname' hadded]

namespace Sample

def body : Str :=
  str "\x7b \"model\": \"fast\", \"top_k\": [1, \"<a>\"] \x7d"

def call (adapterID : Str) : ProviderCall where
  deployment := {
    id := str "d1"
    key := ⟨str "claude", adapterID⟩
    provider := str "anthropic"
    endpoint := str "https://upstream"
    region := []
    trustTier := .external
    credentialRef := []
    weight := 0
    shadowPercent := 10
    cost := ⟨0, 0, 0, 0⟩
    capabilities := [] }
  requestMeta := ⟨[], str "fast", .chatCompletions, false, 0, none, [], 0⟩
  body
  credential := ⟨[], []⟩

def caller : Payload :=
  ((∅ : Payload).insert (str "model") (rawMessage (str "\"fast\""))).insert (str "top_k")
    (rawMessage (str "[1, \"<a>\"]"))

theorem unmarshal_body : unmarshal body = some (some caller) := by
  rfl

theorem base_model_asked
    : ∃ body sent,
        Anthropic.prepareBody (fun _ => .foreign []) (call (str "claude-legal")) false = .sent body ∧
        unmarshal body = some (some sent) ∧ field sent (str "model") = some [.string (str "claude")] ∧
        served (call (str "claude-legal")).deployment.key = str "claude-legal" := by
  rcases exists_sent (fun _ => .foreign []) .anthropic (call (str "claude-legal")) false
    unmarshal_body with ⟨sent, hprepared, hsent, hfield⟩
  refine ⟨_, sent, hprepared, hsent, ?_, by decide⟩
  rw [hfield, field_rewrite_model]
  decide +kernel

theorem base_model_honoured
    : ∃ body sent,
        Adapter.prepareBody (fun _ => .foreign []) .anthropic (call []) true = .sent body ∧
        unmarshal body = some (some sent) ∧
        Honours ⟨str "claude", []⟩ true [str "max_tokens"] caller sent := by
  apply (honours_iff (fun _ => .foreign []) .anthropic (call []) true caller unmarshal_body).mpr
  intro _ hadapter
  simp [call, RoutingKey.isAdapter] at hadapter

end Sample

end ModelGateway.Adapters
