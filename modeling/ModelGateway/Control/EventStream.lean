import ModelGateway.Core.Basic
import ModelGateway.Lib.Runs

/-!
This module contains the consumer of the event stream: deliveries, acknowledgements and restarts.
-/

namespace ModelGateway.Control.Stream

open List

structure StreamEntry where
  id : Nat
  payload : Option Str
  deriving DecidableEq

structure Batch (Message : Type) where
  ids : List Nat
  events : List Message
  deriving DecidableEq

structure Consumer (Message : Type) where
  count : Nat
  parse : Str → Option Message

def audit {Message : Type} (parse : Str → Option Message) : Consumer Message := ⟨50, parse⟩

structure Group where
  pending : List StreamEntry
  lastDelivered : Nat
  ordered : pending.Pairwise fun entry entry' => entry.id < entry'.id
  delivered : ∀ entry ∈ pending, entry.id ≤ lastDelivered

namespace Group

def empty : Group := ⟨[], 0, .nil, by simp⟩

def New (g : Group) (entries : List StreamEntry) : Prop :=
  entries.Pairwise (fun entry entry' => entry.id < entry'.id) ∧
    ∀ entry ∈ entries, g.lastDelivered < entry.id

instance (g : Group) (entries : List StreamEntry) : Decidable (g.New entries) :=
  inferInstanceAs (Decidable (_ ∧ _))

theorem le_foldr_id (entries : List StreamEntry) (last : Nat)
    : last ≤ entries.foldr (fun entry last => max entry.id last) last ∧
      ∀ entry ∈ entries, entry.id ≤ entries.foldr (fun entry last => max entry.id last) last := by
  induction entries with
  | nil => simp
  | cons entry entries ih =>
    rw [foldr_cons, forall_mem_cons]
    refine ⟨by omega, by omega, ?_⟩
    intro entry' hentry'
    have := ih.2 entry' hentry'
    omega

def deliver (g : Group) (entries : List StreamEntry) (h : g.New entries) : Group where
  pending := g.pending ++ entries
  lastDelivered := entries.foldr (fun entry last => max entry.id last) g.lastDelivered
  ordered := by
    apply pairwise_append.mpr ⟨g.ordered, h.1, ?_⟩
    intro entry hentry entry' hentry'
    have := g.delivered entry hentry
    have := h.2 entry' hentry'
    omega
  delivered := by
    rcases le_foldr_id entries g.lastDelivered with ⟨hlast, hentries⟩
    intro entry hentry
    rw [mem_append] at hentry
    cases hentry with
    | inl hentry => exact Nat.le_trans (g.delivered entry hentry) hlast
    | inr hentry => exact hentries entry hentry

def ack (g : Group) (ids : List Nat) : Group where
  pending := g.pending.filter fun entry => !ids.contains entry.id
  lastDelivered := g.lastDelivered
  ordered := g.ordered.filter _
  delivered := fun entry hentry => g.delivered entry (mem_of_mem_filter hentry)

end Group

section

variable {Message : Type} (c : Consumer Message)

def decode : List StreamEntry → Batch Message
  | [] => ⟨[], []⟩
  | entry :: entries =>
    let batch := decode entries
    match entry.payload with
    | none => ⟨entry.id :: batch.ids, batch.events⟩
    | some payload =>
      match c.parse payload with
      | none => ⟨entry.id :: batch.ids, batch.events⟩
      | some event => ⟨entry.id :: batch.ids, event :: batch.events⟩

inductive Phase (Message : Type) where
  | down
  | starting
  | looping
  | applying (restarting : Bool) (batch : Batch Message)
  | committed (restarting : Bool) (batch : Batch Message)
  deriving DecidableEq

structure State (Message : Type) where
  phase : Phase Message
  group : Group
  recorded : List Message

inductive Event where
  | start
  | readPending
  | read (entries : List StreamEntry)
  | timedOut (entries : List StreamEntry)
  | commit
  | ack
  | crash

def State.init : State Message := ⟨.down, .empty, []⟩

def step (s : State Message) : Event → State Message
  | .start =>
    match s.phase with
    | .down => { s with phase := .starting }
    | _ => s
  | .readPending =>
    match s.phase with
    | .starting =>
      let pending := decode c (s.group.pending.take c.count)
      { s with phase := if pending.events.isEmpty then .looping else .applying true pending }
    | _ => s
  | .read entries =>
    match s.phase with
    | .looping =>
      if h : s.group.New entries ∧ entries.length ≤ c.count then
        let batch := decode c entries
        { s with
          phase := if batch.ids.isEmpty then .looping else .applying false batch
          group := s.group.deliver entries h.1 }
      else
        s
    | _ => s
  | .timedOut entries =>
    match s.phase with
    | .looping =>
      -- The group has delivered the entries, the client gave up waiting for them and `read` answers no batch.
      if h : s.group.New entries ∧ entries.length ≤ c.count then
        { s with group := s.group.deliver entries h.1 }
      else
        s
    | _ => s
  | .commit =>
    match s.phase with
    | .applying restarting batch =>
      { s with phase := .committed restarting batch, recorded := s.recorded ++ batch.events }
    | _ => s
  | .ack =>
    match s.phase with
    | .committed _ batch => { s with phase := .looping, group := s.group.ack batch.ids }
    | _ => s
  | .crash => { s with phase := .down }

end

section

variable {Message : Type} (c : Consumer Message)

def Phase.Restarting : Phase Message → Bool
  | .starting | .applying true _ | .committed true _ => true
  | _ => false

def Drained (s : State Message) (e : Event) : Prop :=
  s.phase.Restarting = true → (step c s e).phase = .looping → (step c s e).group.pending = []

instance [DecidableEq Message] (s : State Message) (e : Event) : Decidable (Drained c s e) :=
  inferInstanceAs (Decidable (_ → _ → _))

def StreamEntry.Parseable (entry : StreamEntry) : Prop :=
  (entry.payload.bind c.parse).isSome = true

def Fits (s : State Message) : Event → Prop
  | .readPending =>
    s.phase = .starting → s.group.pending ≠ [] → ∃ entry ∈ s.group.pending.take c.count, entry.Parseable c
  | .ack => ∀ batch, s.phase = .committed true batch → s.group.pending.length ≤ c.count
  | _ => True

def Held (s : State Message) : Prop :=
  ∀ batch, s.phase = .applying true batch ∨ s.phase = .committed true batch →
    batch.ids = (s.group.pending.take c.count).map (·.id)

variable {c}

@[simp]
theorem decode_ids (entries : List StreamEntry) : (decode c entries).ids = entries.map (·.id) := by
  induction entries with
  | nil => rfl
  | cons entry entries ih =>
    unfold decode
    rw [map_cons, ← ih]
    split
    . rfl
    . split
      . rfl
      . rfl

theorem decode_events_isEmpty (entries : List StreamEntry)
    : (decode c entries).events.isEmpty = true ↔ ∀ entry ∈ entries, ¬ entry.Parseable c := by
  unfold StreamEntry.Parseable
  induction entries with
  | nil => simp [decode]
  | cons entry entries ih =>
    unfold decode
    split
    . next h => simp [h, ih]
    . next payload h =>
      split
      . next hparse => simp [h, hparse, ih]
      . next event hparse => simp [h, hparse]

theorem ack_take_eq_nil_iff {g : Group} {ids : List Nat} {n : Nat} (h : ids = (g.pending.take n).map (·.id))
    : (g.ack ids).pending = [] ↔ g.pending.length ≤ n := by
  unfold Group.ack
  rw [filter_eq_nil_iff, h]
  simp only [Bool.not_eq_true', Bool.not_eq_false, contains_iff_mem]
  constructor
  . intro hall
    by_contra hlong
    push Not at hlong
    -- The first entry behind the batch has a greater id than all of it.
    rcases mem_map.mp (hall _ (getElem_mem hlong)) with ⟨entry, hentry, hid⟩
    have hordered := g.ordered
    rw [← take_append_drop n g.pending, pairwise_append] at hordered
    have hlt := hordered.2.2 entry hentry _ (by rw [drop_eq_getElem_cons hlong]; exact mem_cons_self)
    omega
  . intro hshort entry hentry
    rw [take_of_length_le hshort]
    exact mem_map_of_mem hentry

variable {group : Group} {recorded : List Message}

theorem readPending_drained_iff
    : Drained c ⟨.starting, group, recorded⟩ .readPending ↔ Fits c ⟨.starting, group, recorded⟩ .readPending := by
  unfold Drained Fits step
  dsimp only
  have hempty := decode_events_isEmpty (c := c) (group.pending.take c.count)
  split
  . next hnone =>
    have hnone := hempty.mp hnone
    constructor
    . intro hdrained _ hsome
      exact absurd (hdrained rfl rfl) hsome
    . intro hsome _ _
      by_contra hpending
      rcases hsome rfl hpending with ⟨entry, hentry, hparse⟩
      exact hnone entry hentry hparse
  . next hsome =>
    rw [hempty] at hsome
    push Not at hsome
    exact iff_of_true nofun fun _ _ => hsome

theorem ack_drained_iff {restarting : Bool} {batch : Batch Message}
    (h : Held c ⟨.committed restarting batch, group, recorded⟩)
    : Drained c ⟨.committed restarting batch, group, recorded⟩ .ack
        ↔
      Fits c ⟨.committed restarting batch, group, recorded⟩ .ack := by
  cases restarting with
  | false => exact iff_of_true nofun nofun
  | true =>
    have hiff := ack_take_eq_nil_iff (h batch (.inr rfl))
    exact ⟨fun hdrained _ _ => hiff.mp (hdrained rfl rfl), fun hfits _ _ => hiff.mpr (hfits batch rfl)⟩

theorem step_drained_iff (s : State Message) (e : Event) (h : Held c s) : Drained c s e ↔ Fits c s e := by
  rcases s with ⟨phase, _, _⟩
  cases e with
  | readPending =>
    cases phase with
    | starting => exact readPending_drained_iff
    | down | looping | applying restarting batch | committed restarting batch => exact iff_of_true nofun nofun
  | ack =>
    cases phase with
    | committed restarting batch => exact ack_drained_iff h
    | down | starting | looping | applying restarting batch => exact iff_of_true nofun nofun
  | start | read entries | timedOut entries | commit | crash =>
    -- No other step leads from the restart into the main loop.
    refine iff_of_true ?_ trivial
    cases phase with
    | down | starting | looping | applying restarting batch | committed restarting batch => exact nofun

theorem step_held (s : State Message) (e : Event) (h : Held c s) : Held c (step c s e) := by
  rcases s with ⟨phase, group, recorded⟩
  cases e with
  | start => cases phase <;> first | exact h | nofun
  | readPending =>
    cases phase with
    | starting =>
      unfold step Held
      dsimp only
      split
      . nofun
      . simp
    | down | looping | applying restarting batch | committed restarting batch => exact h
  | read entries =>
    cases phase with
    | looping =>
      unfold step
      dsimp only
      split
      . unfold Held
        dsimp only
        split <;> nofun
      . exact h
    | down | starting | applying restarting batch | committed restarting batch => exact h
  | timedOut entries =>
    cases phase with
    | looping =>
      unfold step
      dsimp only
      split
      . nofun
      . exact h
    | down | starting | applying restarting batch | committed restarting batch => exact h
  | commit =>
    cases phase with
    | applying restarting batch =>
      rintro batch' (hphase | hphase)
      . cases hphase
      . cases hphase
        exact h batch (.inl rfl)
    | down | starting | looping | committed restarting batch => exact h
  | ack =>
    cases phase with
    | committed restarting batch => nofun
    | down | starting | looping | applying restarting batch => exact h
  | crash => nofun

end

theorem drained_iff {Message : Type} (c : Consumer Message) (history : List Event)
    : Throughout (step c) (Drained c) .init history ↔ Throughout (step c) (Fits c) .init history :=
  throughout_congr (Held c) step_held step_drained_iff history nofun

namespace Stranded

def consumer : Consumer Str := audit fun payload => if payload = [] then none else some payload

def malformed : List StreamEntry := (List.range 50).map fun n => ⟨n + 1, none⟩

def decision : StreamEntry := ⟨51, some (str "decision")⟩

def history : List Event := [
  .start, .readPending, .read malformed, .crash,
  .start, .readPending, .read [decision], .crash,
  .start, .readPending]

end Stranded

open Stranded

theorem decision_stranded
    : ¬ Throughout (step consumer) (Drained consumer) .init history ∧
      (history.foldl (step consumer) .init).phase = .looping ∧
      decision ∈ (history.foldl (step consumer) .init).group.pending ∧
      (history.foldl (step consumer) .init).recorded = [] := by
  decide +kernel

end ModelGateway.Control.Stream
