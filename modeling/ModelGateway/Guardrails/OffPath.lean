import ModelGateway.Guardrails.Chain
import ModelGateway.Lib.TransitionSystem

/-!
This module contains the guardrails that run beside the request and cannot change its outcome.
-/

namespace ModelGateway.Guardrails

open List Function

inductive Running where
  | looping (rest : List GuardrailBinding)
  | inspecting (binding : GuardrailBinding) (guardrail : Guardrail) (rest : List GuardrailBinding)
  | returned (denied : Bool) (reason : Str)

def Running.steps : Running → Nat
  | .looping rest => 2 * rest.length + 1
  | .inspecting _ _ rest => 2 * rest.length + 2
  | .returned _ _ => 0

def blockingOnly (bindings : List GuardrailBinding) : List GuardrailBinding :=
  bindings.filter fun binding => binding.budget.blocking

structure OffPath where
  buffers : Nat → Str
  fresh : Nat
  payload : Nat
  running : Running
  blocked : Nat
  copies : List Nat

inductive OffPathEvent where
  | run (installed room : Bool)
  | write (copy : Nat) (bytes : Str)
  | finish (copy : Nat)

def OffPathEvent.isRun : OffPathEvent → Bool
  | .run _ _ => true
  | .write _ _ | .finish _ => false

namespace OffPath

def start (bindings : List GuardrailBinding) (input : GuardrailInput) : OffPath where
  buffers := fun _ => input.payload
  fresh := 1
  payload := 0
  running := .looping bindings
  blocked := 0
  copies := []

section

variable (s : OffPath)

def body : Str :=
  s.buffers s.payload

def outcome : Option Outcome :=
  match s.running with
  | .returned denied reason => some ⟨s.body, denied, reason⟩
  | .looping _ | .inspecting _ _ _ => none

def dispatch (room : Bool) : OffPath :=
  if room then
    { s with
      buffers := update s.buffers s.fresh s.body
      fresh := s.fresh + 1
      copies := s.fresh :: s.copies }
  else
    s

end

variable (registry : Registry) (input : GuardrailInput) (s : OffPath)

def stepRun (installed room : Bool) : OffPath :=
  match s.running with
  | .looping [] => { s with running := .returned false [] }
  | .looping (binding :: rest) =>
    if binding.budget.blocking then
      match registry s.blocked binding.component with
      | none =>
        if binding.budget.mode = .failClosed then
          { s with running := .returned true binding.component }
        else
          { s with running := .looping rest, blocked := s.blocked + 1 }
      | some guardrail => { s with running := .inspecting binding guardrail rest }
    else if installed then
      { s.dispatch room with running := .looping rest }
    else
      { s with running := .looping rest }
  | .inspecting binding guardrail rest =>
    match evaluate binding guardrail { input with payload := s.body } with
    | .error _ =>
      if binding.budget.mode = .failClosed then
        { s with running := .returned true binding.component }
      else
        { s with running := .looping rest, blocked := s.blocked + 1 }
    | .ok result =>
      match result.verdict with
      | .deny => { s with running := .returned true binding.component }
      | .mutate =>
        { s with
          buffers := update s.buffers s.fresh (result.payload.getD [])
          fresh := s.fresh + 1
          payload := s.fresh
          running := .looping rest
          blocked := s.blocked + 1 }
      | .allow => { s with running := .looping rest, blocked := s.blocked + 1 }
  | .returned _ _ => s

def step : OffPathEvent → Option OffPath
  | .run installed room => some (s.stepRun registry input installed room)
  | .write copy bytes =>
    if s.copies.contains copy then some { s with buffers := update s.buffers copy bytes } else none
  | .finish copy => if s.copies.contains copy then some { s with copies := s.copies.erase copy } else none

def promised : Outcome :=
  match s.running with
  | .looping rest => run.go registry input s.blocked (blockingOnly rest) s.body
  | .inspecting binding _ rest =>
    run.go registry input s.blocked (binding :: blockingOnly rest) s.body
  | .returned denied reason => ⟨s.body, denied, reason⟩

end OffPath

open OffPath

variable {registry : Registry} {input : GuardrailInput} {s s' : OffPath}

structure Apart (registry : Registry) (s : OffPath) : Prop where
  payload : s.payload < s.fresh
  copies : ∀ copy ∈ s.copies, copy < s.fresh ∧ copy ≠ s.payload
  inspecting : ∀ binding guardrail rest, s.running = .inspecting binding guardrail rest →
    binding.budget.blocking = true ∧ registry s.blocked binding.component = some guardrail

theorem apart_start (bindings : List GuardrailBinding) : Apart registry (start bindings input) where
  payload := Nat.zero_lt_one
  copies _ h := by cases h
  inspecting _ _ _ h := by cases h

theorem dispatch_blocked (room : Bool) : (s.dispatch room).blocked = s.blocked := by
  unfold dispatch
  split
  . rfl
  . rfl

theorem dispatch_body (h : s.payload < s.fresh) (room : Bool) : (s.dispatch room).body = s.body := by
  unfold dispatch
  split
  . exact update_of_ne (Nat.ne_of_lt h) _ _
  . rfl

variable {binding : GuardrailBinding}

theorem blockingOnly_cons_of_pos (h : binding.budget.blocking = true) (rest : List GuardrailBinding)
    : blockingOnly (binding :: rest) = binding :: blockingOnly rest :=
  filter_cons_of_pos h

theorem blockingOnly_cons_of_neg (h : ¬ binding.budget.blocking = true) (rest : List GuardrailBinding)
    : blockingOnly (binding :: rest) = blockingOnly rest :=
  filter_cons_of_neg h

variable {rest : List GuardrailBinding}

theorem promised_looping (h : s.running = .looping rest)
    : s.promised registry input = run.go registry input s.blocked (blockingOnly rest) s.body := by
  unfold promised
  rw [h]

theorem promised_inspecting {guardrail : Guardrail} (h : s.running = .inspecting binding guardrail rest)
    : s.promised registry input = run.go registry input s.blocked (binding :: blockingOnly rest) s.body := by
  unfold promised
  rw [h]

variable (hs : Apart registry s)

include hs

theorem stepRun_looping_promised (h : s.running = .looping (binding :: rest))
    (installed room : Bool)
    : (s.stepRun registry input installed room).promised registry input = s.promised registry input := by
  unfold stepRun
  rw [promised_looping h, h]
  dsimp only
  by_cases hblocking : binding.budget.blocking = true
  . rw [if_pos hblocking, blockingOnly_cons_of_pos hblocking]
    cases hfound : registry s.blocked binding.component with
    | none =>
      rw [run.go, hfound]
      by_cases hclosed : binding.budget.mode = .failClosed
      . simp [hclosed, hblocking, promised, body]
      . simp [hclosed, promised, body]
    | some guardrail => rfl
  . rw [if_neg hblocking, blockingOnly_cons_of_neg hblocking]
    split
    . change run.go registry input (s.dispatch room).blocked _ (s.dispatch room).body = _
      rw [dispatch_blocked, dispatch_body hs.payload]
    . rfl

theorem stepRun_inspecting_promised {guardrail : Guardrail}
    (h : s.running = .inspecting binding guardrail rest) (installed room : Bool)
    : (s.stepRun registry input installed room).promised registry input = s.promised registry input := by
  rcases hs.inspecting binding guardrail rest h with ⟨hblocking, hfound⟩
  unfold stepRun
  rw [promised_inspecting h, h, run.go, hfound]
  simp only [hblocking, Bool.not_true, Bool.false_eq_true, if_false]
  cases evaluate binding guardrail { input with payload := s.body } with
  | error err =>
    dsimp only
    split
    . rfl
    . rfl
  | ok result =>
    dsimp only
    cases result.verdict with
    | deny => rfl
    | allow => rfl
    | mutate =>
      change run.go registry input (s.blocked + 1) _ (update s.buffers s.fresh _ s.fresh) = _
      rw [update_self]

theorem stepRun_promised (installed room : Bool)
    : (s.stepRun registry input installed room).promised registry input = s.promised registry input := by
  cases hrunning : s.running with
  | looping rest =>
    cases rest with
    | nil =>
      unfold stepRun
      rw [promised_looping hrunning, hrunning]
      rfl
    | cons binding rest => exact stepRun_looping_promised hs hrunning installed room
  | inspecting binding guardrail rest => exact stepRun_inspecting_promised hs hrunning installed room
  | returned denied reason =>
    unfold stepRun
    rw [hrunning]

theorem Apart.turn {running : Running} {blocked : Nat}
    (h : ∀ binding guardrail rest, running = .inspecting binding guardrail rest →
      binding.budget.blocking = true ∧ registry blocked binding.component = some guardrail)
    : Apart registry { s with running := running, blocked := blocked } :=
  ⟨hs.payload, hs.copies, h⟩

theorem Apart.looping (rest : List GuardrailBinding) (blocked : Nat)
    : Apart registry { s with running := .looping rest, blocked := blocked } := by
  apply hs.turn
  intro _ _ _ h
  cases h

theorem Apart.returned (denied : Bool) (reason : Str)
    : Apart registry { s with running := .returned denied reason } := by
  apply hs.turn
  intro _ _ _ h
  cases h

theorem Apart.dispatch (room : Bool) : Apart registry (s.dispatch room) := by
  unfold OffPath.dispatch
  split
  . refine ⟨Nat.lt_succ_of_lt hs.payload, ?_, hs.inspecting⟩
    intro copy hcopy
    rcases mem_cons.1 hcopy with rfl | hcopy
    . exact ⟨Nat.lt_succ_self _, (Nat.ne_of_lt hs.payload).symm⟩
    . rcases hs.copies copy hcopy with ⟨hlt, hne⟩
      exact ⟨Nat.lt_succ_of_lt hlt, hne⟩
  . exact hs

theorem Apart.rewritten (bytes : Str) (rest : List GuardrailBinding)
    : Apart registry
      { s with
        buffers := update s.buffers s.fresh bytes
        fresh := s.fresh + 1
        payload := s.fresh
        running := .looping rest
        blocked := s.blocked + 1 } := by
  refine ⟨Nat.lt_succ_self _, ?_, ?_⟩
  . intro copy hcopy
    have hlt := (hs.copies copy hcopy).1
    exact ⟨Nat.lt_succ_of_lt hlt, Nat.ne_of_lt hlt⟩
  . intro _ _ _ h
    cases h

theorem Apart.stepRun (installed room : Bool)
    : Apart registry (s.stepRun registry input installed room) := by
  unfold OffPath.stepRun
  split
  . exact hs.returned _ _
  . next binding rest _ =>
    by_cases hblocking : binding.budget.blocking = true
    . rw [if_pos hblocking]
      cases hfound : registry s.blocked binding.component with
      | none =>
        dsimp only
        split
        . exact hs.returned _ _
        . exact hs.looping _ _
      | some guardrail =>
        apply hs.turn
        intro _ _ _ h
        cases h
        exact ⟨hblocking, hfound⟩
    . rw [if_neg hblocking]
      split
      . exact (hs.dispatch room).looping _ _
      . exact hs.looping _ _
  . split
    . split
      . exact hs.returned _ _
      . exact hs.looping _ _
    . split
      . exact hs.returned _ _
      . exact hs.rewritten _ _
      . exact hs.looping _ _
  . exact hs

variable {e : OffPathEvent}

omit hs in
theorem step_cases (h : s.step registry input e = some s')
    : (∃ installed room, e = .run installed room ∧ s' = s.stepRun registry input installed room) ∨
      (∃ copy bytes, e = .write copy bytes ∧ s.copies.contains copy = true ∧
        s' = { s with buffers := update s.buffers copy bytes }) ∨
      ∃ copy, e = .finish copy ∧ s' = { s with copies := s.copies.erase copy } := by
  cases e with
  | run installed room => exact .inl ⟨installed, room, rfl, (Option.some.inj h).symm⟩
  | write copy bytes =>
    rcases Option.ite_none_right_eq_some.mp h with ⟨hcopy, h⟩
    exact .inr (.inl ⟨copy, bytes, rfl, hcopy, (Option.some.inj h).symm⟩)
  | finish copy =>
    rcases Option.ite_none_right_eq_some.mp h with ⟨_, h⟩
    exact .inr (.inr ⟨copy, rfl, (Option.some.inj h).symm⟩)

theorem Apart.step (h : s.step registry input e = some s') : Apart registry s' := by
  rcases step_cases h with ⟨installed, room, _, rfl⟩ | ⟨copy, bytes, _, _, rfl⟩ | ⟨copy, _, rfl⟩
  . exact hs.stepRun installed room
  . exact ⟨hs.payload, hs.copies, hs.inspecting⟩
  . exact ⟨hs.payload, fun other hother => hs.copies other (mem_of_mem_erase hother), hs.inspecting⟩

theorem write_promised {copy : Nat} (h : s.copies.contains copy = true) (bytes : Str)
    : promised registry input { s with buffers := update s.buffers copy bytes }
        =
      s.promised registry input := by
  have hbody : body { s with buffers := update s.buffers copy bytes } = s.body :=
    update_of_ne (hs.copies copy (contains_iff_mem.1 h)).2.symm _ _
  unfold promised
  rw [hbody]

theorem step_promised (h : s.step registry input e = some s')
    : s'.promised registry input = s.promised registry input := by
  rcases step_cases h with ⟨installed, room, _, rfl⟩ | ⟨copy, bytes, _, hcopy, rfl⟩ | ⟨copy, _, rfl⟩
  . exact stepRun_promised hs installed room
  . exact write_promised hs hcopy bytes
  . rfl

omit hs

theorem stepRun_steps (installed room : Bool)
    : (s.stepRun registry input installed room).running.steps ≤ s.running.steps - 1 := by
  unfold stepRun
  cases hrunning : s.running with
  | looping rest =>
    cases rest with
    | nil => exact Nat.le_refl _
    | cons binding rest =>
      dsimp only
      split
      . split
        . split
          . exact Nat.zero_le _
          . simp only [Running.steps, length_cons]
            omega
        . simp only [Running.steps, length_cons]
          omega
      . split
        . simp only [Running.steps, length_cons]
          omega
        . simp only [Running.steps, length_cons]
          omega
  | inspecting binding guardrail rest =>
    dsimp only
    split
    . split
      . exact Nat.zero_le _
      . exact Nat.le_refl _
    . split
      . exact Nat.zero_le _
      . exact Nat.le_refl _
      . exact Nat.le_refl _
  | returned denied reason =>
    rw [hrunning]
    exact Nat.le_refl _

theorem run_steps {events : List OffPathEvent} (h : events.foldlM (OffPath.step registry input) s = some s')
    : s'.running.steps ≤ s.running.steps - events.countP (·.isRun) := by
  induction events generalizing s with
  | nil =>
    rw [Option.some.inj h]
    exact Nat.le_refl _
  | cons e events ih =>
    rw [foldlM_cons, Option.bind_eq_bind, Option.bind_eq_some_iff] at h
    rcases h with ⟨mid, hstep, hrest⟩
    have hlater := ih hrest
    rcases step_cases hstep with ⟨installed, room, rfl, rfl⟩ | ⟨copy, bytes, rfl, _, rfl⟩ | ⟨copy, rfl, rfl⟩
    . have hfirst := @stepRun_steps registry input s installed room
      rw [countP_cons_of_pos rfl]
      omega
    . exact hlater
    . exact hlater

theorem outcome_of_steps (h : s.running.steps = 0) : ∃ outcome, s.outcome = some outcome := by
  unfold outcome
  cases hrunning : s.running with
  | looping rest =>
    rw [hrunning] at h
    cases h
  | inspecting binding guardrail rest =>
    rw [hrunning] at h
    cases h
  | returned denied reason => exact ⟨_, rfl⟩

variable {outcome : Outcome}

theorem promised_of_outcome (h : s.outcome = some outcome)
    : s.promised registry input = outcome := by
  unfold OffPath.outcome at h
  unfold promised
  cases hrunning : s.running with
  | looping rest =>
    rw [hrunning] at h
    cases h
  | inspecting binding guardrail rest =>
    rw [hrunning] at h
    cases h
  | returned denied reason =>
    rw [hrunning] at h
    exact Option.some.inj h

variable {bindings : List GuardrailBinding}

theorem run_of_outcome
    (h : TransitionSystem.Reaches (OffPath.step registry input) (start bindings input) s)
    (houtcome : s.outcome = some outcome)
    : run registry (blockingOnly bindings) input = .ok outcome := by
  have hkept : Apart registry s ∧
      s.promised registry input = (start bindings input).promised registry input := by
    refine h.invariant (fun s => Apart registry s ∧ s.promised registry input = _) ?_ ⟨apart_start bindings, rfl⟩
    intro s e s' hs hstep
    exact ⟨hs.1.step hstep, (step_promised hs.1 hstep).trans hs.2⟩
  rw [← promised_of_outcome houtcome, hkept.2]
  rfl

theorem blockingOnly_blockingOnly (bindings : List GuardrailBinding)
    : blockingOnly (blockingOnly bindings) = blockingOnly bindings := by
  unfold blockingOnly
  rw [filter_filter]
  simp only [Bool.and_self]

theorem nonblocking_unobserved (registry : Registry) (bindings : List GuardrailBinding) (input : GuardrailInput)
    (events events' : List OffPathEvent) (s s' : OffPath)
    (h : events.foldlM (OffPath.step registry input) (start bindings input) = some s)
    (h' : events'.foldlM (OffPath.step registry input) (start (blockingOnly bindings) input) = some s')
    : (2 * bindings.length < events.countP (·.isRun) → ∃ outcome, s.outcome = some outcome) ∧
      (∀ outcome, s.outcome = some outcome → run registry (blockingOnly bindings) input = .ok outcome) ∧
      (∀ outcome outcome', s.outcome = some outcome → s'.outcome = some outcome' → outcome = outcome') := by
  have hreach := TransitionSystem.Reaches.of_foldlM events h
  have hreach' := TransitionSystem.Reaches.of_foldlM events' h'
  refine ⟨?_, fun outcome houtcome => run_of_outcome hreach houtcome, ?_⟩
  . intro henough
    apply outcome_of_steps
    have hsteps := run_steps h
    change _ ≤ 2 * bindings.length + 1 - _ at hsteps
    omega
  . intro outcome outcome' houtcome houtcome'
    have hrun := run_of_outcome hreach houtcome
    have hrun' := run_of_outcome hreach' houtcome'
    rw [blockingOnly_blockingOnly, hrun] at hrun'
    exact Except.ok.inj hrun'

theorem nonblocking_unobserved_scribbled :
    let binding (component : Str) (blocking : Bool) : GuardrailBinding :=
      ⟨component, [], [], [], [], ⟨0, .failClosed, blocking, []⟩⟩
    let bindings := [binding (str "watch") false, binding (str "redact") true]
    let input : GuardrailInput :=
      ⟨.request, ⟨str "r1", str "m", .chatCompletions, false, 6, none, [], 0⟩, .unset, .unset, str "secret"⟩
    let registry : Registry := fun _ _ => some fun _ input => .ok (some ⟨.mutate, [], some (str "x" ++ input.payload)⟩)
    let scribbled : List OffPathEvent :=
      [.run true true, .write 1 (str "?"), .run true true, .write 1 (str "!"), .run true true, .run true true,
        .run true true, .write 1 []]
    let alone : List OffPathEvent := [.run true true, .run true true, .run true true]
    ∃ s s' outcome, scribbled.foldlM (OffPath.step registry input) (start bindings input) = some s ∧
      alone.foldlM (OffPath.step registry input) (start (blockingOnly bindings) input) = some s' ∧
      s.outcome = some outcome ∧ s'.outcome = some outcome ∧ outcome.payload = str "xsecret" ∧
      run registry (blockingOnly bindings) input = .ok outcome := by
  intro binding bindings input registry scribbled alone
  have hunobserved := nonblocking_unobserved registry bindings input scribbled alone _ _ rfl rfl
  rcases hunobserved with ⟨hreturns, hrun, hsame⟩
  rcases hreturns (by decide) with ⟨outcome, houtcome⟩
  have houtcome' := hsame outcome _ houtcome rfl
  subst houtcome'
  exact ⟨_, _, _, rfl, rfl, houtcome, rfl, rfl, hrun _ houtcome⟩

end ModelGateway.Guardrails
