import ModelGateway.Core.Basic

/-!
This module contains the chain of guardrails on the request's path: verdicts, mutations and failure modes.
-/

namespace ModelGateway.Guardrails

open List
open Option (map_some some)

inductive Verdict where
  | allow
  | deny
  | mutate
  deriving DecidableEq, Repr

structure Result where
  verdict : Verdict
  reason : Str
  payload : Option Str
  deriving DecidableEq, Repr

/-- What `Inspect` answers when it is given so much time. An overrun is an error. -/
abbrev Guardrail := Int → GuardrailInput → Except GoError (Option Result)

/-- What the registry finds under a name at each iteration, which may change during a run. -/
abbrev Registry := Nat → Str → Option Guardrail

structure Outcome where
  payload : Str
  denied : Bool
  reason : Str
  deriving DecidableEq, Repr

def defaultTimeout : Int := 50 * millisecond

def timeoutFor (budget : GuardrailBudget) : Int :=
  if budget.timeout ≤ 0 then defaultTimeout else budget.timeout

def evaluate (binding : GuardrailBinding) (guardrail : Guardrail) (input : GuardrailInput)
    : Except GoError Result :=
  match guardrail (timeoutFor binding.budget) input with
  | .error err => .error err
  | .ok none =>
    .error (.ofCode .internal
      (str "guardrail " ++ binding.component.quote ++ str " returned no result and no error"))
  | .ok (some result) =>
    if result.verdict = .mutate ∧ result.payload = none then
      .error (.ofCode .internal
        (str "guardrail " ++ binding.component.quote
          ++ str " asked to mutate but returned no payload"))
    else
      .ok result

def run (registry : Registry) (bindings : List GuardrailBinding) (input : GuardrailInput)
    : Except GoError Outcome :=
  .ok (go 0 bindings input.payload)
where
  go (n : Nat) (bindings : List GuardrailBinding) (payload : Str) : Outcome :=
    match bindings with
    | [] => ⟨payload, false, []⟩
    | binding :: rest =>
      match registry n binding.component with
      | none =>
        if binding.budget.mode = .failClosed ∧ binding.budget.blocking then
          ⟨payload, true, binding.component⟩
        else
          go (n + 1) rest payload
      | some guardrail =>
        if !binding.budget.blocking then
          -- Dispatched on a copy of the payload, and never observed.
          go (n + 1) rest payload
        else
          match evaluate binding guardrail { input with payload := payload } with
          | .error _ =>
            if binding.budget.mode = .failClosed then
              ⟨payload, true, binding.component⟩
            else
              go (n + 1) rest payload
          | .ok result =>
            match result.verdict with
            | .deny => ⟨payload, true, binding.component⟩
            | .mutate => go (n + 1) rest (result.payload.getD [])
            | .allow => go (n + 1) rest payload

section

variable (registry : Registry) (input : GuardrailInput)

def verdictOn (n : Nat) (binding : GuardrailBinding) (payload : Str)
    : Option (Except GoError Result) :=
  (registry n binding.component).map (evaluate binding · { input with payload := payload })

/-- A blocking binding that denies, or fails closed on a guardrail that is missing or failed. -/
def Refuses (n : Nat) (binding : GuardrailBinding) (payload : Str) : Prop :=
  binding.budget.blocking = true ∧
    ((∃ result, verdictOn registry input n binding payload = some (.ok result) ∧
        result.verdict = .deny) ∨
      binding.budget.mode = .failClosed ∧ (registry n binding.component = none ∨
          ∃ err, verdictOn registry input n binding payload = some (.error err)))

def Passes (n : Nat) (binding : GuardrailBinding) (payload : Str) : Prop :=
  ∃ guardrail result, registry n binding.component = some guardrail ∧
    guardrail (timeoutFor binding.budget) { input with payload := payload } = .ok (some result) ∧
    (result.verdict = .allow ∨ result.verdict = .mutate ∧ result.payload.isSome)

def mutation (n : Nat) (payload : Str) (binding : GuardrailBinding) : Str :=
  if binding.budget.blocking then
    match verdictOn registry input n binding payload with
    | some (.ok ⟨.mutate, _, some rewritten⟩) => rewritten
    | _ => payload
  else
    payload

def mutations (n : Nat) (bindings : List GuardrailBinding) (payload : Str) : Str :=
  (bindings.zipIdx n).foldl (fun payload b => mutation registry input b.2 payload b.1) payload

end

variable {registry : Registry} {input : GuardrailInput} {binding : GuardrailBinding}

theorem evaluate_eq_ok_iff {guardrail : Guardrail} {result : Result}
    : evaluate binding guardrail input = .ok result
        ↔
      guardrail (timeoutFor binding.budget) input = .ok (some result) ∧
        (result.verdict = .mutate → result.payload.isSome) := by
  unfold evaluate
  split
  . next h => simp [h]
  . next h => simp [h]
  . next answered h =>
    rw [h]
    split
    . next hempty =>
      simp only [reduceCtorEq, Except.ok.injEq, some.injEq, false_iff, not_and]
      rintro rfl
      simp [hempty]
    . next hfull =>
      simp only [Except.ok.injEq, some.injEq]
      constructor
      . rintro rfl
        refine ⟨rfl, ?_⟩
        intro hmutate
        rw [Option.isSome_iff_ne_none]
        exact fun hnone => hfull ⟨hmutate, hnone⟩
      . intro h
        exact h.1

variable {payload : Str}

theorem go_cons_of_refuses {n : Nat} (h : Refuses registry input n binding payload)
    (rest : List GuardrailBinding)
    : run.go registry input n (binding :: rest) payload = ⟨payload, true, binding.component⟩ := by
  rcases h with ⟨hblocking, h⟩
  unfold run.go verdictOn at *
  cases hfound : registry n binding.component with
  | none => simp_all
  | some guardrail =>
    simp only [hfound, map_some, some.injEq, reduceCtorEq, false_or] at h
    simp only [hblocking, Bool.not_true, Bool.false_eq_true, if_false]
    rcases h with ⟨_, hresult, hdeny⟩ | ⟨hclosed, err, herr⟩
    . simp [hresult, hdeny]
    . simp [herr, hclosed]

theorem go_cons_of_not_refuses {n : Nat} (h : ¬Refuses registry input n binding payload)
    (rest : List GuardrailBinding)
    : run.go registry input n (binding :: rest) payload
        =
      run.go registry input (n + 1) rest (mutation registry input n payload binding) := by
  unfold Refuses at h
  rw [run.go]
  unfold mutation verdictOn at *
  cases hfound : registry n binding.component with
  | none =>
    by_cases hblocking : binding.budget.blocking
    . simp_all
    . simp [hblocking]
  | some guardrail =>
    by_cases hblocking : binding.budget.blocking
    . simp only [hfound, hblocking, map_some, some.injEq, reduceCtorEq, false_or,
        true_and, not_or, not_exists, not_and] at h
      cases hverdict : evaluate binding guardrail { input with payload := payload } with
      | error err => simp_all
      | ok result =>
        have hdeny := h.1 result hverdict
        have hmutate := (evaluate_eq_ok_iff.mp hverdict).2
        cases result with
        | mk verdict reason rewritten =>
          cases verdict with
          | deny => simp at hdeny
          | allow => simp [hblocking, hverdict]
          | mutate =>
            rcases Option.isSome_iff_exists.mp (hmutate rfl) with ⟨body, hbody⟩
            subst hbody
            simp [hblocking, hverdict]
    . simp [hblocking]

theorem Passes.of_not_refuses {n : Nat} (h : ¬Refuses registry input n binding payload)
    (hblocking : binding.budget.blocking = true) (hclosed : binding.budget.mode = .failClosed)
    : Passes registry input n binding payload := by
  unfold Refuses verdictOn at h
  simp only [hblocking, hclosed, true_and, not_or, not_exists, not_and] at h
  rcases h with ⟨hdeny, hfound, hfailed⟩
  cases hguardrail : registry n binding.component with
  | none => exact absurd hguardrail hfound
  | some guardrail =>
    simp only [hguardrail, map_some, some.injEq] at hdeny hfailed
    cases hverdict : evaluate binding guardrail { input with payload := payload } with
    | error err => exact absurd hverdict (hfailed err)
    | ok result =>
      have hnotDeny := hdeny result hverdict
      rcases evaluate_eq_ok_iff.mp hverdict with ⟨hanswer, hmutate⟩
      refine ⟨guardrail, result, hguardrail, hanswer, ?_⟩
      cases hv : result.verdict with
      | allow => simp
      | mutate => simp [hmutate hv]
      | deny => exact absurd hv hnotDeny

theorem mutations_cons (n : Nat) (binding : GuardrailBinding) (rest : List GuardrailBinding)
    (payload : Str)
    : mutations registry input n (binding :: rest) payload
        =
      mutations registry input (n + 1) rest (mutation registry input n payload binding) := by
  simp [mutations, zipIdx_cons]

theorem go_cases (registry : Registry) (input : GuardrailInput) (bindings : List GuardrailBinding)
    (n : Nat) (payload : Str)
    : (run.go registry input n bindings payload
          =
        ⟨mutations registry input n bindings payload, false, []⟩ ∧
        ∀ before binding after, bindings = before ++ binding :: after →
          ¬Refuses registry input (n + before.length) binding
            (mutations registry input n before payload)) ∨
      ∃ before binding after, bindings = before ++ binding :: after ∧
        Refuses registry input (n + before.length) binding
          (mutations registry input n before payload) ∧
        (∀ before' binding' after', before = before' ++ binding' :: after' →
          ¬Refuses registry input (n + before'.length) binding'
            (mutations registry input n before' payload)) ∧
        run.go registry input n bindings payload
          =
        ⟨mutations registry input n before payload, true, binding.component⟩ := by
  induction bindings generalizing n payload with
  | nil => simp [run.go, mutations]
  | cons first rest ih =>
    by_cases hfirst : Refuses registry input n first payload
    . right
      refine ⟨[], first, rest, rfl, hfirst, ?_, go_cons_of_refuses hfirst rest⟩
      simp
    . rw [go_cons_of_not_refuses hfirst]
      -- A position in the rest is one further on in the whole list.
      have hshift : ∀ before binding, Refuses registry input (n + (first :: before).length) binding
              (mutations registry input n (first :: before) payload)
            ↔
          Refuses registry input (n + 1 + before.length) binding
            (mutations registry input (n + 1) before (mutation registry input n payload first)) := by
        intro before binding
        rw [mutations_cons, length_cons, Nat.add_right_comm, Nat.add_assoc]
      have hlift : ∀ bindings : List GuardrailBinding,
          (∀ before binding after, bindings = before ++ binding :: after →
            ¬Refuses registry input (n + 1 + before.length) binding
              (mutations registry input (n + 1) before
                (mutation registry input n payload first))) →
          ∀ before binding after, first :: bindings = before ++ binding :: after →
            ¬Refuses registry input (n + before.length) binding
              (mutations registry input n before payload) := by
        intro bindings hnone before binding after heq
        cases before with
        | nil =>
          simp only [nil_append, List.cons.injEq] at heq
          rw [← heq.1]
          exact hfirst
        | cons head before =>
          simp only [cons_append, List.cons.injEq] at heq
          rw [← heq.1, hshift]
          apply hnone before binding after heq.2
      rcases ih (n + 1) (mutation registry input n payload first) with
        ⟨hgo, hnone⟩ | ⟨before, binding, after, heq, hrefuses, hnone, hgo⟩
      . left
        refine ⟨?_, hlift rest hnone⟩
        rw [hgo, mutations_cons]
      . right
        refine ⟨first :: before, binding, after, ?_, (hshift before binding).mpr hrefuses,
          hlift before hnone, ?_⟩
        . rw [heq]
          rfl
        . rw [hgo, mutations_cons]

end ModelGateway.Guardrails
