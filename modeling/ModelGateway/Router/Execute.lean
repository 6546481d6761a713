import ModelGateway.Router.Breaker
import ModelGateway.Router.Select

/-!
This module contains the router's execution of one request: attempts, fail-over, deadlines and breakers.
-/

namespace ModelGateway

open List

structure Router where
  maxAttempts : Nat
  backoff : Int
  breakerOpts : Router.BreakerOptions

namespace Router

def defaultMaxAttempts : Nat := 3

def defaultRetryBackoff : Int := 50 * millisecond

def minAttemptBudget : Int := 250 * millisecond

def hour : Int := 3600 * second

def new : Router := ⟨defaultMaxAttempts, defaultRetryBackoff, ⟨none, none⟩⟩

structure Situation where
  now : Int
  ctxDeadline : Option Int
  breakerNow : Int
  waited : Bool
  providers : Str → Option Provider
  before : Breakers → Breakers
  during : Breakers → Breakers
  failedNow : Int

structure Attempt where
  deployment : Str
  err : Option GoError
  skipped : Bool
  deriving DecidableEq, Repr

structure Execution (σ α : Type) where
  result : Except GoError (Deployment × α)
  attempts : List Attempt
  breakers : Breakers
  state : σ

abbrev Call (σ α : Type) := Provider → Deployment → σ → Except GoError α × σ

def remaining (sit : Situation) (deadline : Int) : Int :=
  let deadline :=
    match sit.ctxDeadline with
    | some ctxDeadline => if deadline = 0 ∨ ctxDeadline < deadline then ctxDeadline else deadline
    | none => deadline
  if deadline = 0 then hour else deadline - sit.now

def wait (r : Router) (sit : Situation) : Bool :=
  r.backoff ≤ 0 || sit.waited

def exhausted : GoError :=
  .ofCode .noCandidates
    (str "every candidate deployment is unavailable or the deadline was exhausted")

def vanished (provider : Str) : GoError :=
  .ofCode .internal
    (str "provider " ++ provider.quote ++ str " vanished between selection and execution")

variable {σ α : Type}

def execute (r : Router) (env : Nat → Situation) (candidates : List Candidate) (deadline : Int)
    (call : Call σ α) (breakers : Breakers) (s : σ) : Execution σ α :=
  go candidates 0 none [] breakers s
where
  stop (lastErr : Option GoError) (attempts : List Attempt) (breakers : Breakers) (s : σ)
      : Execution σ α :=
    ⟨.error (lastErr.getD exhausted), attempts, breakers, s⟩
  go : List Candidate → Nat → Option GoError → List Attempt → Breakers → σ → Execution σ α
    | [], _, lastErr, attempts, breakers, s => stop lastErr attempts breakers s
    | c :: cs, i, lastErr, attempts, breakers, s =>
      let sit := env i
      let d := c.deployment
      if r.maxAttempts ≤ i then
        stop lastErr attempts breakers s
      else if remaining sit deadline < minAttemptBudget then
        stop lastErr attempts breakers s
      else
        let breakers := sit.before breakers
        let (allowed, breaker) := (breakerFor r.breakerOpts breakers d.id).allow sit.breakerNow
        let breakers := breakers.insert d.id breaker
        if !allowed then
          go cs (i + 1) lastErr (attempts ++ [⟨d.id, none, true⟩]) breakers s
        else if 0 < i ∧ !r.wait sit then
          stop lastErr attempts breakers s
        else
          match sit.providers d.provider with
          | none => go cs (i + 1) (some (vanished d.provider)) attempts breakers s
          | some provider =>
            let (answer, s) := call provider d s
            let breakers := sit.during breakers
            let breaker := breakerFor r.breakerOpts breakers d.id
            match answer with
            | .ok reply =>
              ⟨.ok (d, reply), attempts ++ [⟨d.id, none, false⟩],
                breakers.insert d.id breaker.succeed, s⟩
            | .error err =>
              let attempts := attempts ++ [⟨d.id, some err, false⟩]
              if err.isRetryable then
                go cs (i + 1) (some err) attempts
                  (breakers.insert d.id (breaker.fail sit.failedNow)) s
              else
                ⟨.error err, attempts, breakers, s⟩

section

variable {r : Router} {env : Nat → Situation} {deadline : Int}

inductive Ends (call : Call σ α) (candidates : List Candidate) (P : σ → Prop) : Execution σ α → Prop
  | served (hs : P s) (hd : d ∈ candidates.map (·.deployment))
      (hcall : call provider d s = (.ok reply, s'))
      : Ends call candidates P ⟨.ok (d, reply), attempts, breakers, s'⟩
  | failed (hs : P s) : Ends call candidates P ⟨.error err, attempts, breakers, s⟩

theorem Ends.cons {call : Call σ α} {P : σ → Prop} {e : Execution σ α} (c : Candidate)
    (h : Ends call candidates P e)
    : Ends call (c :: candidates) P e := by
  cases h with
  | served hs hd hcall => exact .served hs (mem_cons_of_mem _ hd) hcall
  | failed hs => exact .failed hs

variable {candidates : List Candidate} {lastErr : Option GoError} {attempts : List Attempt}
  {breakers : Breakers}

theorem execute.go_ends {call : Call σ α} {P : σ → Prop} (hstep : ∀ provider s err s', ∀ c ∈ candidates,
      call provider c.deployment s = (.error err, s') → P s → P s') {i : Nat} {s : σ} (hs : P s)
    : Ends call candidates P (go r env deadline call candidates i lastErr attempts breakers s) := by
  induction candidates generalizing i lastErr attempts breakers s with
  | nil => exact .failed hs
  | cons c cs ih =>
    have hcs : ∀ provider s err s', ∀ c ∈ cs,
        call provider c.deployment s = (.error err, s') → P s → P s' :=
      fun provider s err s' c hc => hstep provider s err s' c (mem_cons_of_mem _ hc)
    unfold go
    dsimp only
    split
    . exact .failed hs
    . split
      . exact .failed hs
      . split
        . exact (ih hcs hs).cons c
        . split
          . exact .failed hs
          . split
            . exact (ih hcs hs).cons c
            . next provider _ =>
              split
              . next hok => exact .served hs mem_cons_self (Prod.ext hok rfl)
              . next err herr =>
                have hs' := hstep provider s err _ c mem_cons_self (Prod.ext herr rfl) hs
                split
                . exact (ih hcs hs').cons c
                . exact .failed hs'

section

variable {call : Call σ α} {candidates : List Candidate} (P : σ → Prop)
  (hstep : ∀ provider s, ∀ c ∈ candidates, P s → P (call provider c.deployment s).2)
  {breakers : Breakers} {s : σ} (hs : P s)

include hstep hs

theorem execute_ends
    : Ends call candidates P (r.execute env candidates deadline call breakers s) := by
  apply execute.go_ends _ hs
  intro provider s err s' c hc hcall hs
  have hs' := hstep provider s c hc hs
  rw [hcall] at hs'
  exact hs'

theorem execute_invariant : P (r.execute env candidates deadline call breakers s).state := by
  have hends : Ends call candidates P (r.execute env candidates deadline call breakers s) :=
    execute_ends P hstep hs
  generalize r.execute env candidates deadline call breakers s = e at hends
  cases hends with
  | failed hs => exact hs
  | @served s d provider _ _ _ _ hs hd hcall =>
    rcases mem_map.mp hd with ⟨c, hc, rfl⟩
    have := hstep provider s c hc hs
    rw [hcall] at this
    exact this

theorem execute_served {d : Deployment} {reply : α}
    (h : (r.execute env candidates deadline call breakers s).result = .ok (d, reply))
    : ∃ provider s', P s' ∧ d ∈ candidates.map (·.deployment) ∧ call provider d s'
          =
        (.ok reply, (r.execute env candidates deadline call breakers s).state) := by
  have hends : Ends call candidates P (r.execute env candidates deadline call breakers s) :=
    execute_ends P hstep hs
  generalize r.execute env candidates deadline call breakers s = e at hends h
  cases hends with
  | failed hs => simp at h
  | served hs hd hcall =>
    rcases h with ⟨rfl, rfl⟩
    exact ⟨_, _, hs, hd, hcall⟩

end

variable {τ : Type}

structure Execution.Related (R : σ → τ → Prop) (e : Execution σ α) (f : Execution τ α) : Prop where
  result : e.result = f.result
  attempts : e.attempts = f.attempts
  breakers : e.breakers = f.breakers
  state : R e.state f.state

theorem execute.go_related {callS : Call σ α} {callT : Call τ α} {R : σ → τ → Prop}
    (hcall : ∀ provider d s t, R s t → (callS provider d s).1 = (callT provider d t).1 ∧
        R (callS provider d s).2 (callT provider d t).2) {i : Nat} {s : σ} {t : τ} (hst : R s t)
    : (go r env deadline callS candidates i lastErr attempts breakers s).Related R
        (go r env deadline callT candidates i lastErr attempts breakers t) := by
  induction candidates generalizing i lastErr attempts breakers s t with
  | nil => exact ⟨rfl, rfl, rfl, hst⟩
  | cons c cs ih =>
    unfold go
    dsimp only
    split
    . exact ⟨rfl, rfl, rfl, hst⟩
    . split
      . exact ⟨rfl, rfl, rfl, hst⟩
      . split
        . exact ih hst
        . split
          . exact ⟨rfl, rfl, rfl, hst⟩
          . split
            . exact ih hst
            . next provider _ =>
              rcases hcall provider c.deployment s t hst with ⟨hanswer, hst'⟩
              rw [← hanswer]
              split
              . exact ⟨rfl, rfl, rfl, hst'⟩
              . split
                . exact ih hst'
                . exact ⟨rfl, rfl, rfl, hst'⟩

theorem execute_related {callS : Call σ α} {callT : Call τ α} {R : σ → τ → Prop}
    (hcall : ∀ provider d s t, R s t → (callS provider d s).1 = (callT provider d t).1 ∧
        R (callS provider d s).2 (callT provider d t).2) {s : σ} {t : τ} (hst : R s t)
    : (r.execute env candidates deadline callS breakers s).Related R
        (r.execute env candidates deadline callT breakers t) :=
  execute.go_related hcall hst

end

end Router

end ModelGateway
