import ModelGateway.Router.Execute

/-!
This module contains the walk of the router over its candidates, and the probe slots that it takes on the way.
-/

namespace ModelGateway.Router

open Breaker

variable {σ α : Type}

def Situation.alone (sit : Situation) : Situation :=
  { sit with before := id, during := id }

inductive Turn (σ : Type) where
  | last (breakers : Breakers) (s : σ)
  | next (breakers : Breakers) (s : σ)

def Turn.breakers : Turn σ → Breakers
  | .last breakers _ => breakers
  | .next breakers _ => breakers

section

variable (r : Router) (deadline : Int) (call : Call σ α)

def proceed (sit : Situation) (d : Deployment) (i : Nat) (breakers : Breakers) (s : σ) : Turn σ :=
  if 0 < i ∧ !r.wait sit then
    .last breakers s
  else
    match sit.providers d.provider with
    | none => .next breakers s
    | some provider =>
      let (answer, s) := call provider d s
      let breakers := sit.during breakers
      let breaker := breakerFor r.breakerOpts breakers d.id
      match answer with
      | .ok _ => .last (breakers.insert d.id breaker.succeed) s
      | .error err =>
        if err.isRetryable then
          .next (breakers.insert d.id (breaker.fail sit.failedNow)) s
        else
          .last breakers s

def turn (sit : Situation) (d : Deployment) (i : Nat) (breakers : Breakers) (s : σ) : Turn σ :=
  if r.maxAttempts ≤ i ∨ remaining sit deadline < minAttemptBudget then
    .last breakers s
  else
    let breakers := sit.before breakers
    let (allowed, breaker) := (breakerFor r.breakerOpts breakers d.id).allow sit.breakerNow
    let breakers := breakers.insert d.id breaker
    if !allowed then
      .next breakers s
    else
      proceed r call sit d i breakers s

def walk (env : Nat → Situation) : List Candidate → Nat → Breakers → σ → Breakers
  | [], _, breakers, _ => breakers
  | c :: cs, i, breakers, s =>
    match turn r deadline call (env i) c.deployment i breakers s with
    | .last breakers _ => breakers
    | .next breakers s => walk env cs (i + 1) breakers s

theorem execute.go_breakers {env : Nat → Situation} {candidates : List Candidate} {i : Nat}
    {lastErr : Option GoError} {attempts : List Attempt} {breakers : Breakers} {s : σ}
    : (go r env deadline call candidates i lastErr attempts breakers s).breakers
        =
      walk r deadline call env candidates i breakers s := by
  induction candidates generalizing i lastErr attempts breakers s with
  | nil => rfl
  | cons c cs ih =>
    unfold go walk turn proceed
    dsimp only
    split
    . next hmax => simp [hmax, stop]
    . next hmax =>
      split
      . next hbudget => simp [hbudget, stop]
      . next hbudget =>
        have hstart : ¬ (r.maxAttempts ≤ i ∨ remaining (env i) deadline < minAttemptBudget) := by
          simp [hmax, hbudget]
        split
        . apply ih
        . split
          . rfl
          . cases (env i).providers c.deployment.provider with
            | none => apply ih
            | some provider =>
              dsimp only
              cases (call provider c.deployment s).1 with
              | ok reply => rfl
              | error err =>
                dsimp only
                split
                . apply ih
                . rfl

end

structure Visit (σ : Type) where
  index : Nat
  deployment : Deployment
  breakers : Breakers
  state : σ

section

variable (r : Router) (deadline : Int) (call : Call σ α) (env : Nat → Situation)

inductive Visits : List Candidate → Nat → Breakers → σ → Visit σ → Prop
  | here : Visits (c :: cs) i breakers s ⟨i, c.deployment, breakers, s⟩
  | later (hturn : turn r deadline call (env i).alone c.deployment i breakers s = .next breakers' s')
      (hvisits : Visits cs (i + 1) breakers' s' v)
      : Visits (c :: cs) i breakers s v

def Visit.breaker (v : Visit σ) : Breaker :=
  breakerFor r.breakerOpts v.breakers v.deployment.id

def Visit.Starts (v : Visit σ) : Prop :=
  v.index < r.maxAttempts ∧ minAttemptBudget ≤ remaining (env v.index) deadline

def Visit.Takes (v : Visit σ) : Prop :=
  v.Starts r deadline env ∧ (v.breaker r).state ≠ .closed ∧
    ((v.breaker r).allow (env v.index).breakerNow).1 = true

def Visit.Settles (v : Visit σ) : Prop :=
  (v.index = 0 ∨ r.wait (env v.index)) ∧
    ∃ provider, (env v.index).providers v.deployment.provider = some provider ∧
      ∀ err, (call provider v.deployment v.state).1 = .error err → err.isRetryable

end

section

variable {r : Router} {deadline : Int} {call : Call σ α} {env : Nat → Situation} {id : Str}

theorem proceed_other (sit : Situation) {d : Deployment} (hid : id ≠ d.id) (i : Nat)
    (breakers : Breakers) (s : σ)
    : breakerFor r.breakerOpts (proceed r call sit.alone d i breakers s).breakers id
        =
      breakerFor r.breakerOpts breakers id := by
  unfold proceed
  split
  . rfl
  . split
    . rfl
    . dsimp only
      split
      . rw [Turn.breakers, breakerFor_insert, if_neg hid]
        rfl
      . split
        . rw [Turn.breakers, breakerFor_insert, if_neg hid]
          rfl
        . rfl

variable {v : Visit σ}

theorem proceed_of_settles (h : v.Settles r call env) (breakers : Breakers)
    : (breakerFor r.breakerOpts
        (proceed r call (env v.index).alone v.deployment v.index breakers v.state).breakers
        v.deployment.id).probeInFlight = false := by
  rcases h with ⟨hwait, provider, hprovider, hanswer⟩
  have hwaits : ¬ (0 < v.index ∧ !r.wait (env v.index).alone) := by
    rintro ⟨hpos, habort⟩
    cases hwait with
    | inl hzero => omega
    | inr hwait =>
      change (!r.wait (env v.index)) = true at habort
      simp [hwait] at habort
  have hprovider : (env v.index).alone.providers v.deployment.provider = some provider := hprovider
  unfold proceed
  rw [if_neg hwaits, hprovider]
  dsimp only
  split
  . rw [Turn.breakers, breakerFor_insert, if_pos rfl]
    apply succeed_probeInFlight
  . next err herr =>
    rw [if_pos (hanswer err herr), Turn.breakers, breakerFor_insert, if_pos rfl]
    apply fail_probeInFlight

theorem proceed_of_not_settles (h : ¬ v.Settles r call env) (breakers : Breakers)
    : (proceed r call (env v.index).alone v.deployment v.index breakers v.state).breakers = breakers := by
  unfold proceed
  split
  . rfl
  . next hwaits =>
    split
    . rfl
    . next provider hprovider =>
      dsimp only
      -- The slot stays taken just when the answer is an error that is not worth a retry.
      have hrejected : ∃ err, (call provider v.deployment v.state).1 = .error err ∧
          ¬ err.isRetryable := by
        by_contra hanswer
        push Not at hanswer
        apply h
        refine ⟨?_, provider, hprovider, hanswer⟩
        by_contra hwait
        push Not at hwait
        apply hwaits
        refine ⟨by omega, ?_⟩
        change (!r.wait (env v.index)) = true
        simpa using hwait.2
      rcases hrejected with ⟨err, herr, hfinal⟩
      rw [herr]
      dsimp only
      rw [if_neg hfinal]
      rfl

theorem turn_other (sit : Situation) {d : Deployment} (hid : id ≠ d.id) (i : Nat) (breakers : Breakers)
    (s : σ)
    : breakerFor r.breakerOpts (turn r deadline call sit.alone d i breakers s).breakers id
        =
      breakerFor r.breakerOpts breakers id := by
  unfold turn
  split
  . rfl
  . dsimp only
    split
    . rw [Turn.breakers, breakerFor_insert, if_neg hid]
      rfl
    . rw [proceed_other sit hid, breakerFor_insert, if_neg hid]
      rfl

def Visit.turn (v : Visit σ) (r : Router) (deadline : Int) (call : Call σ α) (env : Nat → Situation)
    : Turn σ :=
  Router.turn r deadline call (env v.index).alone v.deployment v.index v.breakers v.state

def Visit.asked (v : Visit σ) (r : Router) (env : Nat → Situation) : Breakers :=
  v.breakers.insert v.deployment.id ((v.breaker r).allow (env v.index).breakerNow).2

theorem breakerFor_asked (v : Visit σ)
    : breakerFor r.breakerOpts (v.asked r env) v.deployment.id
        =
      ((v.breaker r).allow (env v.index).breakerNow).2 := by
  unfold Visit.asked
  rw [breakerFor_insert, if_pos rfl]

theorem turn_of_not_starts (h : ¬ v.Starts r deadline env)
    : v.turn r deadline call env = .last v.breakers v.state := by
  unfold Visit.Starts at h
  apply if_pos
  change r.maxAttempts ≤ v.index ∨ remaining (env v.index) deadline < minAttemptBudget
  omega

theorem turn_of_starts (h : v.Starts r deadline env)
    : v.turn r deadline call env = if ((v.breaker r).allow (env v.index).breakerNow).1 then
        proceed r call (env v.index).alone v.deployment v.index (v.asked r env) v.state
      else
        .next (v.asked r env) v.state := by
  have hstart : ¬ (r.maxAttempts ≤ v.index ∨ remaining (env v.index).alone deadline < minAttemptBudget) := by
    rcases h with ⟨hmax, hbudget⟩
    change ¬ (r.maxAttempts ≤ v.index ∨ remaining (env v.index) deadline < minAttemptBudget)
    omega
  unfold Visit.turn turn
  rw [if_neg hstart]
  change (if !((v.breaker r).allow (env v.index).breakerNow).1 then _ else _) = _
  cases ((v.breaker r).allow (env v.index).breakerNow).1 with
  | false => rfl
  | true => rfl

theorem turn_of_settles (h : v.Takes r deadline env) (hsettles : v.Settles r call env)
    : (breakerFor r.breakerOpts (v.turn r deadline call env).breakers v.deployment.id).probeInFlight
        =
      false := by
  rw [turn_of_starts h.1, if_pos h.2.2]
  apply proceed_of_settles hsettles

theorem turn_of_not_settles (h : v.Takes r deadline env) (hsettles : ¬ v.Settles r call env)
    : (breakerFor r.breakerOpts (v.turn r deadline call env).breakers v.deployment.id).Probing := by
  rw [turn_of_starts h.1, if_pos h.2.2, proceed_of_not_settles hsettles, breakerFor_asked]
  exact probing_of_allow h.2.1 h.2.2

theorem turn_of_probing (h : (v.breaker r).Probing)
    : (breakerFor r.breakerOpts (v.turn r deadline call env).breakers v.deployment.id).Probing := by
  by_cases hstarts : v.Starts r deadline env
  . have hasked := @breakerFor_asked _ r env v
    rw [turn_of_starts hstarts]
    rw [allow_of_probing h] at hasked ⊢
    rw [if_neg Bool.false_ne_true, Turn.breakers, hasked]
    exact h
  . rw [turn_of_not_starts hstarts]
    exact h

theorem turn_of_not_takes (h : ¬ v.Takes r deadline env)
    (hfree : (v.breaker r).probeInFlight = false)
    : (breakerFor r.breakerOpts (v.turn r deadline call env).breakers v.deployment.id).probeInFlight
        =
      false := by
  by_cases hstarts : v.Starts r deadline env
  . rw [turn_of_starts hstarts]
    split
    . next hallowed =>
      have hclosed : (v.breaker r).state = .closed := by
        by_contra hstate
        exact h ⟨hstarts, hstate, hallowed⟩
      by_cases hsettles : v.Settles r call env
      . apply proceed_of_settles hsettles
      . rw [proceed_of_not_settles hsettles, breakerFor_asked, allow_of_closed hclosed]
        exact hfree
    . next hrefused =>
      rw [Turn.breakers, breakerFor_asked, allow_of_refused (by simpa using hrefused)]
      exact hfree
  . rw [turn_of_not_starts hstarts]
    exact hfree

variable {candidates : List Candidate} {i : Nat} {breakers : Breakers}

variable {s : σ}

theorem walk_invariant (inv : Breakers → Prop)
    (hturn : ∀ v, Visits r deadline call env candidates i breakers s v → inv v.breakers →
      inv (v.turn r deadline call env).breakers) (h : inv breakers)
    : inv (walk r deadline call (fun i => (env i).alone) candidates i breakers s) := by
  induction candidates generalizing i breakers s with
  | nil => exact h
  | cons c cs ih =>
    have hnext := hturn _ .here h
    unfold Visit.turn at hnext
    unfold walk
    split
    . next hlast =>
      rw [hlast] at hnext
      exact hnext
    . next hnext' =>
      rw [hnext'] at hnext
      apply ih
      . intro v hv
        exact hturn v (.later hnext' hv)
      . exact hnext

theorem walk_probing (h : (breakerFor r.breakerOpts breakers id).Probing)
    : (breakerFor r.breakerOpts
        (walk r deadline call (fun i => (env i).alone) candidates i breakers s) id).Probing := by
  apply walk_invariant (fun breakers => (breakerFor r.breakerOpts breakers id).Probing) ?_ h
  intro v _ hprobing
  by_cases hid : id = v.deployment.id
  . subst hid
    exact turn_of_probing hprobing
  . unfold Visit.turn
    rw [turn_other _ hid]
    exact hprobing

theorem walk_free
    (hsettles : ∀ v, Visits r deadline call env candidates i breakers s v → v.Takes r deadline env →
      v.Settles r call env) (h : (breakerFor r.breakerOpts breakers id).probeInFlight = false)
    : (breakerFor r.breakerOpts
        (walk r deadline call (fun i => (env i).alone) candidates i breakers s) id).probeInFlight
        =
      false := by
  apply walk_invariant (fun breakers => (breakerFor r.breakerOpts breakers id).probeInFlight = false) ?_ h
  intro v hv hfree
  by_cases hid : id = v.deployment.id
  . subst hid
    by_cases htakes : v.Takes r deadline env
    . exact turn_of_settles htakes (hsettles v hv htakes)
    . exact turn_of_not_takes htakes hfree
  . unfold Visit.turn
    rw [turn_other _ hid]
    exact hfree

theorem visits_cons_iff {c : Candidate} {cs : List Candidate}
    : Visits r deadline call env (c :: cs) i breakers s v ↔ v = ⟨i, c.deployment, breakers, s⟩ ∨
        ∃ breakers' s',
          (⟨i, c.deployment, breakers, s⟩ : Visit σ).turn r deadline call env = .next breakers' s' ∧
          Visits r deadline call env cs (i + 1) breakers' s' v := by
  constructor
  . intro h
    cases h with
    | here => exact .inl rfl
    | later hturn hvisits => exact .inr ⟨_, _, hturn, hvisits⟩
  . rintro (rfl | ⟨breakers', s', hturn, hvisits⟩)
    . exact .here
    . exact .later hturn hvisits

theorem frees_iff_settles (h : v.Takes r deadline env)
    (hprobing : (breakerFor r.breakerOpts (v.turn r deadline call env).breakers v.deployment.id).Probing →
      (breakerFor r.breakerOpts breakers v.deployment.id).Probing)
    (hfree : (breakerFor r.breakerOpts (v.turn r deadline call env).breakers
        v.deployment.id).probeInFlight = false →
      (breakerFor r.breakerOpts breakers v.deployment.id).probeInFlight = false)
    : (breakerFor r.breakerOpts breakers v.deployment.id).probeInFlight = false
        ↔
      v.Settles r call env := by
  constructor
  . intro hend
    by_contra hsettles
    rw [(hprobing (turn_of_not_settles h hsettles)).2] at hend
    simp at hend
  . intro hsettles
    exact hfree (turn_of_settles h hsettles)

theorem walk_frees_iff
    : (∀ v, Visits r deadline call env candidates i breakers s v → v.Takes r deadline env →
        (breakerFor r.breakerOpts (walk r deadline call (fun i => (env i).alone) candidates i breakers s)
          v.deployment.id).probeInFlight = false)
        ↔
      ∀ v, Visits r deadline call env candidates i breakers s v → v.Takes r deadline env →
        v.Settles r call env := by
  induction candidates generalizing i breakers s with
  | nil =>
    constructor
    . intro _ v hv
      nomatch hv
    . intro _ v hv
      nomatch hv
  | cons c cs ih =>
    generalize hv₀ : (⟨i, c.deployment, breakers, s⟩ : Visit σ) = v₀
    have hwalk : walk r deadline call (fun i => (env i).alone) (c :: cs) i breakers s
        = match v₀.turn r deadline call env with
          | .last breakers _ => breakers
          | .next breakers s => walk r deadline call (fun i => (env i).alone) cs (i + 1) breakers s := by
      rw [← hv₀]
      rfl
    simp only [visits_cons_iff, hv₀, hwalk, forall_eq_or_imp, forall_exists_index, and_imp]
    cases hturn : v₀.turn r deadline call env with
    | last breakers' s' =>
      simp only [reduceCtorEq, false_imp_iff, implies_true, and_true]
      refine imp_congr_right fun htakes => ?_
      apply frees_iff_settles htakes
      . simp [hturn, Turn.breakers]
      . simp [hturn, Turn.breakers]
    | next breakers' s' =>
      simp only [Turn.next.injEq, and_imp, forall_eq', forall_apply_eq_imp_iff]
      rw [ih]
      refine and_congr_left fun hrest => imp_congr_right fun htakes => ?_
      apply frees_iff_settles htakes
      . rw [hturn]
        apply walk_probing
      . rw [hturn]
        apply walk_free hrest

end

theorem execute_frees_slots_iff (r : Router) (env : Nat → Situation) (candidates : List Candidate)
    (deadline : Int) (call : Call σ α) (breakers : Breakers) (s : σ)
    : (∀ v, Visits r deadline call env candidates 0 breakers s v → v.Takes r deadline env →
        (breakerFor r.breakerOpts
          (r.execute (fun i => (env i).alone) candidates deadline call breakers s).breakers
          v.deployment.id).probeInFlight = false)
        ↔
      ∀ v, Visits r deadline call env candidates 0 breakers s v → v.Takes r deadline env →
        v.Settles r call env := by
  unfold execute
  rw [execute.go_breakers]
  exact walk_frees_iff

namespace Sample

def deployment : Deployment :=
  ⟨str "d1", ⟨str "m", []⟩, str "p", str "https://p", str "r", .internal, str "ref", 100, 0,
    ⟨0, 0, 0, 0⟩, []⟩

def situation : Situation where
  now := 0
  ctxDeadline := none
  breakerNow := 20 * second
  waited := true
  providers := fun name => some ⟨name, []⟩
  before := id
  during := id
  failedNow := 20 * second

def reject : Call Unit Unit :=
  fun _ _ s => (.error (.ofCode .invalidRequest (str "malformed")), s)

def cooled : Breakers :=
  (∅ : Breakers).insert (str "d1") { Breaker.new ⟨none, none⟩ with state := .open }

def visit : Visit Unit := ⟨0, deployment, cooled, ()⟩

def left : Breaker :=
  breakerFor new.breakerOpts
    (new.execute (fun _ => situation.alone) [⟨deployment, 0, 1⟩] 0 reject cooled ()).breakers (str "d1")

end Sample

open Sample in
theorem probe_slot_kept
    : Visits new 0 reject (fun _ => situation) [⟨deployment, 0, 1⟩] 0 cooled () visit ∧
      visit.Takes new 0 (fun _ => situation) ∧ left.state = .halfOpen ∧ left.probeInFlight = true ∧
      ∀ now, (left.allow now).1 = false := by
  have hleft : left.Probing := ⟨by decide +kernel, by decide +kernel⟩
  refine ⟨.here, ⟨⟨by decide, by decide⟩, by decide +kernel, by decide +kernel⟩, hleft.1, hleft.2, ?_⟩
  intro now
  rw [allow_of_probing hleft]

end ModelGateway.Router
