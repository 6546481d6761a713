import ModelGateway.Gateway.Pipeline

namespace ModelGateway

open Except List Router

namespace Gateway.Pipeline

variable (p : Pipeline) (ports : Ports) (snap : Snapshot)

section

variable {req : Request}

theorem applyPolicy_eq_ok_iff {principal : Principal} {policies : Policy.Cache}
    {out : Principal × Request}
    : (p.applyPolicy snap principal req policies).1 = .ok out
        ↔
      (snap.policy principal.tenant = [] ∧ (principal, req) = out) ∨
      (snap.policy principal.tenant ≠ [] ∧
        ∃ bundle, (policies.forTenant p.codec principal.tenant snap.globalVersion.digest
            (snap.policy principal.tenant)).1 = .ok bundle ∧
          (Policy.evaluate bundle (p.policyInput principal req)).allowed = true ∧
          stamp (Policy.evaluate bundle (p.policyInput principal req)) principal req = out) := by
  unfold applyPolicy
  by_cases hraw : snap.policy principal.tenant = []
  . simp [hraw]
  . rw [if_neg hraw]
    split
    . next herr => simp [hraw, herr]
    . next bundle _ hok =>
      simp only [hraw, hok, false_and, false_or, ne_eq, not_false_eq_true, true_and, ok.injEq,
        exists_eq_left']
      split
      . next hallowed => simp [hallowed]
      . next hdenied => simp [hdenied]

theorem admitRequest_world (n : Nat) (principal : Principal) (req : Request) (w : World)
    : ∃ policies limiter, (p.admitRequest ports snap n principal req w).2
          =
        { w with policies := policies, limiter := limiter } := by
  unfold admitRequest
  split
  . split
    . exact ⟨_, _, rfl⟩
    . split
      . exact ⟨_, _, rfl⟩
      . dsimp only
        split
        . exact ⟨_, _, rfl⟩
        . exact ⟨_, _, rfl⟩
  . exact ⟨_, _, rfl⟩

variable {w w' : World}

theorem admitRequest_eq_ok {n : Nat} {principal principal' : Principal} {req' : Request}
    (h : p.admitRequest ports snap n principal req w = (.ok (principal', req'), w'))
    : (p.applyPolicy snap principal req w.policies).1 = .ok (principal', req') := by
  unfold admitRequest at h
  split at h
  . split at h
    . simp at h
    . next hpolicy =>
      split at h
      . simp at h
      . dsimp only at h
        split at h
        . simp only [Prod.mk.injEq, ok.injEq] at h
          rw [hpolicy, h.1.1, h.1.2]
        . simp at h
  . simp at h

theorem guard_world (n : Nat) (principal : Principal) (req : Request) (w : World)
    : ∃ new, (guard ports snap n principal req w).2 = { w with runs := w.runs ++ new } ∧
        ∀ run ∈ new, run.input.phase = .request := by
  unfold guard
  dsimp only
  generalize snap.guardrails principal.tenant .request = bindings
  split
  . exact ⟨[], by simp⟩
  . generalize ports.guardrails n bindings (guardrailInput principal req) = answer
    refine ⟨[⟨bindings, guardrailInput principal req, answer⟩], ?_, by simp [guardrailInput]⟩
    split
    . rfl
    . split
      . rfl
      . rfl

theorem prepare_world {answer : Except Refusal Prepared} (h : p.prepare ports snap req w = (answer, w'))
    : ∃ policies limiter new, w' = { w with
          tick := w.tick + 1
          policies := policies
          limiter := limiter
          runs := w.runs ++ new } ∧
        ∀ run ∈ new, run.input.phase = .request := by
  have hw : w' = (p.prepare ports snap req w).2 := by rw [h]
  subst hw
  unfold prepare
  dsimp only
  split
  . exact ⟨w.policies, w.limiter, [], by simp [World.advance]⟩
  . next authenticated _ =>
    rcases p.admitRequest_world ports snap w.tick authenticated req w.advance with
      ⟨policies, limiter, hw⟩
    generalize p.admitRequest ports snap w.tick authenticated req w.advance = res at hw
    rcases res with ⟨answer, w'⟩
    subst hw
    rcases answer with err | ⟨principal, req'⟩
    . exact ⟨policies, limiter, [], by simp [World.advance]⟩
    . dsimp only
      rcases guard_world ports snap w.tick principal req'
        { w.advance with policies := policies, limiter := limiter } with ⟨new, hw, hnew⟩
      generalize guard ports snap w.tick principal req'
        { w.advance with policies := policies, limiter := limiter } = res at hw
      rcases res with ⟨answer, w'⟩
      subst hw
      refine ⟨policies, limiter, new, ?_, hnew⟩
      cases answer with
      | error err => rfl
      | ok body =>
        dsimp only
        split
        . rfl
        . rfl

theorem prepare_eq_ok {prep : Prepared} (h : p.prepare ports snap req w = (.ok prep, w'))
    : ∃ req' body v, p.authenticate snap (ports.now w.tick) req = .ok prep.authenticated ∧
        (p.applyPolicy snap prep.authenticated req w.policies).1 = .ok (prep.principal, req') ∧
        guard ports snap w.tick prep.principal req' v = (.ok body, w') ∧
        prep.req = { req' with body := body } ∧
        p.route ports snap w.tick prep.principal prep.req = .ok prep.candidates := by
  unfold prepare at h
  dsimp only at h
  split at h
  . simp at h
  . next authenticated hauth =>
    split at h
    . simp at h
    . next principal req' v hadmit =>
      split at h
      . simp at h
      . next body _ hguard =>
        split at h
        . simp at h
        . next candidates hroute =>
          simp only [Prod.mk.injEq, ok.injEq] at h
          rw [← h.1, ← h.2]
          have hpolicy := p.admitRequest_eq_ok ports snap (w := w.advance) hadmit
          exact ⟨req', body, v, hauth, hpolicy, hguard, rfl, hroute⟩

theorem prepare_candidates {prep : Prepared} (h : p.prepare ports snap req w = (.ok prep, w'))
    : ∀ c ∈ prep.candidates, floor snap prep.principal ≤ c.deployment.trustTier := by
  rcases prepare_eq_ok p ports snap h with ⟨_, _, _, _, _, _, _, hroute⟩
  apply select_trustTier hroute

end

section

def transform (n : Nat) (principal : Principal) (req : Request) (d : Deployment) : Pii.Result :=
  Pii.transformMatches p.hmac p.pepper req.body (p.inspect ports n req).1
    (strategyFor principal.defaultClass d.trustTier)

/-- One that needs tokens may not have the payload when policy asked for a sidecar that fails. -/
def Inspected (n : Nat) (principal : Principal) (req : Request) (d : Deployment) : Prop :=
  strategyFor principal.defaultClass d.trustTier = .tokenize → (p.inspect ports n req).2 = none

theorem keep_cases {n : Nat} {principal : Principal} {req : Request} {strategy : Pii.Strategy}
    {found : List Pii.Match} (w : World)
    : ∃ store stored, (∃ err, p.keep ports n principal req strategy
            (Pii.transformMatches p.hmac p.pepper req.body found strategy) w
            =
          (.error err, w.vaulted store stored)) ∨
        p.keep ports n principal req strategy
            (Pii.transformMatches p.hmac p.pepper req.body found strategy) w
          =
        (.ok ((Pii.transformMatches p.hmac p.pepper req.body found strategy).payload,
          (Pii.transformMatches p.hmac p.pepper req.body found strategy).replacements),
          w.vaulted store stored) := by
  have hw : w = w.vaulted w.store [] := by simp [World.vaulted]
  unfold keep
  split
  . next hcount =>
    rw [Pii.transformMatches_of_count_eq_zero hcount]
    exact ⟨w.store, [], .inr (congrArg _ hw)⟩
  . split
    . split
      . next err store stored _ => exact ⟨store, stored, .inl ⟨err, rfl⟩⟩
      . next store stored _ => exact ⟨store, stored, .inr rfl⟩
    . exact ⟨w.store, [], .inr (congrArg _ hw)⟩

theorem protect_cases (n : Nat) (principal : Principal) (req : Request) (d : Deployment) (w : World)
    : ∃ store stored,
        (∃ err, p.protect ports n principal req d w = (.error err, w.vaulted store stored)) ∨
        (p.Inspected ports n principal req d ∧
          p.protect ports n principal req d w = (.ok ((p.transform ports n principal req d).payload,
            (p.transform ports n principal req d).replacements), w.vaulted store stored)) := by
  have hw : w = w.vaulted w.store [] := by simp [World.vaulted]
  unfold protect Inspected transform
  dsimp only
  split
  . next hnone =>
    refine ⟨w.store, [], .inr ⟨by simp [hnone], ?_⟩⟩
    rw [hnone, Pii.transformMatches_none]
    exact congrArg _ hw
  . rcases p.keep_cases ports (n := n) w with ⟨store, stored, hkeep⟩
    split
    . next hdeep =>
      refine ⟨store, stored, ?_⟩
      rcases hkeep with ⟨err, hkeep⟩ | hkeep
      . exact .inl ⟨err, hkeep⟩
      . exact .inr ⟨fun _ => hdeep, hkeep⟩
    . split
      . exact ⟨w.store, [], .inl ⟨_, congrArg _ hw⟩⟩
      . next htokenize =>
        refine ⟨store, stored, ?_⟩
        rcases hkeep with ⟨err, hkeep⟩ | hkeep
        . exact .inl ⟨err, hkeep⟩
        . exact .inr ⟨fun h => absurd h htokenize, hkeep⟩

end

section

variable (principal : Principal) (req : Request) (stream : Bool)

def callFor (n : Nat) (d : Deployment) (credential : Credential) : ProviderCall where
  deployment := d
  requestMeta := req.requestMeta
  body := (p.transform ports n principal req d).payload
  credential := credential

theorem attempt_cases (provider : Router.Provider) (d : Deployment) (w : World)
    (out : Pii.Replacements)
    : ∃ store stored, (∃ err, p.attempt ports principal req stream provider d (w, out)
            =
          (.error err, w.advance.vaulted store stored, out)) ∨
        (∃ credential, ports.resolve w.tick d.credentialRef = .ok credential ∧
          p.Inspected ports w.tick principal req d ∧
          (p.protect ports w.tick principal req d w.advance).1
            =
          .ok ((p.transform ports w.tick principal req d).payload,
            (p.transform ports w.tick principal req d).replacements) ∧
          p.attempt ports principal req stream provider d (w, out)
            =
          (ports.answer w.tick (p.callFor ports principal req w.tick d credential) stream,
            (w.advance.vaulted store stored).hand w.tick
              (p.callFor ports principal req w.tick d credential) stream,
            (p.transform ports w.tick principal req d).replacements)) := by
  have hw : w.advance = w.advance.vaulted w.store [] := by simp [World.vaulted, World.advance]
  unfold attempt
  dsimp only
  split
  . next err _ => exact ⟨w.store, [], .inl ⟨err, by rw [← hw]⟩⟩
  . next credential hresolve =>
    rcases p.protect_cases ports w.tick principal req d w.advance with
      ⟨store, stored, ⟨err, h⟩ | ⟨hinspected, h⟩⟩
    . refine ⟨store, stored, .inl ⟨err, ?_⟩⟩
      rw [h]
    . refine ⟨store, stored, .inr ⟨credential, hresolve, hinspected, ?_⟩⟩
      rw [h]
      exact ⟨rfl, rfl⟩

structure Handed (prep : Prepared) (s : Sent) : Prop where
  candidate : s.call.deployment ∈ prep.candidates.map (·.deployment)
  inspected : p.Inspected ports s.tick prep.principal prep.req s.call.deployment
  call : ∃ credential, ports.resolve s.tick s.call.deployment.credentialRef = .ok credential ∧
    s.call = p.callFor ports prep.principal prep.req s.tick s.call.deployment credential

structure Served (prep : Prepared) (served : Deployment) (reply : Reply stream) (w : World)
    (replacements : Pii.Replacements) : Prop where
  attempted : ∃ n w' credential, (p.protect ports n prep.principal prep.req served w').1
      =
    .ok ((p.transform ports n prep.principal prep.req served).payload,
      (p.transform ports n prep.principal prep.req served).replacements) ∧
    w.sent.getLast?
      =
    some ⟨p.callFor ports prep.principal prep.req n served credential, stream, n⟩ ∧
    ports.answer n (p.callFor ports prep.principal prep.req n served credential) stream
      =
    .ok reply ∧
    replacements = (p.transform ports n prep.principal prep.req served).replacements

def Walked (prep : Prepared) (w : World) (s : World × Pii.Replacements) : Prop :=
  s.1.jobs = w.jobs ∧ ∃ new, s.1.sent = w.sent ++ new ∧ ∀ s ∈ new, p.Handed ports prep s

theorem attempt_walked {prep : Prepared} {w : World} (provider : Router.Provider)
    (s : World × Pii.Replacements) {d : Deployment} (hd : d ∈ prep.candidates.map (·.deployment))
    (hs : p.Walked ports prep w s)
    : p.Walked ports prep w (p.attempt ports prep.principal prep.req stream provider d s).2 := by
  rcases s with ⟨w₁, out⟩
  rcases hs with ⟨hjobs, new, hsent, hnew⟩
  rcases p.attempt_cases ports prep.principal prep.req stream provider d w₁ out with
    ⟨_, _, ⟨err, h⟩ | ⟨credential, hresolve, hinspected, _, h⟩⟩
  . rw [h]
    exact ⟨hjobs, new, hsent, hnew⟩
  . rw [h]
    refine ⟨hjobs, new ++ [⟨p.callFor ports prep.principal prep.req w₁.tick d credential, stream,
      w₁.tick⟩], ?_, ?_⟩
    . simp only [World.hand_sent, World.vaulted_sent, World.advance_sent]
      rw [hsent, append_assoc]
    . intro s hs
      rw [mem_append, mem_singleton] at hs
      rcases hs with hs | hs
      . exact hnew s hs
      . subst hs
        exact ⟨hd, hinspected, credential, hresolve, rfl⟩

theorem adapt_walked (prep : Prepared) (w : World)
    : p.Walked ports prep w (p.adapt ports prep stream w).state := by
  apply execute_invariant (p.Walked ports prep w)
  . intro provider s c hc hs
    apply p.attempt_walked ports stream provider s (mem_map_of_mem hc) hs
  . exact ⟨rfl, [], by simp, by simp⟩

theorem adapt_served {prep : Prepared} {w : World} {served : Deployment} {reply : Reply stream}
    (h : (p.adapt ports prep stream w).result = .ok (served, reply))
    : served ∈ prep.candidates.map (·.deployment) ∧
      p.Served ports stream prep served reply (p.adapt ports prep stream w).state.1
        (p.adapt ports prep stream w).state.2 := by
  rcases execute_served (fun _ => True) (fun _ _ _ _ _ => trivial) trivial h with
    ⟨provider, ⟨w₁, out⟩, _, hmem, hcall⟩
  refine ⟨hmem, ?_⟩
  change _ = (Except.ok reply, (p.adapt ports prep stream w).state) at hcall
  rcases p.attempt_cases ports prep.principal prep.req stream provider served w₁ out with
    ⟨_, _, ⟨err, hattempt⟩ | ⟨credential, _, _, hprotect, hattempt⟩⟩
  . rw [hattempt] at hcall
    simp at hcall
  . rw [hattempt, Prod.mk.injEq] at hcall
    rw [← hcall.2]
    refine ⟨w₁.tick, w₁.advance, credential, hprotect, ?_, hcall.1, rfl⟩
    simp

theorem adapt_world (prep : Prepared) (w : World)
    : ∃ tick breakers store stored sent, adapted (p.adapt ports prep stream w) = { w with
          tick := tick
          breakers := breakers
          store := store
          stored := stored
          sent := sent } := by
  have hstate : ∃ tick store stored sent, (p.adapt ports prep stream w).state.1
      = { w with tick := tick, store := store, stored := stored, sent := sent } := by
    apply execute_invariant (fun s : World × Pii.Replacements =>
      ∃ tick store stored sent,
        s.1 = { w with tick := tick, store := store, stored := stored, sent := sent })
    . rintro provider ⟨w₁, out⟩ c _ ⟨tick, store, stored, sent, hs⟩
      subst hs
      rcases p.attempt_cases ports prep.principal prep.req stream provider c.deployment _ out with
        ⟨_, _, ⟨err, h⟩ | ⟨_, _, _, _, h⟩⟩
      . rw [h]
        exact ⟨_, _, _, _, rfl⟩
      . rw [h]
        exact ⟨_, _, _, _, rfl⟩
    . exact ⟨w.tick, w.store, w.stored, w.sent, rfl⟩
  rcases hstate with ⟨tick, store, stored, sent, hstate⟩
  refine ⟨tick, (p.adapt ports prep stream w).breakers, store, stored, sent, ?_⟩
  unfold adapted
  rw [hstate]

end

section

def Settled (w w' : World) : Prop :=
  ∃ events limiter, w' = { w with events := events, limiter := limiter }

theorem forget_world (principal : Principal) (req : Request) (out : Pii.Replacements) (w : World)
    : ∃ tick store, p.forget ports principal req out w = { w with tick := tick, store := store } := by
  unfold forget
  split
  . exact ⟨_, _, rfl⟩
  . exact ⟨w.tick, w.store, rfl⟩

theorem settle_world (prep : Prepared) (served : Deployment) (resp : ProviderResponse)
    (out : Pii.Replacements) (w : World)
    : ∃ tick store limiter events jobs, (p.settle ports snap prep served resp out w).2 = { w with
          tick := tick
          store := store
          limiter := limiter
          events := events
          jobs := jobs } := by
  unfold settle mirror emit
  rcases p.forget_world ports prep.principal prep.req out w with ⟨tick, store, hforget⟩
  rw [hforget]
  split
  . exact ⟨_, _, _, _, _, rfl⟩
  . exact ⟨_, _, _, _, _, rfl⟩

theorem finish_world (r : StreamResult) (usage : TokenUsage) (err : Option GoError) (w : World)
    : ∃ tick store limiter events, (p.finish ports snap r usage err w).2
          =
        { w with tick := tick, store := store, limiter := limiter, events := events } := by
  have hforget : ∃ tick store,
      p.forgetStream ports r w = { w with tick := tick, store := store } := by
    unfold forgetStream
    split
    . apply p.forget_world ports
    . exact ⟨w.tick, w.store, rfl⟩
  rcases hforget with ⟨tick, store, hforget⟩
  unfold finish
  rw [hforget]
  cases r.finished with
  | true => exact ⟨w.tick, w.store, w.limiter, w.events, rfl⟩
  | false =>
    cases r.releaseLimit <;> cases r.finish <;> exact ⟨_, _, _, _, rfl⟩

@[simp]
theorem forget_jobs (principal : Principal) (req : Request) (out : Pii.Replacements) (w : World)
    : (p.forget ports principal req out w).jobs = w.jobs := by
  unfold forget
  split <;> rfl

theorem settle_sent (prep : Prepared) (served : Deployment) (resp : ProviderResponse)
    (out : Pii.Replacements) (w : World)
    : (p.settle ports snap prep served resp out w).2.sent = w.sent := by
  rcases p.settle_world ports snap prep served resp out w with ⟨_, _, _, _, _, h⟩
  rw [h]

theorem settle_jobs (prep : Prepared) (served : Deployment) (resp : ProviderResponse)
    (out : Pii.Replacements) (w : World)
    : ∃ n, (p.settle ports snap prep served resp out w).2.jobs = w.jobs ++ if p.shadows then
          (Shadow.send (ports.mirrorDraw n) (ports.mirrorRoom n) snap served
            (shadowRequest snap prep.principal prep.req)).jobs
        else
          [] := by
  unfold settle mirror emit
  split
  . exact ⟨(p.forget ports prep.principal prep.req out w).tick, by simp⟩
  . exact ⟨0, by simp⟩

theorem handle_cases (req : Request) (w : World)
    : (∃ refusal w', p.prepare ports snap req w = (.error refusal, w') ∧
        (p.handle ports snap req w).1.2 = some refusal.err ∧
        Settled w' (p.handle ports snap req w).2) ∨
      (∃ prep w' err, p.prepare ports snap req w = (.ok prep, w') ∧
        (p.adapt ports prep false w').result = .error err ∧
        (p.handle ports snap req w).1.2 = some err ∧
        Settled (adapted (p.adapt ports prep false w')) (p.handle ports snap req w).2) ∨
      (∃ prep w' served resp, p.prepare ports snap req w = (.ok prep, w') ∧
        (p.adapt ports prep false w').result = .ok (served, resp) ∧
        p.handle ports snap req w
          =
        (((p.settle ports snap prep served resp (p.adapt ports prep false w').state.2
            (adapted (p.adapt ports prep false w'))).1, none),
          (p.settle ports snap prep served resp (p.adapt ports prep false w').state.2
            (adapted (p.adapt ports prep false w'))).2)) := by
  unfold handle
  rcases hprep : p.prepare ports snap req w with ⟨refusal | prep, w'⟩
  . refine .inl ⟨refusal, w', rfl, rfl, ?_⟩
    dsimp only [refuse]
    cases refusal.admitted with
    | none => exact ⟨_, _, rfl⟩
    | some principal => exact ⟨_, _, rfl⟩
  . right
    dsimp only
    rcases he : (p.adapt ports prep false w').result with err | ⟨served, resp⟩
    . exact .inl ⟨prep, w', err, rfl, he, rfl, _, _, rfl⟩
    . exact .inr ⟨prep, w', served, resp, rfl, he, rfl⟩

theorem handleStream_cases (req : Request) (w : World)
    : (∃ refusal w', p.prepare ports snap req w = (.error refusal, w') ∧
        (p.handleStream ports snap req w).1.2 = some refusal.err ∧
        Settled w' (p.handleStream ports snap req w).2) ∨
      (∃ prep w' err, p.prepare ports snap req w = (.ok prep, w') ∧
        (p.adapt ports prep true w').result = .error err ∧
        (p.handleStream ports snap req w).1.2 = some err ∧
        Settled (adapted (p.adapt ports prep true w')) (p.handleStream ports snap req w).2) ∨
      (∃ prep w' served cursor, p.prepare ports snap req w = (.ok prep, w') ∧
        (p.adapt ports prep true w').result = .ok (served, cursor) ∧
        p.handleStream ports snap req w = ((⟨some cursor, prep.authenticated, served.id, served.key,
            some (p.adapt ports prep true w').state.2, some prep.principal,
            if p.vault ∧ (p.adapt ports prep true w').state.2.entries ≠ [] then
              some (prep.principal, prep.req, (p.adapt ports prep true w').state.2)
            else
              none,
            some (prep.principal, prep.req, served,
              (p.adapt ports prep true w').state.2.keys.length), false⟩, none),
          adapted (p.adapt ports prep true w'))) := by
  unfold handleStream
  rcases hprep : p.prepare ports snap req w with ⟨refusal | prep, w'⟩
  . exact .inl ⟨refusal, w', rfl, rfl, _, _, rfl⟩
  . right
    dsimp only
    rcases he : (p.adapt ports prep true w').result with err | ⟨served, cursor⟩
    . exact .inl ⟨prep, w', err, rfl, he, rfl, _, _, rfl⟩
    . exact .inr ⟨prep, w', served, cursor, rfl, he, rfl⟩

variable {req : Request} {w w' : World} {prep : Prepared}

theorem prepared_adapt (stream : Bool) (hprep : p.prepare ports snap req w = (.ok prep, w'))
    : (adapted (p.adapt ports prep stream w')).jobs = w.jobs ∧
      ∃ new, (adapted (p.adapt ports prep stream w')).sent = w.sent ++ new ∧
        ∀ s ∈ new, p.Handed ports prep s := by
  rcases p.prepare_world ports snap hprep with ⟨_, _, _, hw, _⟩
  subst hw
  apply p.adapt_walked ports stream prep

def Sends (req : Request) (w v : World) : Prop :=
  ∃ new, v.sent = w.sent ++ new ∧
    ∀ s ∈ new, ∃ prep w', p.prepare ports snap req w = (.ok prep, w') ∧ p.Handed ports prep s

theorem refused_sent {v : World} {refusal : Refusal}
    (hprep : p.prepare ports snap req w = (.error refusal, w')) (hv : Settled w' v)
    : p.Sends ports snap req w v := by
  rcases p.prepare_world ports snap hprep with ⟨_, _, _, hw, _⟩
  rcases hv with ⟨_, _, hv⟩
  subst hw
  subst hv
  refine ⟨[], ?_, ?_⟩
  . simp
  . simp

theorem prepared_sent {v : World} (stream : Bool) (hprep : p.prepare ports snap req w = (.ok prep, w'))
    (hv : v.sent = (adapted (p.adapt ports prep stream w')).sent)
    : p.Sends ports snap req w v := by
  rcases (p.prepared_adapt ports snap stream hprep).2 with ⟨new, hnew, hhanded⟩
  refine ⟨new, ?_, ?_⟩
  . rw [hv]
    exact hnew
  . intro s hs
    exact ⟨prep, w', hprep, hhanded s hs⟩

theorem handle_sent (req : Request) (w : World)
    : p.Sends ports snap req w (p.handle ports snap req w).2 := by
  rcases p.handle_cases ports snap req w with
    ⟨_, w', hprep, _, hout⟩ | ⟨prep, w', err, hprep, _, _, _, _, hout⟩
      | ⟨prep, w', served, resp, hprep, _, hout⟩
  . apply p.refused_sent ports snap hprep hout
  . apply p.prepared_sent ports snap false hprep
    rw [hout]
  . apply p.prepared_sent ports snap false hprep
    rw [hout]
    apply settle_sent

theorem handleStream_sent (req : Request) (w : World)
    : p.Sends ports snap req w (p.handleStream ports snap req w).2 := by
  rcases p.handleStream_cases ports snap req w with
    ⟨_, w', hprep, _, hout⟩ | ⟨prep, w', err, hprep, _, _, _, _, hout⟩
      | ⟨prep, w', served, cursor, hprep, _, hout⟩
  . apply p.refused_sent ports snap hprep hout
  . apply p.prepared_sent ports snap true hprep
    rw [hout]
  . apply p.prepared_sent ports snap true hprep
    rw [hout]

theorem handle_jobs_of_served {served : Deployment} {resp : ProviderResponse}
    (hprep : p.prepare ports snap req w = (.ok prep, w'))
    (hserved : (p.adapt ports prep false w').result = .ok (served, resp)) (hshadows : p.shadows = true)
    : ∃ n, (p.handle ports snap req w).2.jobs
        =
      w.jobs ++ (Shadow.send (ports.mirrorDraw n) (ports.mirrorRoom n) snap served
        (shadowRequest snap prep.principal prep.req)).jobs := by
  rcases p.settle_jobs ports snap prep served resp (p.adapt ports prep false w').state.2
    (adapted (p.adapt ports prep false w')) with ⟨n, hjobs⟩
  rw [(p.prepared_adapt ports snap false hprep).1, if_pos hshadows] at hjobs
  refine ⟨n, ?_⟩
  unfold handle
  rw [hprep]
  dsimp only
  rw [hserved]
  exact hjobs

theorem handle_jobs (req : Request) (w : World)
    : ∃ new, (p.handle ports snap req w).2.jobs = w.jobs ++ new ∧
        ∀ job ∈ new, ∃ prep w' served resp, p.prepare ports snap req w = (.ok prep, w') ∧
          (p.adapt ports prep false w').result = .ok (served, resp) ∧
          p.shadows = true ∧ served.key.isAdapter = false ∧
          job.deployment ∈ snap.shadows served.key.baseModel ∧
          (∃ n j, Shadow.sampled (ports.mirrorDraw n j) job.deployment) ∧
          job.request = shadowRequest snap prep.principal prep.req := by
  rcases p.handle_cases ports snap req w with
    ⟨_, w', hprep, _, _, _, hout⟩ | ⟨prep, w', err, hprep, _, _, _, _, hout⟩
      | ⟨prep, w', served, resp, hprep, hserved, hout⟩
  . rcases p.prepare_world ports snap hprep with ⟨_, _, _, hw, _⟩
    subst hw
    exact ⟨[], by rw [hout]; simp, by simp⟩
  . refine ⟨[], ?_, by simp⟩
    rw [hout, append_nil]
    apply (p.prepared_adapt ports snap false hprep).1
  . by_cases hshadows : p.shadows = true
    . rcases p.handle_jobs_of_served ports snap hprep hserved hshadows with ⟨n, hjobs⟩
      refine ⟨_, hjobs, ?_⟩
      intro job hjob
      rcases Shadow.mem_send_jobs hjob with ⟨hbase, hadapter, ⟨j, hsampled⟩, hreq⟩
      exact ⟨prep, w', served, resp, hprep, hserved, hshadows, hbase, hadapter, ⟨n, j, hsampled⟩,
        hreq⟩
    . refine ⟨[], ?_, by simp⟩
      rcases p.settle_jobs ports snap prep served resp (p.adapt ports prep false w').state.2
        (adapted (p.adapt ports prep false w')) with ⟨n, hjobs⟩
      rw [(p.prepared_adapt ports snap false hprep).1, if_neg hshadows] at hjobs
      rw [hout]
      exact hjobs

theorem shadowCall_sent (d : Deployment) (req : Shadow.Request) (w : World)
    : ∃ new, (p.shadowCall ports d req w).2.sent = w.sent ++ new ∧ (new = [] ∨
          ∃ credential, (p.providers d.provider).isSome ∧
            ports.resolve w.tick d.credentialRef = .ok credential ∧
            new = [⟨⟨d, req.requestMeta, req.body, credential⟩, false, w.tick⟩]) ∧
        ((p.providers d.provider).isSome →
          (∃ credential, ports.resolve w.tick d.credentialRef = .ok credential) → new ≠ []) := by
  have hstrategy : strategyFor (shadowPrincipal req).defaultClass d.trustTier = .none := by
    unfold strategyFor shadowPrincipal Principal.zero
    split <;> rfl
  unfold shadowCall
  dsimp only
  split
  . next hprovider => exact ⟨[], by simp, .inl rfl, by simp [hprovider]⟩
  . next hprovider =>
    split
    . next hresolve => exact ⟨[], by simp, .inl rfl, by simp [hresolve]⟩
    . next credential hresolve =>
      rw [show p.protect ports w.tick (shadowPrincipal req) ⟨req.requestMeta, [], req.body, false⟩ d
          w.advance = (.ok (req.body, ∅), w.advance) by simp [protect, hstrategy]]
      refine ⟨[⟨⟨d, req.requestMeta, req.body, credential⟩, false, w.tick⟩], by simp, .inr ?_, ?_⟩
      . exact ⟨credential, by simp [hprovider], hresolve, rfl⟩
      . simp

end

end Gateway.Pipeline

end ModelGateway
