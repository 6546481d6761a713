import ModelGateway.Gateway.Events

namespace ModelGateway.Gateway.Pipeline

open List

variable (p : Pipeline) (ports : Ports) (snap : Snapshot)

def usageEvents (events : List Event) : List UsageEvent :=
  events.filterMap fun
    | .usage e => some e
    | .audit _ => none

def emitted (before after : World) : List Event :=
  after.events.drop before.events.length

structure FinishCall where
  usage : TokenUsage
  err : Option GoError
  world : World

def finishes (r : StreamResult) : List FinishCall → List Event
  | [] => []
  | c :: cs =>
    let (r', w) := p.finish ports snap r c.usage c.err c.world
    emitted c.world w ++ finishes r' cs

def caller (now : Int) (req : Request) : Principal :=
  match p.authenticate snap now req with
  | .ok principal => principal
  | .error _ => .zero

def Answered (stream : Bool) (before after : World) (s : Sent) (reply : Reply stream) : Prop :=
  s ∈ after.sent.drop before.sent.length ∧ ports.answer s.tick s.call stream = .ok reply

structure Names (req : Request) (w : World) (err : Option GoError) (e : UsageEvent) : Prop where
  request : e.requestID = req.requestMeta.requestID
  live : e.shadow = false
  tenant : e.tenant = (p.caller snap (ports.now w.tick) req).tenant
  key : e.keyID = (p.caller snap (ports.now w.tick) req).keyID
  outcome : e.outcome = err.map (·.codeOf)

structure Charges (d : Deployment) (reported : TokenUsage) (e : UsageEvent) : Prop where
  deployment : e.deployment = d.id
  usage : e.usage = reported
  cost : e.costMicroUSD = d.cost.forUsage reported

section

def preparedCaller : Except Refusal Prepared → Principal
  | .error refusal => refusal.principal
  | .ok prep => prep.authenticated

variable {answer : Except Refusal Prepared}

theorem prepare_caller {req : Request} {w w' : World} (h : p.prepare ports snap req w = (answer, w'))
    : preparedCaller answer = p.caller snap (ports.now w.tick) req := by
  unfold prepare at h
  dsimp only at h
  unfold caller
  split at h
  . next hauth =>
    rw [hauth, ← (Prod.mk.inj h).1]
    rfl
  . next hauth =>
    rw [hauth]
    split at h
    . rw [← (Prod.mk.inj h).1]
      rfl
    . split at h
      . rw [← (Prod.mk.inj h).1]
        rfl
      . split at h
        . rw [← (Prod.mk.inj h).1]
          rfl
        . rw [← (Prod.mk.inj h).1]
          rfl

theorem prepared_sent_eq {req : Request} {w w' : World} (h : p.prepare ports snap req w = (answer, w'))
    : w'.sent = w.sent := by
  rcases p.prepare_world ports snap h with ⟨_, _, _, hw, _⟩
  rw [hw]

def Unanswered (stream : Bool) (w : World) (s : World × Pii.Replacements) : Prop :=
  ∃ new, s.1.sent = w.sent ++ new ∧
    ∀ x ∈ new, ∀ reply, ports.answer x.tick x.call stream ≠ .ok reply

variable {prep : Prepared} {stream : Bool} {w : World}

theorem attempt_unanswered {provider : Router.Provider} {d : Deployment} {err : GoError}
    {s s' : World × Pii.Replacements}
    (hattempt : p.attempt ports prep.principal prep.req stream provider d s = (.error err, s'))
    (hs : Unanswered ports stream w s)
    : Unanswered ports stream w s' := by
  rcases s with ⟨w₁, out⟩
  rcases hs with ⟨new, hsent, hnew⟩
  rcases p.attempt_cases ports prep.principal prep.req stream provider d w₁ out with
    ⟨_, _, ⟨_, h⟩ | ⟨credential, _, _, _, h⟩⟩
  . rw [h, Prod.mk.injEq] at hattempt
    rw [← hattempt.2]
    exact ⟨new, hsent, hnew⟩
  . rw [h, Prod.mk.injEq] at hattempt
    rw [← hattempt.2]
    refine ⟨new ++ [⟨p.callFor ports prep.principal prep.req w₁.tick d credential, stream,
      w₁.tick⟩], ?_, ?_⟩
    . simp only [World.hand_sent, World.vaulted_sent, World.advance_sent]
      rw [hsent, append_assoc]
    . intro x hx reply hreply
      rw [mem_append, mem_singleton] at hx
      rcases hx with hx | hx
      . exact hnew x hx reply hreply
      . subst hx
        rw [hreply] at hattempt
        simp at hattempt

theorem adapt_ends (prep : Prepared) (stream : Bool) (w : World)
    : Router.Ends (p.attempt ports prep.principal prep.req stream) prep.candidates
        (Unanswered ports stream w) (p.adapt ports prep stream w) := by
  apply Router.execute.go_ends
  . intro provider s err s' c _ hattempt hs
    apply p.attempt_unanswered ports hattempt hs
  . exact ⟨[], by simp, by simp⟩

theorem adapt_unanswered {err : GoError} (h : (p.adapt ports prep stream w).result = .error err)
    (s : Sent) (reply : Reply stream)
    : ¬ Answered ports stream w (adapted (p.adapt ports prep stream w)) s reply := by
  rintro ⟨hs, hreply⟩
  have hends := p.adapt_ends ports prep stream w
  generalize p.adapt ports prep stream w = e at hends h hs
  cases hends with
  | served => simp at h
  | failed hstate =>
    rcases hstate with ⟨new, hsent, hnew⟩
    dsimp only [adapted] at hs
    rw [hsent, drop_left] at hs
    exact hnew s hs reply hreply

theorem adapt_answered {served : Deployment} {response reply : Reply stream} {s : Sent}
    (h : (p.adapt ports prep stream w).result = .ok (served, response))
    (hs : Answered ports stream w (adapted (p.adapt ports prep stream w)) s reply)
    : s.call.deployment = served ∧ reply = response := by
  rcases hs with ⟨hs, hreply⟩
  have hends := p.adapt_ends ports prep stream w
  generalize p.adapt ports prep stream w = e at hends h hs
  cases hends with
  | failed => simp at h
  | @served before d provider r after _ _ hstate _ hattempt =>
    simp only [Except.ok.injEq, Prod.mk.injEq] at h
    rcases h with ⟨rfl, rfl⟩
    rcases before with ⟨w₁, out⟩
    rcases hstate with ⟨new, hsent, hnew⟩
    rcases p.attempt_cases ports prep.principal prep.req stream provider d w₁ out with
      ⟨_, _, ⟨_, hcase⟩ | ⟨_, _, _, _, hcase⟩⟩
    . rw [hcase] at hattempt
      simp at hattempt
    . rw [hcase, Prod.mk.injEq] at hattempt
      rw [← hattempt.2] at hs
      simp only [adapted, World.hand_sent, World.vaulted_sent, World.advance_sent] at hs
      rw [hsent, append_assoc, drop_left, mem_append, mem_singleton] at hs
      rcases hs with hs | hs
      . exact absurd hreply (hnew s hs reply)
      . subst hs
        refine ⟨rfl, ?_⟩
        rw [hattempt.1] at hreply
        exact (Except.ok.inj hreply).symm

end

section

@[simp]
theorem usageEvents_emission (e : UsageEvent) (audit : Option AuditEvent)
    : usageEvents (.usage e :: (audit.map Event.audit).toList) = [e] := by
  cases audit <;> rfl

theorem emitted_eq_nil {w v : World} (h : v.events = w.events) : emitted w v = [] := by
  unfold emitted
  rw [h, drop_length]

def Accounted (req : Request) (stream : Bool) (w v : World) (err : Option GoError)
    (usage : Reply stream → TokenUsage) (events : List Event) : Prop :=
  ∃ e, usageEvents events = [e] ∧ p.Names ports snap req w err e ∧
    ∀ s reply, Answered ports stream w v s reply → Charges s.call.deployment (usage reply) e

variable {p ports snap} {req req' : Request} {w w' v : World} {result : Result}
  {d : Option Deployment} {stream : Bool} {redactions : Nat} {err : Option GoError}

theorem usageEvents_of_emit
    (hevents : v.events = (emit snap req' result d stream redactions err w').events)
    (hkept : w'.events = w.events)
    : usageEvents (emitted w v) = [usageEvent snap req' result d stream err] := by
  unfold emitted
  rw [hevents, ← hkept]
  change usageEvents (List.drop _ (w'.events ++ _)) = _
  rw [drop_left, usageEvents_emission]

theorem usageEvent_names (hreq : req'.requestMeta = req.requestMeta)
    (hcaller : result.principal = p.caller snap (ports.now w.tick) req)
    : p.Names ports snap req w err (usageEvent snap req' result d stream err) := by
  constructor
  . change req'.requestMeta.requestID = _
    rw [hreq]
  . rfl
  . change result.principal.tenant = _
    rw [hcaller]
  . change result.principal.keyID = _
    rw [hcaller]
  . rfl

end

theorem refused_accounted {req : Request} {w w' v : World} {refusal : Refusal} {stream : Bool}
    (usage : Reply stream → TokenUsage) (hprep : p.prepare ports snap req w = (.error refusal, w'))
    (hsent : v.sent = w'.sent) (hevents : v.events = (refuse snap refusal stream w').2.events)
    : p.Accounted ports snap req stream w v (some refusal.err) usage (emitted w v) := by
  refine ⟨_, usageEvents_of_emit hevents (p.prepared_events ports snap hprep),
    usageEvent_names (p.prepare_requestMeta ports snap hprep) (p.prepare_caller ports snap hprep), ?_⟩
  rintro s _ ⟨hs, _⟩
  rw [hsent, p.prepared_sent_eq ports snap hprep, drop_length] at hs
  simp at hs

theorem failed_accounted {req : Request} {w w' v : World} {prep : Prepared} {stream : Bool}
    {result : Result} {d : Option Deployment} {err : GoError} (usage : Reply stream → TokenUsage)
    (hprep : p.prepare ports snap req w = (.ok prep, w'))
    (hadapt : (p.adapt ports prep stream w').result = .error err)
    (hsent : v.sent = (adapted (p.adapt ports prep stream w')).sent) (hevents : v.events
      = (emit snap prep.req result d stream 0 (some err) (adapted (p.adapt ports prep stream w'))).events)
    (hresult : result.principal = prep.authenticated)
    : p.Accounted ports snap req stream w v (some err) usage (emitted w v) := by
  have hkept : (adapted (p.adapt ports prep stream w')).events = w.events := by
    rw [p.adapt_events ports, p.prepared_events ports snap hprep]
  refine ⟨_, usageEvents_of_emit hevents hkept,
    usageEvent_names (p.prepare_requestMeta ports snap hprep)
      (hresult.trans (p.prepare_caller ports snap hprep)), ?_⟩
  rintro s reply ⟨hs, hreply⟩
  rw [hsent, ← p.prepared_sent_eq ports snap hprep] at hs
  exact absurd ⟨hs, hreply⟩ (p.adapt_unanswered ports hadapt s reply)

theorem handle_accounted (req : Request) (w : World)
    : p.Accounted ports snap req false w (p.handle ports snap req w).2
        (p.handle ports snap req w).1.2 (·.usage) (emitted w (p.handle ports snap req w).2) := by
  unfold handle
  rcases hprep : p.prepare ports snap req w with ⟨refusal | prep, w'⟩
  . dsimp only
    cases refusal.admitted with
    | none => exact p.refused_accounted ports snap _ hprep rfl rfl
    | some principal => exact p.refused_accounted ports snap _ hprep rfl rfl
  . dsimp only
    rcases hadapt : (p.adapt ports prep false w').result with err | ⟨served, resp⟩
    . exact p.failed_accounted ports snap _ hprep hadapt rfl rfl rfl
    . have hkept : (adapted (p.adapt ports prep false w')).events = w.events := by
        rw [p.adapt_events ports, p.prepared_events ports snap hprep]
      refine ⟨_, usageEvents_of_emit (p.settle_usage ports snap prep served resp _ _) hkept,
        usageEvent_names (p.prepare_requestMeta ports snap hprep) (p.prepare_caller ports snap hprep),
        ?_⟩
      rintro s _ ⟨hs, hreply⟩
      rw [settle_sent, ← p.prepared_sent_eq ports snap hprep] at hs
      rcases p.adapt_answered ports hadapt ⟨hs, hreply⟩ with ⟨hserved, hresp⟩
      rw [hserved, hresp]
      exact ⟨rfl, rfl, rfl⟩

section

variable {r : StreamResult}

theorem finish_finished (usage : TokenUsage) (err : Option GoError) (w : World)
    : (p.finish ports snap r usage err w).1.finished = true := by
  unfold finish
  split
  . assumption
  . rfl

theorem finishes_of_finished (h : r.finished = true) (calls : List FinishCall)
    : p.finishes ports snap r calls = [] := by
  induction calls with
  | nil => rfl
  | cons c cs ih =>
    have hfinish : p.finish ports snap r c.usage c.err c.world = (r, c.world) := by
      unfold finish
      rw [if_pos h]
    unfold finishes
    rw [hfinish]
    dsimp only
    rw [ih, emitted_eq_nil rfl, append_nil]

theorem finishes_eq_first (first : FinishCall) (rest : List FinishCall)
    : p.finishes ports snap r (first :: rest)
        =
      emitted first.world (p.finish ports snap r first.usage first.err first.world).2 := by
  conv =>
    lhs
    unfold finishes
  dsimp only
  rw [p.finishes_of_finished ports snap (p.finish_finished ports snap _ _ _), append_nil]

theorem finish_events_of_unstarted (h : r.finish = none) (usage : TokenUsage) (err : Option GoError)
    (w : World)
    : (p.finish ports snap r usage err w).2.events = w.events := by
  unfold finish
  split
  . rfl
  . rw [h]
    cases r.releaseLimit <;> exact p.forgetStream_events ports r w

end

theorem handleStream_accounted (req : Request) (w : World) (first : FinishCall)
    (rest : List FinishCall)
    : p.Accounted ports snap req true w (p.handleStream ports snap req w).2
        ((p.handleStream ports snap req w).1.2.or first.err) (fun _ => first.usage)
        (emitted w (p.handleStream ports snap req w).2 ++
          p.finishes ports snap (p.handleStream ports snap req w).1.1 (first :: rest)) := by
  rw [finishes_eq_first]
  unfold handleStream
  rcases hprep : p.prepare ports snap req w with ⟨_ | prep, w'⟩
  . rw [emitted_eq_nil (p.finish_events_of_unstarted ports snap rfl _ _ _), append_nil]
    exact p.refused_accounted ports snap _ hprep rfl rfl
  . dsimp only
    rcases hadapt : (p.adapt ports prep true w').result with err | ⟨_, _⟩
    . rw [emitted_eq_nil (p.finish_events_of_unstarted ports snap rfl _ _ _), append_nil]
      exact p.failed_accounted ports snap _ hprep hadapt rfl rfl rfl
    . have hkept : (adapted (p.adapt ports prep true w')).events = w.events := by
        rw [p.adapt_events ports, p.prepared_events ports snap hprep]
      rw [emitted_eq_nil hkept, nil_append]
      refine ⟨_, usageEvents_of_emit (p.finish_events_of_started ports snap rfl rfl _ _ _) rfl,
        usageEvent_names (p.prepare_requestMeta ports snap hprep) (p.prepare_caller ports snap hprep),
        ?_⟩
      rintro s _ ⟨hs, hreply⟩
      rw [← p.prepared_sent_eq ports snap hprep] at hs
      rw [(p.adapt_answered ports hadapt ⟨hs, hreply⟩).1]
      exact ⟨rfl, rfl, rfl⟩

end ModelGateway.Gateway.Pipeline
