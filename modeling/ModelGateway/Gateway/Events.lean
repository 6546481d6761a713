import ModelGateway.Gateway.PipelineLemmas

namespace ModelGateway.Gateway.Pipeline

variable (p : Pipeline) (ports : Ports) (snap : Snapshot)

def Emission (requestMeta : RequestMeta) (events : List Event) : Prop :=
  ∃ req result d stream redactions err, req.requestMeta = requestMeta ∧
    events = .usage (usageEvent snap req result d stream err)
      :: ((auditEvent snap req result redactions err).map Event.audit).toList

variable {req : Request}

theorem emit_emission {requestMeta : RequestMeta} (hreq : req.requestMeta = requestMeta)
    (result : Result) (d : Option Deployment) (stream : Bool) (redactions : Nat) (err : Option GoError)
    (w : World)
    : ∃ new, (emit snap req result d stream redactions err w).events = w.events ++ new ∧
        Emission snap requestMeta new :=
  ⟨_, rfl, req, result, d, stream, redactions, err, hreq, rfl⟩

theorem applyPolicy_requestMeta {principal principal' : Principal} {req' : Request}
    {policies : Policy.Cache}
    (h : (p.applyPolicy snap principal req policies).1 = .ok (principal', req'))
    : req'.requestMeta = req.requestMeta := by
  rcases (p.applyPolicy_eq_ok_iff snap).mp h with ⟨_, hout⟩ | ⟨_, _, _, _, hout⟩
  . rw [Prod.mk.injEq] at hout
    rw [← hout.2]
  . simp only [stamp, Prod.mk.injEq] at hout
    rw [← hout.2]

def preparedRequest : Except Refusal Prepared → Request
  | .error refusal => refusal.req
  | .ok prep => prep.req

variable {answer : Except Refusal Prepared}

theorem prepare_requestMeta {w w' : World} (h : p.prepare ports snap req w = (answer, w'))
    : (preparedRequest answer).requestMeta = req.requestMeta := by
  unfold prepare at h
  dsimp only at h
  split at h
  . rw [← (Prod.mk.inj h).1]
    rfl
  . split at h
    . rw [← (Prod.mk.inj h).1]
      rfl
    . next hadmit =>
      have hmeta := p.applyPolicy_requestMeta snap (p.admitRequest_eq_ok ports snap hadmit)
      split at h
      . rw [← (Prod.mk.inj h).1]
        exact hmeta
      . split at h
        . rw [← (Prod.mk.inj h).1]
          exact hmeta
        . rw [← (Prod.mk.inj h).1]
          exact hmeta

theorem adapt_events (prep : Prepared) (stream : Bool) (w : World)
    : (adapted (p.adapt ports prep stream w)).events = w.events := by
  rcases p.adapt_world ports stream prep w with ⟨_, _, _, _, _, h⟩
  rw [h]

theorem prepared_events {w w' : World} (h : p.prepare ports snap req w = (answer, w'))
    : w'.events = w.events := by
  rcases p.prepare_world ports snap h with ⟨_, _, _, hw, _⟩
  rw [hw]

theorem forget_events (principal : Principal) (req : Request) (out : Pii.Replacements) (w : World)
    : (p.forget ports principal req out w).events = w.events := by
  rcases p.forget_world ports principal req out w with ⟨_, _, h⟩
  rw [h]

theorem mirror_events (served : Deployment) (req : Request) (principal : Principal) (w : World)
    : (p.mirror ports snap served req principal w).events = w.events := by
  unfold mirror
  split <;> rfl

theorem settle_usage (prep : Prepared) (served : Deployment) (resp : ProviderResponse)
    (out : Pii.Replacements) (w : World)
    : (p.settle ports snap prep served resp out w).2.events
        =
      (emit snap prep.req (p.settle ports snap prep served resp out w).1 (some served) false
        out.keys.length none w).events := by
  have hforget := p.forget_events ports prep.principal prep.req out w
  unfold settle
  simp only [World.limit_events]
  rw [mirror_events]
  simp only [emit, World.emit_events, World.limit_events]
  rw [hforget]

theorem forgetStream_events (r : StreamResult) (w : World)
    : (p.forgetStream ports r w).events = w.events := by
  unfold forgetStream
  split
  . apply p.forget_events ports
  . rfl

theorem finish_events_of_started {principal : Principal} {req : Request} {d : Deployment}
    {redactions : Nat} {r : StreamResult} (hfinished : r.finished = false)
    (h : r.finish = some (principal, req, d, redactions)) (usage : TokenUsage)
    (err : Option GoError) (w : World)
    : (p.finish ports snap r usage err w).2.events = (emit snap req { Result.zero with
          principal := r.principal, deployment := r.deployment, route := r.route, usage := usage }
        (some d) true redactions err w).events := by
  have hforget := p.forgetStream_events ports r w
  unfold finish
  rw [hfinished, if_neg Bool.false_ne_true]
  rw [h]
  cases r.releaseLimit with
  | none =>
    simp only [emit, World.emit_events, World.limit_events, Option.elim]
    rw [hforget]
  | some released =>
    simp only [emit, World.emit_events, World.limit_events, Option.elim]
    rw [hforget]

theorem handle_events (req : Request) (w : World)
    : ∃ new, (p.handle ports snap req w).2.events = w.events ++ new ∧
        Emission snap req.requestMeta new := by
  unfold handle
  rcases hprep : p.prepare ports snap req w with ⟨refusal | prep, w'⟩
  . have hmeta := p.prepare_requestMeta ports snap hprep
    have hevents := p.prepared_events ports snap hprep
    dsimp only [refuse]
    rw [← hevents]
    have hemit := emit_emission snap hmeta { Result.zero with principal := refusal.principal } none
      false 0 (some refusal.err) w'
    cases refusal.admitted with
    | none => exact hemit
    | some principal => exact hemit
  . have hmeta := p.prepare_requestMeta ports snap hprep
    have hevents := p.prepared_events ports snap hprep
    have hadapt := p.adapt_events ports prep false w'
    dsimp only
    rw [← hevents, ← hadapt]
    rcases (p.adapt ports prep false w').result with err | ⟨_, resp⟩
    . apply emit_emission snap hmeta _ _ false 0 (some err)
    . dsimp only
      rw [settle_usage]
      apply emit_emission snap hmeta _ _ false _ none

theorem handleStream_events (req : Request) (w : World)
    : (∃ err new, (p.handleStream ports snap req w).1.2 = some err ∧
        (p.handleStream ports snap req w).2.events = w.events ++ new ∧
        Emission snap req.requestMeta new) ∨
      ((p.handleStream ports snap req w).1.2 = none ∧ ∀ usage err, ∃ new,
          (p.finish ports snap (p.handleStream ports snap req w).1.1 usage err
            (p.handleStream ports snap req w).2).2.events = w.events ++ new ∧
          Emission snap req.requestMeta new) := by
  unfold handleStream
  rcases hprep : p.prepare ports snap req w with ⟨refusal | prep, w'⟩
  . left
    have hmeta := p.prepare_requestMeta ports snap hprep
    rw [← p.prepared_events ports snap hprep]
    rcases emit_emission snap hmeta { Result.zero with principal := refusal.principal } none true 0
      (some refusal.err) w' with ⟨new, hnew, hemission⟩
    exact ⟨refusal.err, new, rfl, hnew, hemission⟩
  . have hmeta := p.prepare_requestMeta ports snap hprep
    have hadapt := p.adapt_events ports prep true w'
    rw [← p.prepared_events ports snap hprep, ← hadapt]
    dsimp only
    rcases (p.adapt ports prep true w').result with err | ⟨_, _⟩
    . left
      generalize Result.mk _ _ _ _ _ _ = result
      rcases emit_emission snap hmeta result none true 0 (some err)
        (adapted (p.adapt ports prep true w')) with ⟨new, hnew, hemission⟩
      exact ⟨err, new, rfl, hnew, hemission⟩
    . right
      refine ⟨rfl, ?_⟩
      intro usage err
      unfold finish
      generalize hforgotten : p.forgetStream ports _ (adapted (p.adapt ports prep true w')) = w''
      have hevents : w''.events = (adapted (p.adapt ports prep true w')).events := by
        rw [← hforgotten, forgetStream_events]
      rw [← hevents]
      apply emit_emission snap hmeta _ _ true _ err

theorem handleStream_jobs (req : Request) (w : World)
    : (p.handleStream ports snap req w).2.jobs = w.jobs := by
  rcases p.handleStream_cases ports snap req w with
    ⟨_, w', hprep, _, _, _, hout⟩ | ⟨prep, w', err, hprep, _, _, _, _, hout⟩
      | ⟨prep, w', served, cursor, hprep, _, hout⟩
  . rcases p.prepare_world ports snap hprep with ⟨_, _, _, hw, _⟩
    subst hw
    rw [hout]
  . rw [hout]
    apply (p.prepared_adapt ports snap true hprep).1
  . rw [hout]
    apply (p.prepared_adapt ports snap true hprep).1

theorem finish_jobs (r : StreamResult) (usage : TokenUsage) (err : Option GoError) (w : World)
    : (p.finish ports snap r usage err w).2.jobs = w.jobs := by
  rcases p.finish_world ports snap r usage err w with ⟨_, _, _, _, h⟩
  rw [h]

theorem shadowCall_events (d : Deployment) (req : Shadow.Request) (w : World)
    : ∀ e ∈ (p.shadowCall ports d req w).2.events, e ∈ w.events ∨
        ∃ usage err, e = .usage (shadowUsageEvent d req usage err) := by
  intro e he
  unfold shadowCall at he
  dsimp only at he
  split at he
  . exact .inl he
  . split at he
    . exact .inl he
    . rcases p.protect_cases ports w.tick (shadowPrincipal req)
        ⟨req.requestMeta, [], req.body, false⟩ d w.advance with
        ⟨_, _, ⟨err, h⟩ | ⟨_, h⟩⟩
      . rw [h] at he
        exact .inl he
      . rw [h] at he
        rcases List.mem_append.mp he with he | he
        . exact .inl he
        . exact .inr ⟨_, _, List.mem_singleton.mp he⟩

end ModelGateway.Gateway.Pipeline
