import ModelGateway.Gateway.PipelineLemmas
import ModelGateway.Gateway.Pipeline

namespace ModelGateway.Gateway

namespace Pipeline

variable (p : Pipeline) (ports : Ports) (snap : Snapshot)

def detected (n : Nat) (req : Request) : List Pii.Match :=
  Pii.withoutOverlaps (Pii.detect req.body ++ deep)
where
  deep : List Pii.Match :=
    if req.deepInspection ∧ p.ner then
      match ports.ner n req.body with
      | .ok entities => Pii.toMatches req.body entities
      | .error _ => []
    else
      []

def DeepInspected (n : Nat) (req : Request) : Prop :=
  p.ner = true ∧ ∃ entities, ports.ner n req.body = .ok entities

theorem inspect_fst (n : Nat) (req : Request)
    : (p.inspect ports n req).1 = p.detected ports n req := by
  unfold inspect detected detected.deep
  by_cases hdeep : req.deepInspection
  . by_cases hner : p.ner
    . cases h : ports.ner n req.body with
      | ok entities => simp [hdeep, hner, Pii.detectAll, Pii.detectAll.found, Except.map]
      | error err => simp [hdeep, hner, Pii.detectAll, Pii.detectAll.found, Except.map]
    . simp [hdeep, hner, Pii.detectAll, Pii.detectAll.found]
  . simp [hdeep, Pii.detectAll, Pii.detectAll.found]

theorem inspect_snd_eq_none_iff (n : Nat) (req : Request)
    : (p.inspect ports n req).2 = none
        ↔
      (req.deepInspection = true → p.DeepInspected ports n req) := by
  unfold inspect DeepInspected
  by_cases hdeep : req.deepInspection
  . by_cases hner : p.ner
    . cases h : ports.ner n req.body with
      | ok entities => simp [hdeep, hner, Pii.detectAll, Pii.detectAll.failed, Except.map]
      | error err => simp [hdeep, hner, Pii.detectAll, Pii.detectAll.failed, Except.map]
    . simp [hdeep, hner]
  . simp [hdeep]

structure Protected (prep : Prepared) (s : Sent) : Prop where
  body : s.call.body
      =
    (Pii.transformMatches p.hmac p.pepper prep.req.body (p.detected ports s.tick prep.req)
      (strategyFor prep.principal.defaultClass s.call.deployment.trustTier)).payload
  deep : prep.req.deepInspection = true →
    strategyFor prep.principal.defaultClass s.call.deployment.trustTier = .tokenize →
      p.DeepInspected ports s.tick prep.req

theorem Handed.isProtected {prep : Prepared} {s : Sent} (h : p.Handed ports prep s)
    : p.Protected ports prep s := by
  rcases h with ⟨_, hinspected, _, _, hcall⟩
  constructor
  . rw [hcall, ← inspect_fst]
    rfl
  . intro hdeep htokenize
    apply (p.inspect_snd_eq_none_iff ports s.tick prep.req).mp (hinspected htokenize) hdeep

theorem mirrored_body {prep : Prepared} {d : Deployment} {req : Shadow.Request}
    (hreq : req = shadowRequest snap prep.principal prep.req) (w : World)
    : ∃ calls, (p.shadowCall ports d req w).2.sent = w.sent ++ calls ∧
        ∀ s ∈ calls, s.call.deployment = d ∧ s.call.body = prep.req.body := by
  rcases p.shadowCall_sent ports d req w with ⟨calls, hsent, hcalls, _⟩
  refine ⟨calls, hsent, ?_⟩
  intro s hs
  rcases hcalls with hnil | ⟨_, _, _, hone⟩
  . rw [hnil] at hs
    simp at hs
  . rw [hone, List.mem_singleton] at hs
    subst hs
    subst hreq
    exact ⟨rfl, rfl⟩

theorem bodies_protected (req : Request) (w : World)
    : (∃ new, (p.handle ports snap req w).2.sent = w.sent ++ new ∧
        ∀ s ∈ new, ∃ prep w', p.prepare ports snap req w = (.ok prep, w') ∧
          p.Protected ports prep s) ∧
      (∃ new, (p.handleStream ports snap req w).2.sent = w.sent ++ new ∧
        ∀ s ∈ new, ∃ prep w', p.prepare ports snap req w = (.ok prep, w') ∧
          p.Protected ports prep s) ∧
      (∃ new, (p.handle ports snap req w).2.jobs = w.jobs ++ new ∧
        ∀ job ∈ new, ∃ prep w', p.prepare ports snap req w = (.ok prep, w') ∧
          (strategyFor prep.principal.defaultClass job.deployment.trustTier = .none →
            ∀ ports' w'', ∃ calls,
              (p.shadowCall ports' job.deployment job.request w'').2.sent = w''.sent ++ calls ∧
              ∀ s ∈ calls, p.Protected ports' prep s)) := by
  refine ⟨?_, ?_, ?_⟩
  . rcases p.handle_sent ports snap req w with ⟨new, hnew, hhanded⟩
    refine ⟨new, hnew, ?_⟩
    intro s hs
    rcases hhanded s hs with ⟨prep, w', hprep, h⟩
    exact ⟨prep, w', hprep, h.isProtected⟩
  . rcases p.handleStream_sent ports snap req w with ⟨new, hnew, hhanded⟩
    refine ⟨new, hnew, ?_⟩
    intro s hs
    rcases hhanded s hs with ⟨prep, w', hprep, h⟩
    exact ⟨prep, w', hprep, h.isProtected⟩
  . rcases p.handle_jobs ports snap req w with ⟨new, hnew, hjobs⟩
    refine ⟨new, hnew, ?_⟩
    intro job hjob
    rcases hjobs job hjob with ⟨prep, w', _, _, hprep, _, _, _, _, _, hreq⟩
    refine ⟨prep, w', hprep, ?_⟩
    intro hnone ports' w''
    rcases p.mirrored_body ports' snap (d := job.deployment) hreq w'' with ⟨calls, hsent, hcalls⟩
    refine ⟨calls, hsent, ?_⟩
    intro s hs
    rcases hcalls s hs with ⟨hdeployment, hbody⟩
    constructor
    . rw [hdeployment, hnone, Pii.transformMatches_none]
      exact hbody
    . intro _ htokenize
      rw [hdeployment, hnone] at htokenize
      simp at htokenize

open Sample in
theorem deep_inspection_skipped
    : (snapshot outside (str "deep") .internal .unset).Composed ∧ ∃ prep w' s, pipeline.prepare calm
          (snapshot outside (str "deep") .internal .unset)
          (request (str "Jo")) .zero = (.ok prep, w') ∧
        s ∈ (pipeline.handle calm
          (snapshot outside (str "deep") .internal .unset)
          (request (str "Jo")) .zero).2.sent ∧
        s.call.deployment.trustTier < TrustTier.internal ∧
        prep.req.deepInspection = true ∧
        ¬pipeline.DeepInspected calm s.tick prep.req := by
  refine ⟨snapshot_composed rfl rfl rfl,
    ⟨principal .internal, principal .internal, { request (str "Jo") with deepInspection := true },
      [⟨deployment (str "d1") [] .external 100 0, 5 / 4, 1⟩]⟩, _,
    ⟨⟨deployment (str "d1") [] .external 100 0, (request []).requestMeta, str "Jo",
      ⟨str "ref", str "secret"⟩⟩, false, 1⟩, Prod.ext ?_ rfl, ?_, ?_, rfl, ?_⟩
  . decide +kernel
  . decide +kernel
  . decide
  . exact fun h => absurd h.1 (by decide)

theorem served_restored (req : Request) (w : World)
    : ((p.handle ports snap req w).1.2 = none → ∃ prep w' served n w₁ body map credential resp,
          p.prepare ports snap req w = (.ok prep, w') ∧
          served ∈ prep.candidates.map (·.deployment) ∧
          (p.protect ports n prep.principal prep.req served w₁).1 = .ok (body, map) ∧
          (p.handle ports snap req w).2.sent.getLast?
            =
          some ⟨⟨served, prep.req.requestMeta, body, credential⟩, false, n⟩ ∧
          ports.invoke n ⟨served, prep.req.requestMeta, body, credential⟩ = .ok resp ∧
          (p.handle ports snap req w).1.1.deployment = served.id ∧
          (p.handle ports snap req w).1.1.body = Pii.restore resp.body map) ∧
      ((p.handleStream ports snap req w).1.2 = none →
        ∃ prep w' served n w₁ body map credential cursor,
          p.prepare ports snap req w = (.ok prep, w') ∧
          served ∈ prep.candidates.map (·.deployment) ∧
          (p.protect ports n prep.principal prep.req served w₁).1 = .ok (body, map) ∧
          (p.handleStream ports snap req w).2.sent.getLast?
            =
          some ⟨⟨served, prep.req.requestMeta, body, credential⟩, true, n⟩ ∧
          ports.stream n ⟨served, prep.req.requestMeta, body, credential⟩ = .ok cursor ∧
          (p.handleStream ports snap req w).1.1.deployment = served.id ∧
          (p.handleStream ports snap req w).1.1.chunks = some cursor ∧
          (p.handleStream ports snap req w).1.1.restorer = some map) := by
  constructor
  . intro h
    rcases p.handle_cases ports snap req w with
      ⟨_, _, _, herr, _⟩ | ⟨_, _, _, _, _, herr, _⟩ | ⟨prep, w', served, resp, hprep, hok, hout⟩
    . simp [h] at herr
    . simp [h] at herr
    . rcases p.adapt_served ports false hok with
        ⟨hmem, n, w₁, credential, hprotect, hlast, hanswer, hmap⟩
      refine ⟨prep, w', served, n, w₁, _, _, credential, resp, hprep, hmem, hprotect, ?_, ?_, ?_, ?_⟩
      . rw [hout, settle_sent]
        exact hlast
      . apply Ports.answer_false_eq_ok_iff.mp hanswer
      . rw [hout]
        rfl
      . rw [hout, ← hmap]
        rfl
  . intro h
    rcases p.handleStream_cases ports snap req w with
      ⟨_, _, _, herr, _⟩ | ⟨_, _, _, _, _, herr, _⟩ | ⟨prep, w', served, cursor, hprep, hok, hout⟩
    . simp [h] at herr
    . simp [h] at herr
    . rcases p.adapt_served ports true hok with
        ⟨hmem, n, w₁, credential, hprotect, hlast, hanswer, hmap⟩
      refine ⟨prep, w', served, n, w₁, _, _, credential, cursor, hprep, hmem, hprotect, ?_, hanswer,
        ?_, ?_, ?_⟩
      . rw [hout]
        exact hlast
      . rw [hout]
      . rw [hout]
      . rw [hout, ← hmap]

end Pipeline

namespace Sample

def pair : List Deployment := [deployment (str "d1") [] .external 100 0, deployment (str "d2") [] .external 100 0]

def halfDown : Ports :=
  { echo with
    invoke := fun n call =>
      if call.deployment.id = str "d1" then
        .error (.new .upstreamError [] true, none)
      else
        echo.invoke n call }

def served : (Result × Option GoError) × World :=
  pipeline.handle halfDown (snapshot pair [] .restricted .unset) (request (str "a@b.co")) .zero

end Sample

open Sample in
theorem Pipeline.served_restored_failed_over
    : served.1.1.body = str "a@b.co" ∧ served.2.sent.map (·.call.deployment.id) = [str "d1", str "d2"] ∧
      ∃ (resp : ProviderResponse) (map : Pii.Replacements), served.1.1.body = Pii.restore resp.body map := by
  have hserved : served.1.1.body = str "a@b.co" ∧
      served.2.sent.map (·.call.deployment.id) = [str "d1", str "d2"] ∧ served.1.2 = none := by
    decide +kernel
  refine ⟨hserved.1, hserved.2.1, ?_⟩
  rcases (served_restored pipeline halfDown (snapshot pair [] .restricted .unset)
    (request (str "a@b.co")) .zero).1 hserved.2.2 with
    ⟨_, _, _, _, _, _, map, _, resp, _, _, _, _, _, _, hbody⟩
  exact ⟨resp, map, hbody⟩

end ModelGateway.Gateway
