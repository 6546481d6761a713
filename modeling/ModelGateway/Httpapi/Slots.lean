import ModelGateway.Gateway.PipelineLemmas
import ModelGateway.Gateway.Pipeline
import ModelGateway.Httpapi.Server

/-!
This module contains the limiter's slots over one served request, from admission to the end of its stream.
-/

namespace ModelGateway

open List

namespace Gateway

def LimiterCall.isRelease : LimiterCall → Bool
  | .release _ => true
  | _ => false

def ReleasedOnce (ports : Ports) (n : Nat) (calls : List LimiterCall) : Prop :=
  ∀ principal, .admitted principal ∈ calls → (ports.limiterAdmit n principal).allowed = true →
    calls.filter LimiterCall.isRelease = [.release principal]

def Unadmitted (ports : Ports) (n : Nat) (calls : List LimiterCall) : Prop :=
  ∀ principal, .admitted principal ∈ calls → (ports.limiterAdmit n principal).allowed = false

variable {calls : List LimiterCall}

theorem Unadmitted.releasedOnce {ports : Ports} {n : Nat} (h : Unadmitted ports n calls)
    : ReleasedOnce ports n calls := by
  intro principal hmem hallowed
  rw [h principal hmem] at hallowed
  cases hallowed

theorem releasedOnce_admitted_iff {ports : Ports} {n : Nat} {principal : Principal}
    (hallowed : (ports.limiterAdmit n principal).allowed = true) (hcalls : ∀ q, .admitted q ∉ calls)
    : ReleasedOnce ports n (.admitted principal :: calls)
        ↔
      calls.filter LimiterCall.isRelease = [.release principal] := by
  unfold ReleasedOnce
  constructor
  . intro h
    have := h principal mem_cons_self hallowed
    rwa [filter_cons_of_neg (by simp [LimiterCall.isRelease])] at this
  . intro h q hq _
    have : q = principal := by
      rw [mem_cons] at hq
      cases hq with
      | inl hq => exact LimiterCall.admitted.inj hq
      | inr hq => exact absurd hq (hcalls q)
    subst this
    rw [filter_cons_of_neg (by simp [LimiterCall.isRelease])]
    exact h

namespace Pipeline

variable (p : Pipeline) (ports : Ports) (snap : Snapshot)

section

theorem admitRequest_ok_limiter {n : Nat} {principal principal' : Principal} {req req' : Request}
    {w w' : World} (h : p.admitRequest ports snap n principal req w = (.ok (principal', req'), w'))
    : w'.limiter = w.limiter ++ [.admitted principal'] ∧
      (ports.limiterAdmit n principal').allowed = true := by
  unfold admitRequest at h
  split at h
  . split at h
    . simp at h
    . split at h
      . simp at h
      . dsimp only at h
        split at h
        . next hallowed =>
          simp only [Prod.mk.injEq, Except.ok.injEq] at h
          rw [← h.2, ← h.1.1]
          exact ⟨rfl, hallowed⟩
        . simp at h
  . simp at h

theorem admitRequest_error_limiter {n : Nat} {principal : Principal} {req : Request} {w w' : World}
    {err : GoError} (h : p.admitRequest ports snap n principal req w = (.error err, w'))
    : ∃ calls, w'.limiter = w.limiter ++ calls ∧ Unadmitted ports n calls := by
  unfold admitRequest at h
  split at h
  . split at h
    . simp only [Prod.mk.injEq] at h
      exact ⟨[], by simp [← h.2], by simp [Unadmitted]⟩
    . split at h
      . simp only [Prod.mk.injEq] at h
        exact ⟨[], by simp [← h.2], by simp [Unadmitted]⟩
      . next principal' _ _ _ _ _ =>
        dsimp only at h
        split at h
        . simp at h
        . next hallowed =>
          simp only [Prod.mk.injEq] at h
          refine ⟨[.admitted principal'], by simp [← h.2], ?_⟩
          simpa [Unadmitted] using hallowed
  . simp only [Prod.mk.injEq] at h
    exact ⟨[], by simp [← h.2], by simp [Unadmitted]⟩

def onward (n : Nat) (authenticated principal : Principal) (req : Request) (w : World)
    : Except Refusal Prepared × World :=
  match guard ports snap n principal req w with
  | (.error err, w) => (.error ⟨authenticated, some principal, req, err⟩, w)
  | (.ok body, w) =>
    match p.route ports snap n principal { req with body := body } with
    | .error err => (.error ⟨authenticated, some principal, { req with body := body }, err⟩, w)
    | .ok candidates => (.ok ⟨authenticated, principal, { req with body := body }, candidates⟩, w)

def Admits (req : Request) (w : World) (authenticated principal : Principal) (req' : Request)
    (w' : World) : Prop :=
  p.authenticate snap (ports.now w.tick) req = .ok authenticated ∧
    p.admitRequest ports snap w.tick authenticated req w.advance = (.ok (principal, req'), w')

theorem prepare_admission (req : Request) (w : World)
    : (∃ refusal w' calls, p.prepare ports snap req w = (.error refusal, w') ∧
        w'.limiter = w.limiter ++ calls ∧
        Unadmitted ports w.tick calls ∧
        ∀ authenticated principal req' w', ¬ p.Admits ports snap req w authenticated principal req' w') ∨
      (∃ authenticated principal req' w', p.Admits ports snap req w authenticated principal req' w' ∧
        p.prepare ports snap req w = p.onward ports snap w.tick authenticated principal req' w') := by
  unfold prepare Admits
  dsimp only
  cases hauth : p.authenticate snap (ports.now w.tick) req with
  | error err => exact .inl ⟨_, _, [], rfl, by simp [World.advance], by simp [Unadmitted], by simp⟩
  | ok authenticated =>
    dsimp only
    rcases hgranted : p.admitRequest ports snap w.tick authenticated req w.advance with
      ⟨err | ⟨principal, req'⟩, w'⟩
    . rcases p.admitRequest_error_limiter ports snap hgranted with ⟨calls, hw, hcalls⟩
      left
      refine ⟨_, _, calls, rfl, hw, hcalls, ?_⟩
      rintro a principal req' w'' ⟨ha, h⟩
      cases ha
      rw [hgranted] at h
      cases h
    . exact .inr ⟨authenticated, principal, req', w', ⟨rfl, hgranted⟩, rfl⟩

end

section

theorem guard_limiter (n : Nat) (principal : Principal) (req : Request) (w : World)
    : (guard ports snap n principal req w).2.limiter = w.limiter := by
  rcases guard_world ports snap n principal req w with ⟨_, h, _⟩
  rw [h]

theorem onward_cases (n : Nat) (authenticated principal : Principal) (req : Request) (w : World)
    : (∃ refusal w', p.onward ports snap n authenticated principal req w = (.error refusal, w') ∧
        refusal.admitted = some principal ∧
        w'.limiter = w.limiter ∧
        ∀ body w', guard ports snap n principal req w = (.ok body, w') →
          ∀ candidates, p.route ports snap n principal { req with body := body } ≠ .ok candidates) ∨
      (∃ body w' candidates, guard ports snap n principal req w = (.ok body, w') ∧
        p.route ports snap n principal { req with body := body } = .ok candidates ∧
        w'.limiter = w.limiter ∧
        p.onward ports snap n authenticated principal req w
          =
        (.ok ⟨authenticated, principal, { req with body := body }, candidates⟩, w')) := by
  unfold onward
  have hlimiter := guard_limiter ports snap n principal req w
  rcases hguard : guard ports snap n principal req w with ⟨err | body, w'⟩
  . rw [hguard] at hlimiter
    exact .inl ⟨_, _, rfl, rfl, hlimiter, by simp⟩
  . rw [hguard] at hlimiter
    cases hroute : p.route ports snap n principal { req with body := body } with
    | error err =>
      refine .inl ⟨⟨authenticated, some principal, { req with body := body }, err⟩, w', ?_, rfl,
        hlimiter, ?_⟩
      . simp only [hroute]
      . intro body' w'' h
        cases h
        rw [hroute]
        exact fun _ h => nomatch h
    | ok candidates => exact .inr ⟨body, w', candidates, rfl, hroute, hlimiter, by simp only [hroute]⟩

end

section

def slot : Except Refusal Prepared → Option Principal
  | .error refusal => refusal.admitted
  | .ok prep => some prep.principal

@[simp]
theorem adapted_limiter (prep : Prepared) (stream : Bool) (w : World)
    : (adapted (p.adapt ports prep stream w)).limiter = w.limiter := by
  rcases p.adapt_world ports stream prep w with ⟨_, _, _, _, _, h⟩
  rw [h]

@[simp]
theorem forget_limiter (principal : Principal) (req : Request) (out : Pii.Replacements) (w : World)
    : (p.forget ports principal req out w).limiter = w.limiter := by
  rcases p.forget_world ports principal req out w with ⟨_, _, h⟩
  rw [h]

theorem settle_limiter (prep : Prepared) (served : Deployment) (resp : ProviderResponse)
    (out : Pii.Replacements) (w : World)
    : (p.settle ports snap prep served resp out w).2.limiter = w.limiter ++
        [.recordTokens prep.principal resp.usage.total, .release prep.principal] := by
  have hmirror : ∀ (served : Deployment) (req : Request) (principal : Principal) (w : World),
      (p.mirror ports snap served req principal w).limiter = w.limiter := by
    intro served req principal w
    unfold mirror
    split
    . rfl
    . rfl
  unfold settle
  simp [hmirror, emit]

theorem handle_limiter {req : Request} {w w' : World} {answer : Except Refusal Prepared}
    (h : p.prepare ports snap req w = (answer, w'))
    : ∃ calls, (p.handle ports snap req w).2.limiter = w'.limiter ++ calls ∧
        (∀ q, .admitted q ∉ calls) ∧
        calls.filter LimiterCall.isRelease = ((slot answer).map LimiterCall.release).toList := by
  unfold handle slot
  rw [h]
  cases answer with
  | error refusal =>
    dsimp only
    cases refusal.admitted with
    | none => exact ⟨[], by simp [refuse, emit], by simp, rfl⟩
    | some principal => exact ⟨[.release principal], by simp [refuse, emit], by simp, rfl⟩
  | ok prep =>
    dsimp only
    rcases (p.adapt ports prep false w').result with err | ⟨_, resp⟩
    . refine ⟨[.release prep.principal], ?_, by simp, rfl⟩
      simp [abandon, emit]
    . refine ⟨[.recordTokens prep.principal resp.usage.total, .release prep.principal], ?_, by simp, rfl⟩
      rw [settle_limiter, adapted_limiter]

theorem finish_limiter (r : StreamResult) (usage : TokenUsage) (err : Option GoError) (w : World)
    (hfinished : r.finished = false)
    : (p.finish ports snap r usage err w).2.limiter
        =
      w.limiter ++ (r.releaseLimit.map LimiterCall.release).toList ++
        (r.finish.map fun f => LimiterCall.recordTokens f.1 usage.total).toList := by
  have hforget : (p.forgetStream ports r w).limiter = w.limiter := by
    unfold forgetStream
    split
    . apply forget_limiter
    . rfl
  unfold finish
  rw [hfinished]
  rw [← hforget]
  cases r.releaseLimit <;> cases r.finish <;> simp [emit]

end

end Pipeline

end Gateway

namespace Httpapi

open Gateway (Request Pipeline Ports World ReleasedOnce)

def Serving.start (v : Serving) : World :=
  { v.world with events := [], jobs := [] }

def Serving.Starts (v : Serving) (authenticated principal : Principal) (req : Request) (w : World)
    : Prop :=
  ∃ body w' candidates reply,
    Pipeline.guard v.ports v.snap v.world.tick principal req w = (.ok body, w') ∧
    v.pipeline.route v.ports v.snap v.world.tick principal { req with body := body }
      = .ok candidates ∧
    (v.pipeline.adapt v.ports
      ⟨authenticated, principal, { req with body := body }, candidates⟩ true w').result
      = .ok reply

def Serving.Streams (v : Serving) (req : Request) : Prop :=
  ∀ authenticated principal req' w,
    v.pipeline.Admits v.ports v.snap req v.start authenticated principal req' w →
      v.Starts authenticated principal req' w

-- The admission is a function of the request, so there is one to speak of.
variable {req : Request}

theorem streams_iff {v : Serving} {authenticated principal : Principal} {req' : Request} {w : World}
    (h : v.pipeline.Admits v.ports v.snap req v.start authenticated principal req' w)
    : v.Streams req ↔ v.Starts authenticated principal req' w := by
  constructor
  . intro hstreams
    exact hstreams _ _ _ _ h
  . rintro hstarts a _ _ w' ⟨ha, h'⟩
    rw [h.1] at ha
    cases ha
    rw [h.2] at h'
    cases h'
    exact hstarts

section

variable (s : Server) (v : Serving) (c : Call)

theorem handle_releasedOnce (req : Request)
    : ∃ calls, (v.pipeline.handle v.ports v.snap req v.start).2.limiter = v.world.limiter ++ calls ∧
        ReleasedOnce v.ports v.world.tick calls := by
  rcases v.pipeline.prepare_admission v.ports v.snap req v.start with
    ⟨refusal, w', calls, hprep, hw, hcalls, _⟩ |
    ⟨authenticated, principal, req', w', ⟨_, hgranted⟩, hprep⟩
  . rcases v.pipeline.handle_limiter v.ports v.snap hprep with ⟨calls', hlog, hnone, _⟩
    refine ⟨calls ++ calls', ?_, ?_⟩
    . rw [hlog, hw, append_assoc]
      rfl
    . apply Gateway.Unadmitted.releasedOnce
      intro principal hmem
      rw [mem_append] at hmem
      cases hmem with
      | inl hmem => exact hcalls principal hmem
      | inr hmem => exact absurd hmem (hnone principal)
  . rcases v.pipeline.admitRequest_ok_limiter v.ports v.snap hgranted with ⟨hw, hallowed⟩
    have hheld : ∃ answer w'', v.pipeline.prepare v.ports v.snap req v.start = (answer, w'') ∧
        w''.limiter = w'.limiter ∧ Pipeline.slot answer = some principal := by
      rw [hprep]
      rcases v.pipeline.onward_cases v.ports v.snap v.start.tick authenticated principal req' w' with
        ⟨refusal, w'', h, hslot, hw'', _⟩ | ⟨body, w'', _, _, _, hw'', h⟩
      . exact ⟨_, w'', h, hw'', hslot⟩
      . exact ⟨_, w'', h, hw'', rfl⟩
    rcases hheld with ⟨answer, w'', hprep, hw'', hslot⟩
    rcases v.pipeline.handle_limiter v.ports v.snap hprep with ⟨calls, hlog, hnone, hreleased⟩
    rw [hslot] at hreleased
    refine ⟨.admitted principal :: calls, ?_, ?_⟩
    . rw [hlog, hw'', hw]
      simp [Serving.start]
    . apply (Gateway.releasedOnce_admitted_iff hallowed hnone).mpr hreleased

theorem stream_log (hparse : s.parse c = .ok req)
    (hstream : req.requestMeta.stream = true) (hflusher : c.flusher = true)
    {authenticated principal : Principal} {req' : Request} {w : World}
    (hprep : v.pipeline.prepare v.ports v.snap req v.start
      = v.pipeline.onward v.ports v.snap v.world.tick authenticated principal req' w)
    : ∃ calls, (s.serveCompletion v c).limiter = w.limiter ++ calls ∧ (∀ q, .admitted q ∉ calls) ∧
        (calls.filter Gateway.LimiterCall.isRelease = [.release principal]
          ↔
        v.Starts authenticated principal req' w) := by
  unfold Server.serveCompletion
  rw [hparse]
  dsimp only
  rw [if_pos hstream, if_pos hflusher]
  rw [show { v.world with events := [], jobs := [] } = v.start from rfl]
  unfold Pipeline.handleStream
  rw [hprep]
  rcases v.pipeline.onward_cases v.ports v.snap v.world.tick authenticated principal req' w with
    ⟨_, w', h, _, hw, hstops⟩ | ⟨body, w', candidates, hguard, hroute, hw, h⟩
  . rw [h]
    refine ⟨[], ?_, by simp, iff_of_false (by simp) ?_⟩
    . rw [append_nil, ← hw]
      rfl
    . rintro ⟨body, w'', candidates, _, hguard, hroute, _⟩
      exact hstops body w'' hguard candidates hroute
  . rw [h]
    dsimp only
    rcases hresult : (v.pipeline.adapt v.ports
      ⟨authenticated, principal, { req' with body := body }, candidates⟩ true w').result with
      err | ⟨_, _⟩
    . refine ⟨[], ?_, by simp, iff_of_false (by simp) ?_⟩
      . rw [append_nil, ← hw]
        apply Pipeline.adapted_limiter
      . rintro ⟨_, w'', _, _, hguard', hroute', hreply⟩
        rw [hguard] at hguard'
        cases hguard'
        rw [hroute] at hroute'
        cases hroute'
        rw [hresult] at hreply
        cases hreply
    . refine ⟨[.release principal, .recordTokens principal v.usage.total], ?_, by simp,
        iff_of_true rfl ⟨body, w', candidates, _, hguard, hroute, hresult⟩⟩
      rw [Pipeline.finish_limiter _ _ _ _ _ _ _ rfl, Pipeline.adapted_limiter, hw]
      simp

theorem stream_releasedOnce_iff (hparse : s.parse c = .ok req)
    (hstream : req.requestMeta.stream = true) (hflusher : c.flusher = true)
    : ∃ calls, (s.serveCompletion v c).limiter = v.world.limiter ++ calls ∧
        (ReleasedOnce v.ports v.world.tick calls ↔ v.Streams req) := by
  rcases v.pipeline.prepare_admission v.ports v.snap req v.start with
    ⟨_, w', calls, hprep, hw, hcalls, hnone⟩ |
    ⟨authenticated, principal, req', w', hadmits, hprep⟩
  . refine ⟨calls, ?_, iff_of_true hcalls.releasedOnce ?_⟩
    . unfold Server.serveCompletion Pipeline.handleStream
      rw [hparse]
      dsimp only
      rw [if_pos hstream, if_pos hflusher, show { v.world with events := [], jobs := [] } = v.start
        from rfl, hprep]
      exact hw
    . intro a principal req' w' h
      exact absurd h (hnone a principal req' w')
  . rcases v.pipeline.admitRequest_ok_limiter v.ports v.snap hadmits.2 with ⟨hw, hallowed⟩
    rcases stream_log s v c hparse hstream hflusher hprep with ⟨calls, hlog, hcalls, hiff⟩
    refine ⟨.admitted principal :: calls, ?_, ?_⟩
    . rw [hlog, hw]
      simp [Serving.start]
    . rw [streams_iff hadmits, ← hiff]
      exact Gateway.releasedOnce_admitted_iff hallowed hcalls

theorem released_once_iff
    : ∃ calls, (s.serveCompletion v c).limiter = v.world.limiter ++ calls ∧
        (ReleasedOnce v.ports v.world.tick calls
            ↔
          ∀ req, s.parse c = .ok req → req.requestMeta.stream = true → c.flusher = true →
            v.Streams req) := by
  have hquiet : ∀ w : World, w.limiter = v.world.limiter →
      ∃ calls, w.limiter = v.world.limiter ++ calls ∧ ReleasedOnce v.ports v.world.tick calls :=
    fun w h => ⟨[], by simp [h], fun _ hmem => nomatch hmem⟩
  cases hparse : s.parse c with
  | error err =>
    unfold Server.serveCompletion
    rw [hparse]
    rcases hquiet v.start rfl with ⟨calls, hw, hcalls⟩
    exact ⟨calls, hw, iff_of_true hcalls (by simp)⟩
  | ok req =>
    cases hstream : req.requestMeta.stream with
    | false =>
      rcases handle_releasedOnce v req with ⟨calls, hw, hcalls⟩
      refine ⟨calls, ?_, iff_of_true hcalls ?_⟩
      . unfold Server.serveCompletion
        rw [hparse]
        dsimp only
        rw [if_neg (by simp [hstream])]
        exact hw
      . intro req' h
        cases h
        simp [hstream]
    | true =>
      cases hflusher : c.flusher with
      | false =>
        unfold Server.serveCompletion
        rw [hparse]
        dsimp only
        rw [if_pos hstream, if_neg (by simp [hflusher])]
        rcases hquiet v.start rfl with ⟨calls, hw, hcalls⟩
        exact ⟨calls, hw, iff_of_true hcalls (by simp)⟩
      | true =>
        rcases stream_releasedOnce_iff s v c hparse hstream hflusher with ⟨calls, hw, hiff⟩
        refine ⟨calls, hw, hiff.trans ?_⟩
        constructor
        . intro h req' hreq' _ _
          cases hreq'
          exact h
        . intro h
          apply h req rfl hstream rfl

end

namespace Unstarted

def server : Server where
  extract := fun _ => .zero
  tracing := false
  unmarshal := fun _ => .ok ⟨str "m", true⟩
  trimSpace := id
  printable := fun _ => true

def call : Call where
  endpoint := .chatCompletions
  header := (∅ : Header).insert (str "Authorization") [str "Bearer gw_ac_secret"]
  body := []
  readErr := none
  clientIP := none
  deadline := 0
  flusher := true
  traceDraw := .zero
  idDraw := .zero

def serving : Serving where
  pipeline := Gateway.Sample.pipeline
  ports := { Gateway.Sample.calm with stream := fun _ _ => .error (.ofCode .upstreamError []) }
  snap := Gateway.Sample.snapshot Gateway.Sample.outside [] .publicData .external
  world := .zero
  usage := .zero
  streamErr := none

end Unstarted

theorem unstarted_stream_keeps_slot
    : (Unstarted.server.serveCompletion Unstarted.serving Unstarted.call).limiter
        = [.admitted (Gateway.Sample.principal .publicData)] ∧
      ¬ ReleasedOnce Unstarted.serving.ports Unstarted.serving.world.tick
        [.admitted (Gateway.Sample.principal .publicData)] := by
  constructor
  . decide +kernel
  . intro h
    have := h _ mem_cons_self rfl
    revert this
    decide

end Httpapi

end ModelGateway
