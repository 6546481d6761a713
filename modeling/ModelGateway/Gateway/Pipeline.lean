import ModelGateway.Core.Identity
import ModelGateway.Gateway.Ports

/-!
This module contains the pipeline of the data plane: what one request passes through from its key to its
answer, the mirrored copy of it, and a small fleet to run it on.
-/

namespace ModelGateway.Gateway

def roundedSeconds (d : Int) : Str :=
  let s := (2 * d.natAbs + second.toNat) / (2 * second.toNat)
  let sign := if d < 0 ∧ s ≠ 0 then str "-" else []
  let hours := s / 3600
  let minutes := s / 60 % 60
  sign ++ (if 0 < hours then
      Str.ofNat hours ++ str "h" ++ Str.ofNat minutes ++ str "m"
    else if 0 < minutes then
      Str.ofNat minutes ++ str "m"
    else
      [])
    ++ Str.ofNat (s % 60) ++ str "s"

def budgetIDs (refs : List BudgetRef) : List Str :=
  refs.map (·.id)

def payloadBytes (n : Int) : Nat :=
  if n < 0 then 0 else n.toNat

def strategyFor (dataClass : DataClass) (tier : TrustTier) : Pii.Strategy :=
  if TrustTier.internal ≤ tier then
    .none
  else
    match dataClass with
    | .restricted => .tokenize
    | .confidential => .tokenize
    | .internal => .redact
    | _ => .none

structure Result where
  statusCode : Int
  body : Str
  principal : Principal
  deployment : Str
  route : RoutingKey
  usage : TokenUsage

def Result.zero : Result := ⟨0, [], .zero, [], ⟨[], []⟩, .zero⟩

def auditable (req : Request) (principal : Principal) (redactions : Nat) (err : Option GoError)
    : Option (Str × Str) :=
  if err.isSome then
    some (req.requestMeta.endpoint.name, [])
  else if 0 < redactions then
    some (str "pii.redact", str "redacted " ++ Str.ofNat redactions ++ str " values before sending")
  else if principal.defaultClass ≠ .unset ∧ principal.defaultClass ≠ .publicData then
    some (req.requestMeta.endpoint.name, str "data classified " ++ principal.defaultClass.name)
  else
    none

namespace Pipeline

variable (p : Pipeline) (ports : Ports) (snap : Snapshot)

-- A request that was attributed to no deployment is priced at the zero cost.
def usageEvent (req : Request) (result : Result) (d : Option Deployment) (stream : Bool)
    (err : Option GoError) : UsageEvent :=
  let rates : Cost := (d.map (·.cost)).getD ⟨0, 0, 0, 0⟩
  let cost := rates.forUsage result.usage
  {
    requestID := req.requestMeta.requestID
    tenant := result.principal.tenant
    keyID := result.principal.keyID
    tier := snap.tier result.principal.tenant
    deployment := result.deployment
    route := result.route
    provider := (d.map (·.provider)).getD []
    stream := stream
    shadow := false
    usage := result.usage
    costMicroUSD := cost
    priceMicroUSD := cost
    outcome := err.map (·.codeOf)
    snapshotVersion := snap.globalVersion.number
    budgets := budgetIDs result.principal.budgets
  }

def auditEvent (req : Request) (result : Result) (redactions : Nat) (err : Option GoError)
    : Option AuditEvent :=
  (auditable req result.principal redactions err).map fun (action, reason) => {
    eventID := req.requestMeta.requestID ++ str ":" ++ action
    requestID := req.requestMeta.requestID
    tenant := result.principal.tenant
    actor := result.principal.keyID
    action := action
    resource := if result.deployment = [] then req.requestMeta.model else result.deployment
    outcome := err.map (·.codeOf)
    reason := reason
    sourceIP := req.requestMeta.sourceIP
    snapshotVersion := snap.globalVersion.number
  }

def emit (req : Request) (result : Result) (d : Option Deployment) (stream : Bool)
    (redactions : Nat) (err : Option GoError) (w : World) : World :=
  w.emit (.usage (usageEvent snap req result d stream err)
    :: ((auditEvent snap req result redactions err).map Event.audit).toList)

def unknownKey : GoError := .ofCode .unauthenticated (str "unknown api key")

def authenticate (now : Int) (req : Request) : Except GoError Principal :=
  match parseAPIKey req.apiKey with
  | .error err => .error err
  | .ok (pre, secret) =>
    match snap.tenantForPrefix pre with
    | none => .error unknownKey
    | some tenant =>
      match snap.principal tenant (p.hmac p.pepper secret) with
      | none => .error unknownKey
      | some principal =>
        match principal.validate now with
        | .error err => .error err
        | .ok () => .ok principal

def stamp (decision : Policy.Decision) (principal : Principal) (req : Request)
    : Principal × Request :=
  ({ principal with
      defaultClass :=
        if decision.dataClass = .unset then principal.defaultClass else decision.dataClass
      minTrustTier :=
        if principal.minTrustTier < decision.minTrustTier then decision.minTrustTier
        else principal.minTrustTier },
    { req with deepInspection := decision.deepInspection })

def policyInput (principal : Principal) (req : Request) : Policy.Input where
  model := req.requestMeta.model
  endpoint := req.requestMeta.endpoint
  roles := principal.roles
  region := p.region
  source := req.requestMeta.sourceIP
  payload := payloadBytes req.requestMeta.payloadBytes

def applyPolicy (principal : Principal) (req : Request) (policies : Policy.Cache)
    : Except GoError (Principal × Request) × Policy.Cache :=
  let raw := snap.policy principal.tenant
  if raw = [] then
    (.ok (principal, req), policies)
  else
    match policies.forTenant p.codec principal.tenant snap.globalVersion.digest raw with
    | (.error err, policies) =>
      (.error (.wrap .forbidden (str "policy could not be evaluated") false err), policies)
    | (.ok bundle, policies) =>
      let decision := Policy.evaluate bundle (p.policyInput principal req)
      if decision.allowed then
        (.ok (stamp decision principal req), policies)
      else
        let reason := if decision.reason = [] then str "refused by policy" else decision.reason
        (.error (.ofCode .forbidden (reason ++ str " (rule " ++ decision.ruleID ++ str ")")),
          policies)

def admitRequest (n : Nat) (principal : Principal) (req : Request) (w : World)
    : Except GoError (Principal × Request) × World :=
  if principal.models.permits req.requestMeta.model then
    match p.applyPolicy snap principal req w.policies with
    | (.error err, policies) => (.error err, { w with policies := policies })
    | (.ok (principal, req), policies) =>
      match snap.deniedBudget principal with
      | some budget =>
        (.error (.ofCode .budgetExhausted (str "budget " ++ budget.id.quote ++ str " is exhausted")),
          { w with policies := policies })
      | none =>
        let decision := ports.limiterAdmit n principal
        let w := { w with policies := policies }.limit (.admitted principal)
        if decision.allowed then
          (.ok (principal, req), w)
        else
          (.error (.ofCode decision.reason
            (str "rate limit exceeded; retry in " ++ roundedSeconds decision.retryAfter)), w)
  else
    (.error (.ofCode .forbidden (str "this key may not call " ++ req.requestMeta.model.quote)), w)

def guardrailInput (principal : Principal) (req : Request) : GuardrailInput where
  phase := .request
  requestMeta := req.requestMeta
  dataClass := principal.defaultClass
  tier := .unset
  payload := req.body

def guard (n : Nat) (principal : Principal) (req : Request) (w : World)
    : Except GoError Str × World :=
  let bindings := snap.guardrails principal.tenant .request
  if bindings = [] then
    (.ok req.body, w)
  else
    let input := guardrailInput principal req
    let answer := ports.guardrails n bindings input
    let w := w.guarded ⟨bindings, input, answer⟩
    match answer with
    | .error err => (.error err, w)
    | .ok outcome =>
      if outcome.denied then
        (.error (.ofCode .guardrailDenied
          (str "request refused by the " ++ outcome.reason ++ str " guardrail")), w)
      else
        (.ok outcome.payload, w)

def floor (principal : Principal) : TrustTier :=
  if snap.minTrustTier principal.tenant < principal.minTrustTier then
    principal.minTrustTier
  else
    snap.minTrustTier principal.tenant

def route (n : Nat) (principal : Principal) (req : Request)
    : Except GoError (List Router.Candidate) :=
  Router.select p.providers (ports.health n) (ports.draw n) snap {
    tenant := principal.tenant
    model := req.requestMeta.model
    endpoint := req.requestMeta.endpoint
    minTrustTier := floor snap principal
    required := []
    objective := .balanced
    region := p.region
    referenceTokens := req.requestMeta.payloadBytes.tdiv 4
  }

structure Prepared where
  authenticated : Principal
  principal : Principal
  req : Request
  candidates : List Router.Candidate
  deriving DecidableEq

structure Refusal where
  principal : Principal
  admitted : Option Principal
  req : Request
  err : GoError
  deriving DecidableEq

def prepare (req : Request) (w : World) : Except Refusal Prepared × World :=
  let n := w.tick
  let w := w.advance
  match p.authenticate snap (ports.now n) req with
  | .error err => (.error ⟨.zero, none, req, err⟩, w)
  | .ok authenticated =>
    match p.admitRequest ports snap n authenticated req w with
    | (.error err, w) => (.error ⟨authenticated, none, req, err⟩, w)
    | (.ok (principal, req), w) =>
      match guard ports snap n principal req w with
      | (.error err, w) => (.error ⟨authenticated, some principal, req, err⟩, w)
      | (.ok body, w) =>
        let req := { req with body := body }
        match p.route ports snap n principal req with
        | .error err => (.error ⟨authenticated, some principal, req, err⟩, w)
        | .ok candidates => (.ok ⟨authenticated, principal, req, candidates⟩, w)

def noSidecar : GoError := .ofCode .unavailable (str "this worker has no NER sidecar")

/-- The error is why the sidecar did not run, or what it failed with. -/
def inspect (n : Nat) (req : Request) : List Pii.Match × Option GoError :=
  let deterministic := .ok (Pii.detect req.body)
  if req.deepInspection then
    if p.ner then
      let deep := (ports.ner n req.body).map (Pii.toMatches req.body)
      let (found, errs) := Pii.detectAll [deterministic, deep]
      (found, errs.head?)
    else
      ((Pii.detectAll [deterministic]).1, some noSidecar)
  else
    ((Pii.detectAll [deterministic]).1, none)

def keep (n : Nat) (principal : Principal) (req : Request) (strategy : Pii.Strategy)
    (result : Pii.Result) (w : World) : Except GoError (Str × Pii.Replacements) × World :=
  if result.count = 0 then
    (.ok (req.body, ∅), w)
  else if strategy = .tokenize ∧ p.vault then
    match Pii.vaultPut (ports.storeSet n) principal.tenant req.requestMeta.requestID
        result.replacements w.store with
    | (some err, store, stored) => (.error err, w.vaulted store stored)
    | (none, store, stored) =>
      (.ok (result.payload, result.replacements), w.vaulted store stored)
  else
    (.ok (result.payload, result.replacements), w)

def protect (n : Nat) (principal : Principal) (req : Request) (d : Deployment) (w : World)
    : Except GoError (Str × Pii.Replacements) × World :=
  let strategy := strategyFor principal.defaultClass d.trustTier
  if strategy = .none then
    (.ok (req.body, ∅), w)
  else
    let (found, deepErr) := p.inspect ports n req
    let result := Pii.transformMatches p.hmac p.pepper req.body found strategy
    match deepErr with
    | none => p.keep ports n principal req strategy result w
    | some err =>
      if strategy = .tokenize then
        (.error (.wrap .unavailable (str "deep inspection was required and is unavailable") false
          err), w)
      else
        p.keep ports n principal req strategy result w

def attempt (principal : Principal) (req : Request) (stream : Bool)
    : Router.Call (World × Pii.Replacements) (Reply stream) := fun _ d (w, out) =>
  let n := w.tick
  let w := w.advance
  match ports.resolve n d.credentialRef with
  | .error err => (.error err, w, out)
  | .ok credential =>
    match p.protect ports n principal req d w with
    | (.error err, w) => (.error err, w, out)
    | (.ok (body, replacements), w) =>
      let call := ⟨d, req.requestMeta, body, credential⟩
      (ports.answer n call stream, w.hand n call stream, replacements)

def adapt (prep : Prepared) (stream : Bool) (w : World)
    : Router.Execution (World × Pii.Replacements) (Reply stream) :=
  p.router.execute (ports.situation w.tick) prep.candidates prep.req.requestMeta.deadline
    (p.attempt ports prep.principal prep.req stream) w.breakers (w, ∅)

def adapted {stream : Bool} (e : Router.Execution (World × Pii.Replacements) (Reply stream))
    : World :=
  { e.state.1 with breakers := e.breakers }

def forget (principal : Principal) (req : Request) (replacements : Pii.Replacements) (w : World)
    : World :=
  if p.vault ∧ replacements.entries ≠ [] then
    { w.advance with
      store := Pii.vaultForget (ports.storeDelete w.tick) principal.tenant
        req.requestMeta.requestID replacements w.store }
  else
    w

def shadowRequest (principal : Principal) (req : Request) : Shadow.Request where
  requestMeta := req.requestMeta
  body := req.body
  tenant := principal.tenant
  principal := principal.keyID
  tier := snap.tier principal.tenant
  snapshotVersion := snap.globalVersion.number
  budgetIDs := budgetIDs principal.budgets

def mirror (served : Deployment) (req : Request) (principal : Principal) (w : World) : World :=
  if p.shadows then
    { w.advance with
      jobs := w.jobs ++ (Shadow.send (ports.mirrorDraw w.tick) (ports.mirrorRoom w.tick) snap served
          (shadowRequest snap principal req)).jobs }
  else
    w

def settle (prep : Prepared) (served : Deployment) (resp : ProviderResponse)
    (replacements : Pii.Replacements) (w : World) : Result × World :=
  let result : Result := {
    statusCode := resp.statusCode
    body := Pii.restore resp.body replacements
    principal := prep.authenticated
    deployment := served.id
    route := served.key
    usage := resp.usage
  }
  let w := p.forget ports prep.principal prep.req replacements w
  let w := w.limit (.recordTokens prep.principal resp.usage.total)
  let w := emit snap prep.req result (some served) false replacements.keys.length none w
  let w := p.mirror ports snap served prep.req prep.principal w
  (result, w.limit (.release prep.principal))

def abandon (prep : Prepared) (err : GoError) (w : World) : Result × World :=
  let first := prep.candidates.head?.map (·.deployment)
  let result := { Result.zero with
    principal := prep.authenticated
    deployment := (first.map (·.id)).getD []
    route := (first.map (·.key)).getD ⟨[], []⟩ }
  (result, (emit snap prep.req result first false 0 (some err) w).limit (.release prep.principal))

def refuse (refusal : Refusal) (stream : Bool) (w : World) : Result × World :=
  let result := { Result.zero with principal := refusal.principal }
  (result, emit snap refusal.req result none stream 0 (some refusal.err) w)

def handle (req : Request) (w : World) : (Result × Option GoError) × World :=
  match p.prepare ports snap req w with
  | (.error refusal, w) =>
    let (result, w) := refuse snap refusal false w
    ((result, some refusal.err), refusal.admitted.elim w (w.limit <| .release ·))
  | (.ok prep, w) =>
    let e := p.adapt ports prep false w
    match e.result with
    | .error err =>
      let (result, w) := abandon snap prep err (adapted e)
      ((result, some err), w)
    | .ok (served, resp) =>
      let (result, w) := p.settle ports snap prep served resp e.state.2 (adapted e)
      ((result, none), w)

structure StreamResult where
  chunks : Option Nat
  principal : Principal
  deployment : Str
  route : RoutingKey
  restorer : Option Pii.Replacements
  releaseLimit : Option Principal
  forget : Option (Principal × Request × Pii.Replacements)
  finish : Option (Principal × Request × Deployment × Nat)
  finished : Bool

def handleStream (req : Request) (w : World) : (StreamResult × Option GoError) × World :=
  match p.prepare ports snap req w with
  | (.error refusal, w) =>
    let (result, w) := refuse snap refusal true w
    ((⟨none, result.principal, [], ⟨[], []⟩, none, refusal.admitted, none, none, false⟩,
      some refusal.err), w)
  | (.ok prep, w) =>
    let e := p.adapt ports prep true w
    let w := adapted e
    match e.result with
    | .error err =>
      let result := { Result.zero with
        principal := prep.authenticated
        deployment := (e.attempts.getLast?.map (·.deployment)).getD [] }
      ((⟨none, result.principal, result.deployment, result.route, none, some prep.principal, none,
        none, false⟩, some err), emit snap prep.req result none true 0 (some err) w)
    | .ok (served, cursor) =>
      let replacements := e.state.2
      let forget :=
        if p.vault ∧ replacements.entries ≠ [] then
          some (prep.principal, prep.req, replacements)
        else
          none
      ((⟨some cursor, prep.authenticated, served.id, served.key, some replacements,
        some prep.principal, forget,
        some (prep.principal, prep.req, served, replacements.keys.length), false⟩, none), w)

def forgetStream (r : StreamResult) (w : World) : World :=
  match r.forget with
  | some (principal, req, replacements) => p.forget ports principal req replacements w
  | none => w

def finish (r : StreamResult) (usage : TokenUsage) (err : Option GoError) (w : World)
    : StreamResult × World :=
  if r.finished then
    (r, w)
  else
    let w := p.forgetStream ports r w
    let w := r.releaseLimit.elim w (w.limit <| .release ·)
    let w :=
      match r.finish with
      | some (principal, req, d, redactions) =>
        let result := { Result.zero with
          principal := r.principal, deployment := r.deployment, route := r.route, usage := usage }
        emit snap req result (some d) true redactions err
          (w.limit (.recordTokens principal usage.total))
      | none => w
    ({ r with finished := true }, w)

def shadowUsageEvent (d : Deployment) (req : Shadow.Request) (usage : TokenUsage)
    (err : Option GoError) : UsageEvent where
  requestID := req.requestMeta.requestID ++ str ":shadow:" ++ d.id
  tenant := req.tenant
  keyID := req.principal
  tier := req.tier
  deployment := d.id
  route := d.key
  provider := d.provider
  stream := false
  shadow := true
  usage := usage
  costMicroUSD := d.cost.forUsage usage
  priceMicroUSD := 0
  outcome := err.map (·.codeOf)
  snapshotVersion := req.snapshotVersion
  budgets := req.budgetIDs

def shadowPrincipal (req : Shadow.Request) : Principal :=
  { Principal.zero with tenant := req.tenant, keyID := req.principal }

def shadowCall (d : Deployment) (req : Shadow.Request) (w : World) : Option GoError × World :=
  let n := w.tick
  let w := w.advance
  match p.providers d.provider with
  | none =>
    (some (.ofCode .internal
      (str "no provider " ++ d.provider.quote ++ str " for shadow " ++ d.id)), w)
  | some _ =>
    match ports.resolve n d.credentialRef with
    | .error err => (some err, w)
    | .ok credential =>
      match p.protect ports n (shadowPrincipal req) ⟨req.requestMeta, [], req.body, false⟩ d w with
      | (.error err, w) => (some err, w)
      | (.ok (body, _), w) =>
        let call : ProviderCall := ⟨d, req.requestMeta, body, credential⟩
        let w := w.hand n call false
        let (usage, err) : TokenUsage × Option GoError :=
          match ports.invoke n call with
          | .ok response => (response.usage, none)
          | .error (err, response) => ((response.map (·.usage)).getD .zero, some err)
        (err, w.emit [.usage (shadowUsageEvent d req usage err)])

end Pipeline

namespace Sample

def principal (dataClass : DataClass) : Principal :=
  { Principal.zero with
    keyID := str "k1"
    tenant := str "acme"
    models := ⟨true, []⟩
    defaultClass := dataClass }

def deployment (id adapter : Str) (tier : TrustTier) (weight shadowPercent : Nat) : Deployment where
  id := id
  key := ⟨str "m", adapter⟩
  provider := str "p"
  endpoint := str "https://p"
  region := str "r"
  trustTier := tier
  credentialRef := str "ref"
  weight := weight
  shadowPercent := shadowPercent
  cost := ⟨0, 0, 0, 0⟩
  capabilities := []

def globalSpec (deployments : List Deployment) (policy : Str) : GlobalSpec where
  version := ⟨1, str "digest"⟩
  builtAt := 0
  deployments := deployments
  aliases := []
  tenantPrefixes := (∅ : GoMap Str Str).insert (str "ac") (str "acme")
  defaultPlugins := []
  policyBundleRef := []
  defaultGuardrails := []
  defaultPolicy := policy

def tenantSpec (dataClass : DataClass) (minTrustTier : TrustTier) : TenantSpec where
  tenant := str "acme"
  version := ⟨1, str "digest"⟩
  builtAt := 0
  tier := str "gold"
  principals := [principal dataClass]
  keys := (∅ : GoMap Str Str).insert (str "secret") (str "k1")
  aliasOverrides := []
  budgets := []
  plugins := []
  guardrails := []
  policy := []
  minTrustTier := minTrustTier

def global (deployments : List Deployment) (policy : Str) : GlobalLayer :=
  match newGlobalLayer (globalSpec deployments policy) with
  | .ok global => global
  | .error _ => .init (globalSpec [] [])

def layer (dataClass : DataClass) (minTrustTier : TrustTier) : TenantLayer :=
  match newTenantLayer (tenantSpec dataClass minTrustTier) with
  | .ok layer => layer
  | .error _ => .init (tenantSpec dataClass minTrustTier)

def snapshot (deployments : List Deployment) (policy : Str) (dataClass : DataClass)
    (minTrustTier : TrustTier) : Snapshot :=
  match compose (global deployments policy) [layer dataClass minTrustTier] with
  | .ok snap => snap
  | .error _ => ⟨global [] [], ∅⟩

theorem snapshot_composed {deployments : List Deployment} {policy : Str} {dataClass : DataClass}
    {minTrustTier : TrustTier}
    (hglobal : newGlobalLayer (globalSpec deployments policy) = .ok (global deployments policy))
    (hlayer : newTenantLayer (tenantSpec dataClass minTrustTier) = .ok (layer dataClass minTrustTier))
    (hcompose : compose (global deployments policy) [layer dataClass minTrustTier]
      = .ok (snapshot deployments policy dataClass minTrustTier))
    : (snapshot deployments policy dataClass minTrustTier).Composed := by
  refine ⟨_, _, _, hglobal, ?_, hcompose⟩
  intro t ht
  rw [List.mem_singleton] at ht
  subst ht
  exact ⟨_, hlayer⟩

def outside : List Deployment := [deployment (str "d1") [] .external 100 0]

def shadowed : List Deployment :=
  [deployment (str "d1") [] .internal 100 0, deployment (str "a1") (str "ft") .external 0 100]

def codec : Policy.Codec where
  unmarshal := fun _ => .ok ⟨[], 1, [⟨str "deep", 1, [], [], [], [], [], 0, [], 0, true, []⟩], 1⟩
  parsePrefix := fun _ => .error []

def pipeline : Pipeline where
  providers := fun name => if name = str "p" then some ⟨name, [.chatCompletions]⟩ else none
  router := .new
  vault := true
  ner := false
  shadows := true
  region := str "r"
  pepper := str "pepper"
  hmac := fun _ secret => secret
  codec := codec

def response : ProviderResponse := ⟨200, str "fine", ⟨1, 0, 0, 1⟩⟩

def situation : Router.Situation where
  now := 0
  ctxDeadline := none
  breakerNow := 0
  waited := true
  providers := pipeline.providers
  before := id
  during := id
  failedNow := 0

def calm : Ports where
  now := fun _ => 0
  limiterAdmit := fun _ _ => ⟨true, .rateLimited, 0⟩
  guardrails := fun _ _ input => .ok ⟨input.payload, false, []⟩
  health := fun _ _ => 1
  draw := fun _ => 0
  situation := fun _ _ => situation
  resolve := fun _ ref => .ok ⟨ref, str "secret"⟩
  ner := fun _ _ => .ok []
  storeSet := fun _ _ => none
  storeDelete := fun _ _ => false
  invoke := fun _ _ => .ok response
  stream := fun _ _ => .ok 0
  mirrorDraw := fun _ _ => 0
  mirrorRoom := fun _ _ => true

def echo : Ports :=
  { calm with invoke := fun _ call => .ok ⟨200, call.body, ⟨1, 0, 0, 1⟩⟩ }

def down : Ports :=
  { calm with invoke := fun _ _ => .error (.ofCode .upstreamError [], none) }

def request (body : Str) : Request where
  requestMeta := ⟨str "r1", str "m", .chatCompletions, false, 8, none, [], 0⟩
  apiKey := str "gw_ac_secret"
  body := body
  deepInspection := false

end Sample

end ModelGateway.Gateway
