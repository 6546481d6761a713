import ModelGateway.Core.Snapshot

namespace ModelGateway.Router

open List

structure Provider where
  name : Str
  endpoints : List Endpoint
  deriving DecidableEq, Repr

inductive Objective where
  | balanced
  | latency
  | cost
  deriving DecidableEq, Repr

structure Candidate where
  deployment : Deployment
  score : ℚ
  health : ℚ
  deriving DecidableEq

structure SelectionInput where
  tenant : Str
  model : Str
  endpoint : Endpoint
  minTrustTier : TrustTier
  required : List Str
  objective : Objective
  region : Str
  referenceTokens : Int

def eligible (providers : Str → Option Provider) (input : SelectionInput) (d : Deployment) : Bool :=
  d.serving
    && d.trustTier.atLeast input.minTrustTier
    && d.supports input.required
    && match providers d.provider with
      | some provider => provider.endpoints.contains input.endpoint
      | none => false

def referenceUsage (tokens : Int) : TokenUsage :=
  let tokens := if tokens ≤ 0 then 1000 else tokens
  ⟨tokens, 0, 0, tokens.tdiv 4⟩

def priceRange (candidates : List Candidate) (tokens : Int) : Int × Int :=
  match candidates.map (·.deployment.cost.forUsage (referenceUsage tokens)) with
  | [] => (0, 0)
  | price :: prices => (prices.foldl min price, prices.foldl max price)

def Objective.weights : Objective → ℚ × ℚ
  | .cost => (30 / 100, 5 / 100)
  | .latency => (0, 20 / 100)
  | .balanced => (15 / 100, 10 / 100)

def applyObjective (candidates : List Candidate) (input : SelectionInput) : List Candidate :=
  let (cheapest, dearest) := priceRange candidates input.referenceTokens
  candidates.map fun c =>
    let price := c.deployment.cost.forUsage (referenceUsage input.referenceTokens)
    let priceScore : ℚ :=
      if cheapest < dearest then 1 - ((price : ℚ) - cheapest) / (dearest - cheapest : Int) else 1
    let localityScore : ℚ :=
      if input.region = [] ∨ c.deployment.region = input.region then 1 else 0
    let (costWeight, localityWeight) := input.objective.weights
    { c with score := c.health * (1 + costWeight * priceScore + localityWeight * localityScore) }

def drawWeight (c : Candidate) : ℚ :=
  c.deployment.weight * c.health

def weightsDiffer : List Candidate → Bool
  | [] => false
  | first :: rest => rest.any (·.deployment.weight ≠ first.deployment.weight)

def promote (candidates : List Candidate) (draw : ℚ) : List Candidate :=
  if candidates.length < 2 || !weightsDiffer candidates then
    candidates
  else
    let total := (candidates.map drawWeight).sum
    if total ≤ 0 then
      candidates
    else
      go candidates (draw * total) [] 0
where
  go : List Candidate → ℚ → List Candidate → ℚ → List Candidate
    | [], _, passed, _ => passed
    | c :: cs, target, passed, running =>
      let running := running + drawWeight c
      if target < running then
        c :: passed ++ cs
      else
        go cs target (passed ++ [c]) running

def tierName (t : TrustTier) : Str :=
  if t = .external then str "external"
  else if t = .privateCloud then str "private_cloud"
  else if t = .internal then str "internal"
  else if t = .unset then str "unset"
  else str "unknown"

def selectionError (model : Str) (tier : TrustTier) (sawAny sawServing sawTier : Bool) : GoError :=
  if !sawAny then
    .ofCode .modelNotFound (str "no model named " ++ model.quote)
  else if !sawServing then
    .ofCode .noCandidates (str "no deployment of " ++ model.quote ++ str " is serving traffic")
  else if !sawTier then
    .ofCode .trustTierDenied
      (str "no deployment of " ++ model.quote ++ str " meets the required trust tier "
        ++ tierName tier)
  else
    .ofCode .endpointUnsupported
      (model.quote ++ str " is not served on this endpoint with the required capabilities")

def select (providers : Str → Option Provider) (health : Str → ℚ) (draw : ℚ) (snap : Snapshot)
    (input : SelectionInput) : Except GoError (List Candidate) :=
  let seen := (snap.resolveAlias input.tenant input.model).flatMap snap.deployments
  let candidates :=
    (seen.filter (eligible providers input)).map fun d => ⟨d, health d.id, health d.id⟩
  if candidates = [] then
    let serving := seen.filter (·.serving)
    .error <| selectionError input.model input.minTrustTier (!seen.isEmpty) (!serving.isEmpty)
      (serving.any (·.trustTier.atLeast input.minTrustTier))
  else
    let ordered := (applyObjective candidates input).insertionSort (fun a b => b.score ≤ a.score)
    .ok (promote ordered draw)

section

variable {candidates : List Candidate}

theorem promote.go_perm {passed : List Candidate} {target running : ℚ}
    : (promote.go candidates target passed running).Perm (passed ++ candidates) := by
  induction candidates generalizing passed running with
  | nil => simp [go]
  | cons c cs ih =>
    unfold go
    dsimp only
    split
    . apply perm_middle.symm
    . refine ih.trans ?_
      simp

theorem promote_perm (candidates : List Candidate) (draw : ℚ)
    : (promote candidates draw).Perm candidates := by
  unfold promote
  split
  . exact .refl _
  . dsimp only
    split
    . exact .refl _
    . apply promote.go_perm

theorem applyObjective_map_deployment (candidates : List Candidate) (input : SelectionInput)
    : (applyObjective candidates input).map (·.deployment) = candidates.map (·.deployment) := by
  simp [applyObjective, Function.comp_def]

theorem ordered_perm (candidates : List Candidate) (input : SelectionInput) (draw : ℚ)
    : ((promote ((applyObjective candidates input).insertionSort (fun a b => b.score ≤ a.score))
        draw).map (·.deployment)).Perm (candidates.map (·.deployment)) := by
  rw [← applyObjective_map_deployment candidates input]
  apply List.Perm.map
  apply (promote_perm _ draw).trans
  apply perm_insertionSort

variable {providers : Str → Option Provider} {input : SelectionInput}

theorem select_eq_ok {health : Str → ℚ} {draw : ℚ} {snap : Snapshot}
    (h : select providers health draw snap input = .ok candidates)
    : candidates ≠ [] ∧ (candidates.map (·.deployment)).Perm
        (((snap.resolveAlias input.tenant input.model).flatMap snap.deployments).filter
          (eligible providers input)) := by
  unfold select at h
  dsimp only at h
  split at h
  . contradiction
  . next hne =>
    rw [Except.ok.injEq] at h
    have hperm := ordered_perm
      ((((snap.resolveAlias input.tenant input.model).flatMap snap.deployments).filter
        (eligible providers input)).map fun d => ⟨d, health d.id, health d.id⟩) input draw
    rw [h] at hperm
    constructor
    . intro hnil
      rw [hnil] at hperm
      apply hne
      simpa using hperm.symm.eq_nil
    . simpa [Function.comp_def] using hperm

theorem select_trustTier {health : Str → ℚ} {draw : ℚ} {snap : Snapshot}
    (h : select providers health draw snap input = .ok candidates)
    : ∀ c ∈ candidates, input.minTrustTier ≤ c.deployment.trustTier := by
  intro c hc
  have hmem := (select_eq_ok h).2.subset (mem_map_of_mem hc)
  simp only [mem_filter, eligible, Bool.and_eq_true, TrustTier.atLeast_iff] at hmem
  exact hmem.2.1.1.2

end

end ModelGateway.Router
