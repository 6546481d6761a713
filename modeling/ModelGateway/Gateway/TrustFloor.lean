import ModelGateway.Gateway.PipelineLemmas
import ModelGateway.Gateway.Pipeline

namespace ModelGateway.Gateway.Pipeline

open List

variable (p : Pipeline) (ports : Ports) (snap : Snapshot)

def stampedTier (principal : Principal) (req : Request) (policies : Policy.Cache) : TrustTier :=
  if snap.policy principal.tenant = [] then
    .unset
  else
    match (policies.forTenant p.codec principal.tenant snap.globalVersion.digest
        (snap.policy principal.tenant)).1 with
    | .ok bundle => (Policy.evaluate bundle (p.policyInput principal req)).minTrustTier
    | .error _ => .unset

def requiredTier (principal : Principal) (req : Request) (policies : Policy.Cache) : TrustTier :=
  max (snap.minTrustTier principal.tenant)
    (max principal.minTrustTier (p.stampedTier snap principal req policies))

variable {req : Request}

theorem applyPolicy_eq_ok {principal principal' : Principal} {req' : Request} {policies : Policy.Cache}
    (h : (p.applyPolicy snap principal req policies).1 = .ok (principal', req'))
    : principal'.tenant = principal.tenant ∧ principal'.minTrustTier
        =
      max principal.minTrustTier (p.stampedTier snap principal req policies) := by
  unfold stampedTier
  rcases (p.applyPolicy_eq_ok_iff snap).mp h with
    ⟨hraw, hout⟩ | ⟨hraw, _, hbundle, _, hout⟩
  . rw [if_pos hraw]
    rw [Prod.mk.injEq] at hout
    rw [← hout.1]
    exact ⟨rfl, (Nat.max_zero _).symm⟩
  . rw [if_neg hraw, hbundle]
    simp only [stamp, Prod.mk.injEq] at hout
    rw [← hout.1]
    exact ⟨rfl, (max_def_lt _ _).symm⟩

variable {w w' : World} {prep : Prepared}

theorem floor_eq_requiredTier (h : p.prepare ports snap req w = (.ok prep, w'))
    : floor snap prep.principal = p.requiredTier snap prep.authenticated req w.policies := by
  rcases p.prepare_eq_ok ports snap h with ⟨_, _, _, _, hpolicy, _⟩
  rcases p.applyPolicy_eq_ok snap hpolicy with ⟨htenant, htier⟩
  unfold floor requiredTier
  rw [htenant, htier]
  apply (max_def_lt _ _).symm

def MeetsFloor (req : Request) (w : World) (before after : List Sent) : Prop :=
  ∃ new, after = before ++ new ∧ ∀ s ∈ new, ∃ prep w', p.prepare ports snap req w = (.ok prep, w') ∧
      p.requiredTier snap prep.authenticated req w.policies ≤ s.call.deployment.trustTier

theorem Handed.meetsFloor {s : Sent} (hprep : p.prepare ports snap req w = (.ok prep, w'))
    (h : p.Handed ports prep s)
    : p.requiredTier snap prep.authenticated req w.policies ≤ s.call.deployment.trustTier := by
  rw [← p.floor_eq_requiredTier ports snap hprep]
  rcases mem_map.mp h.candidate with ⟨c, hc, hd⟩
  rw [← hd]
  apply p.prepare_candidates ports snap hprep c hc

theorem handle_meetsFloor (req : Request) (w : World)
    : p.MeetsFloor ports snap req w w.sent (p.handle ports snap req w).2.sent := by
  rcases p.handle_sent ports snap req w with ⟨new, hnew, hhanded⟩
  refine ⟨new, hnew, ?_⟩
  intro s hs
  rcases hhanded s hs with ⟨prep, w', hprep, h⟩
  exact ⟨prep, w', hprep, h.meetsFloor p ports snap hprep⟩

theorem handleStream_meetsFloor (req : Request) (w : World)
    : p.MeetsFloor ports snap req w w.sent (p.handleStream ports snap req w).2.sent := by
  rcases p.handleStream_sent ports snap req w with ⟨new, hnew, hhanded⟩
  refine ⟨new, hnew, ?_⟩
  intro s hs
  rcases hhanded s hs with ⟨prep, w', hprep, h⟩
  exact ⟨prep, w', hprep, h.meetsFloor p ports snap hprep⟩

theorem shadowCall_meetsFloor (hprep : p.prepare ports snap req w = (.ok prep, w')) {d : Deployment}
    (htier : (p.providers d.provider).isSome →
      p.requiredTier snap prep.authenticated req w.policies ≤ d.trustTier) (worker : Ports)
    (copy : Shadow.Request) (v : World)
    : p.MeetsFloor ports snap req w v.sent (p.shadowCall worker d copy v).2.sent := by
  rcases p.shadowCall_sent worker d copy v with ⟨calls, hsent, hcalls, _⟩
  refine ⟨calls, hsent, ?_⟩
  intro s hs
  refine ⟨prep, w', hprep, ?_⟩
  rcases hcalls with hnil | ⟨_, hprovider, _, hone⟩
  . rw [hnil] at hs
    simp at hs
  . rw [hone, mem_singleton] at hs
    subst hs
    exact htier hprovider

def resolving : Ports :=
  { ports with resolve := fun _ ref => .ok ⟨ref, []⟩ }

theorem of_shadowCall_meetsFloor (hprep : p.prepare ports snap req w = (.ok prep, w')) {d : Deployment}
    (hprovider : (p.providers d.provider).isSome) {copy : Shadow.Request} {v : World}
    (h : p.MeetsFloor ports snap req w v.sent (p.shadowCall (resolving ports) d copy v).2.sent)
    : p.requiredTier snap prep.authenticated req w.policies ≤ d.trustTier := by
  rcases h with ⟨new, hnew, hfloor⟩
  rcases p.shadowCall_sent (resolving ports) d copy v with ⟨calls, hsent, hcalls, hsome⟩
  have heq : new = calls := append_cancel_left (hnew.symm.trans hsent)
  rcases hcalls with hnil | ⟨_, _, _, hone⟩
  . exact absurd hnil (hsome hprovider ⟨_, rfl⟩)
  . rcases hfloor _ (by rw [heq, hone]; exact mem_singleton_self _) with
      ⟨_, _, hprep', htier⟩
    rw [hprep, Prod.mk.injEq, Except.ok.injEq] at hprep'
    rw [hprep'.1]
    exact htier

def mirroring (draw : Nat → Nat → ℚ) (room : Nat → Nat → Bool) : Ports :=
  { ports with mirrorDraw := draw, mirrorRoom := room }

theorem calls_meet_floor_iff (req : Request) (w : World)
    : (∀ draw room, (∀ n j, 0 ≤ draw n j ∧ draw n j < 1) → p.MeetsFloor ports snap req w w.sent
          (p.handle (mirroring ports draw room) snap req w).2.sent ∧
        p.MeetsFloor ports snap req w w.sent
          (p.handleStream (mirroring ports draw room) snap req w).2.sent ∧
        ∃ new, (p.handle (mirroring ports draw room) snap req w).2.jobs = w.jobs ++ new ∧
          ∀ job ∈ new, ∀ worker v, p.MeetsFloor ports snap req w v.sent
              (p.shadowCall worker job.deployment job.request v).2.sent)
        ↔
      (∀ prep w' served resp, p.prepare ports snap req w = (.ok prep, w') →
        (p.adapt ports prep false w').result = .ok (served, resp) →
        p.shadows = true → served.key.isAdapter = false →
        ∀ adapter ∈ snap.shadows served.key.baseModel, 0 < adapter.shadowPercent →
          (p.providers adapter.provider).isSome →
            p.requiredTier snap prep.authenticated req w.policies ≤ adapter.trustTier) := by
  constructor
  . intro h prep w' served resp hprep hserved hshadows hbase adapter hadapter hpercent hprovider
    rcases h (fun _ _ => 0) (fun _ _ => true) (fun _ _ => by norm_num) with
      ⟨_, _, new, hnew, hfloor⟩
    rcases p.handle_jobs_of_served (mirroring ports (fun _ _ => 0) (fun _ _ => true)) snap hprep
      hserved hshadows with ⟨n, hjobs⟩
    have heq := append_cancel_left (hnew.symm.trans hjobs)
    have hmem := Shadow.send_jobs_of_zero (shadowRequest snap prep.principal prep.req) hbase hadapter
      hpercent
    rw [heq] at hfloor
    exact p.of_shadowCall_meetsFloor ports snap hprep hprovider (v := w)
      (hfloor _ hmem (resolving ports) w)
  . intro h draw room hdraw
    refine ⟨p.handle_meetsFloor (mirroring ports draw room) snap req w,
      p.handleStream_meetsFloor (mirroring ports draw room) snap req w, ?_⟩
    rcases p.handle_jobs (mirroring ports draw room) snap req w with ⟨new, hnew, hjobs⟩
    refine ⟨new, hnew, ?_⟩
    intro job hjob worker v
    rcases hjobs job hjob with
      ⟨prep, w', served, resp, hprep, hserved, hshadows, hbase, hadapter, ⟨n, j, hsampled⟩, _⟩
    apply p.shadowCall_meetsFloor ports snap hprep
    exact h prep w' served resp hprep hserved hshadows hbase job.deployment hadapter
      (Shadow.shadowPercent_pos_of_sampled (hdraw n j).1 hsampled)

open Sample in
theorem mirrored_below_floor
    : (snapshot shadowed [] .restricted .internal).Composed ∧
      (snapshot shadowed [] .restricted .internal).minTrustTier
          (str "acme") = .internal ∧
      (pipeline.handle calm (snapshot shadowed [] .restricted .internal)
        (request (str "a@b.co")) .zero).2.jobs.map (fun job =>
          (pipeline.shadowCall calm job.deployment job.request .zero).2.sent.map fun s =>
            (s.call.deployment.trustTier, s.call.body)) = [[(.external, str "a@b.co")]] := by
  refine ⟨snapshot_composed rfl rfl rfl, ?_, ?_⟩
  . decide +kernel
  . decide +kernel

end ModelGateway.Gateway.Pipeline
