import ModelGateway.Gateway.Pipeline
import ModelGateway.Lib.Fold
import ModelGateway.Snapshot.HolderLemmas

namespace ModelGateway

open Function

theorem Snapshot.mem_tenantIDs {s : Snapshot} {tenant : Str} {v : LayerVersion}
    (h : s.tenantVersion tenant = some v)
    : tenant ∈ s.tenantIDs := by
  rcases Option.map_eq_some_iff.mp h with ⟨_, hlayer, _⟩
  apply AList.mem_keys.mp
  rw [← AList.lookup_isSome, hlayer]
  rfl

/-- No layer is older. A tenant that only one of them has is not compared. -/
structure NotOlder (s s' : Snapshot) : Prop where
  global : s.globalVersion.number ≤ s'.globalVersion.number
  tenant : ∀ tenant v v', s.tenantVersion tenant = some v → s'.tenantVersion tenant = some v' →
    v.number ≤ v'.number

theorem NotOlder.of_checkMonotonic {s s' : Snapshot} (h : checkMonotonic s s' = .ok ())
    : NotOlder s s' := by
  unfold checkMonotonic at h
  split at h
  . simp at h
  . next hglobal =>
    refine ⟨by omega, ?_⟩
    intro tenant v v' hv hv'
    have htenant := (List.forM_eq_ok_iff _ _).mp h tenant (Snapshot.mem_tenantIDs hv')
    rw [hv, hv', Option.getD_some] at htenant
    dsimp only at htenant
    split at htenant
    . simp at htenant
    . omega

namespace Holder

def stepForward (h : Holder) (e : Event) : Option Holder :=
  if e.isRollback then none else h.step e

/-- The generations have been served in their order, each checked against the one before it. -/
structure History (h : Holder) : Prop where
  current : h.current + 1 = h.count
  checked : ∀ g, g + 1 < h.count → NotOlder (h.snap g) (h.snap (g + 1))
  next : ∀ next, Writer.next h.writer = some next → NotOlder (h.snap h.current) next
  forward : Writer.rollsBack h.writer = false

theorem new_history (initial : Snapshot) : (new initial).History where
  current := rfl
  checked := by
    intro g hg
    simp only [new] at hg
    omega
  next := by simp [new, Writer.next]
  forward := rfl

variable {h : Holder}

theorem History.publish (hh : h.History) {next : Snapshot} (hnext : NotOlder (h.snap h.current) next)
    (displaced : Option Nat)
    : { h.publish next with writer := Writer.after displaced }.History where
  current := rfl
  checked := by
    intro g hg
    have hcurrent := hh.current
    simp only [Holder.publish] at hg ⊢
    by_cases hlast : g + 1 = h.count
    . rw [hlast, update_self, update_of_ne (by omega), show g = h.current by omega]
      exact hnext
    . rw [update_of_ne (by omega), update_of_ne (by omega)]
      apply hh.checked g (by omega)
  next := by
    cases displaced <;> simp [Writer.after, Writer.next]
  forward := by
    cases displaced <;> rfl

theorem History.step {h' : Holder} (hh : h.History) {e : Event} (he : h.stepForward e = some h')
    : h'.History := by
  unfold stepForward at he
  split at he
  . simp at he
  . next hforward =>
    rcases step_serving he with hkeeps | ⟨next, _, _, hcheck, hh'⟩ | ⟨_, next, _, hwriter, hh'⟩
    . have hcurrent := hkeeps.current hh.forward
      constructor
      . rw [hcurrent, hkeeps.count]
        exact hh.current
      . rw [hkeeps.count, hkeeps.snap]
        exact hh.checked
      . rw [hkeeps.next, hkeeps.snap, hcurrent]
        exact hh.next
      . apply hkeeps.rollsBack (by simpa using hforward) hh.forward
    . subst hh'
      refine ⟨hh.current, hh.checked, ?_, rfl⟩
      intro next' hnext'
      rw [← Option.some.inj hnext']
      apply NotOlder.of_checkMonotonic hcheck
    . subst hh'
      apply hh.publish
      apply hh.next
      rw [hwriter]
      rfl

theorem History.global_le (hh : h.History) {g g' : Nat} (hle : g ≤ g') (hg' : g' < h.count)
    : (h.snap g).globalVersion.number ≤ (h.snap g').globalVersion.number := by
  induction g', hle using Nat.le_induction with
  | base => apply Nat.le_refl
  | succ g' _ ih =>
    have hchecked := (hh.checked g' hg').global
    omega

def TenantsMonotone (h : Holder) : Prop :=
  ∀ tenant g g' v v', g ≤ g' → g' < h.count →
    (h.snap g).tenantVersion tenant = some v → (h.snap g').tenantVersion tenant = some v' →
    v.number ≤ v'.number

def ReturnsMonotone (h : Holder) : Prop :=
  ∀ tenant g g' v v', g < g' → g' + 1 < h.count → (h.snap g').tenantVersion tenant = none →
    (h.snap g).tenantVersion tenant = some v → (h.snap (g' + 1)).tenantVersion tenant = some v' →
    v.number ≤ v'.number

theorem History.tenantsMonotone_iff (hh : h.History) : h.TenantsMonotone ↔ h.ReturnsMonotone := by
  constructor
  . intro hmono tenant g g' v v' hlt hg' _ hv hv'
    apply hmono tenant g (g' + 1) v v' (by omega) hg' hv hv'
  . intro hreturns tenant g g' v v' hle
    induction g', hle using Nat.le_induction generalizing v' with
    | base =>
      intro _ hv hv'
      rw [hv, Option.some.injEq] at hv'
      rw [hv']
    | succ g' hle ih =>
      intro hg' hv hv'
      cases hbetween : (h.snap g').tenantVersion tenant with
      | none =>
        have hne : g ≠ g' := by
          rintro rfl
          rw [hv] at hbetween
          simp at hbetween
        apply hreturns tenant g g' v v' (by omega) hg' hbetween hv hv'
      | some v'' =>
        have hearlier := ih v'' (by omega) hv hbetween
        have hchecked := (hh.checked g' hg').tenant tenant v'' v' hbetween hv'
        omega

/-- Without a rollback versions never decrease, but for tenants that are dropped and come back. -/
theorem served_versions (initial : Snapshot) {h : Holder}
    (hreach : TransitionSystem.Reaches stepForward (new initial) h)
    : h.current + 1 = h.count ∧ (∀ g g', g ≤ g' → g' < h.count →
        (h.snap g).globalVersion.number ≤ (h.snap g').globalVersion.number) ∧
      (h.TenantsMonotone ↔ h.ReturnsMonotone) := by
  have hh : h.History :=
    hreach.invariant History (fun _ _ _ hh he => hh.step he) (new_history initial)
  exact ⟨hh.current, fun g g' hle hg' => hh.global_le hle hg', hh.tenantsMonotone_iff⟩

section

open Gateway.Sample

def layerAt (version : Nat) : TenantLayer :=
  match newTenantLayer { tenantSpec .unset .unset with version := ⟨version, str "digest"⟩ } with
  | .ok layer => layer
  | .error _ => .init (tenantSpec .unset .unset)

def withLayers (layers : List TenantLayer) : Snapshot :=
  match compose (global outside []) layers with
  | .ok snap => snap
  | .error _ => ⟨global [] [], ∅⟩

def dropAndReturn (version : Nat) : List Event :=
  [.swap (some (withLayers [])), .swapPrevious, .swapStore,
    .swap (some (withLayers [layerAt version])), .swapPrevious, .swapStore, .writerUnref]

theorem withLayers_composed {layers : List TenantLayer} (hlayers : ∀ layer ∈ layers,
      ∃ version, newTenantLayer { tenantSpec .unset .unset with version := ⟨version, str "digest"⟩ }
        = .ok layer)
    (hcompose : compose (global outside []) layers = .ok (withLayers layers))
    : (withLayers layers).Composed := by
  refine ⟨globalSpec outside [], _, layers, rfl, ?_, hcompose⟩
  intro layer hlayer
  rcases hlayers layer hlayer with ⟨version, h⟩
  exact ⟨_, h⟩

theorem tenant_returns_older
    : (withLayers [layerAt 2]).Composed ∧ (withLayers []).Composed ∧
      (withLayers [layerAt 1]).Composed ∧
      ∃ h, TransitionSystem.Reaches stepForward (new (withLayers [layerAt 2])) h ∧
        (h.snap 0).tenantVersion (str "acme") = some ⟨2, str "digest"⟩ ∧
        h.current = 2 ∧ (h.snap 2).tenantVersion (str "acme") = some ⟨1, str "digest"⟩ := by
  refine ⟨withLayers_composed ?_ rfl, withLayers_composed (by simp) rfl, withLayers_composed ?_ rfl,
    _, .of_foldlM (dropAndReturn 1) rfl, ?_, rfl, ?_⟩
  . intro layer hlayer
    rw [List.mem_singleton] at hlayer
    exact ⟨2, hlayer ▸ rfl⟩
  . intro layer hlayer
    rw [List.mem_singleton] at hlayer
    exact ⟨1, hlayer ▸ rfl⟩
  . decide +kernel
  . decide +kernel

theorem served_versions_return
    : ∃ h, (dropAndReturn 2).foldlM stepForward (new (withLayers [layerAt 2])) = some h ∧
        h.current = 2 ∧
        (h.snap 0).globalVersion.number ≤ (h.snap 2).globalVersion.number ∧
        (h.TenantsMonotone ↔ h.ReturnsMonotone) := by
  refine ⟨_, rfl, rfl, ?_⟩
  have hserved := served_versions (withLayers [layerAt 2]) (.of_foldlM (dropAndReturn 2) rfl)
  exact ⟨hserved.2.1 0 2 (by decide) (by decide), hserved.2.2⟩

end

end Holder

end ModelGateway
