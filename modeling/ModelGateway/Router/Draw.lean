import ModelGateway.Lib.Lottery
import ModelGateway.Router.Select

namespace ModelGateway.Router

open List hiding not_le

open Lottery

section

variable {candidates : List Candidate} {health : ℚ}

def Candidate.weight (c : Candidate) : Nat := c.deployment.weight

theorem drawWeight_sum (hhealth : ∀ c ∈ candidates, c.health = health)
    : (candidates.map drawWeight).sum = total Candidate.weight candidates * health := by
  induction candidates with
  | nil => simp [total]
  | cons c cs ih =>
    rw [forall_mem_cons] at hhealth
    rw [map_cons, sum_cons, ih hhealth.2, total_cons]
    unfold drawWeight Candidate.weight
    rw [hhealth.1]
    push_cast
    ring

theorem promote.go_head? (hpos : 0 < health) (hhealth : ∀ c ∈ candidates, c.health = health) {x : ℚ}
    (hx : 0 ≤ x) {running : Nat} (hrunning : running ≤ ⌊x⌋₊) {c : Candidate}
    (hpick : pick Candidate.weight candidates (⌊x⌋₊ - running) = some c) (passed : List Candidate)
    : (promote.go candidates (x * health) passed (running * health)).head? = some c := by
  induction candidates generalizing running passed with
  | nil => simp [pick] at hpick
  | cons c' cs ih =>
    rw [forall_mem_cons] at hhealth
    have hnext : (running : ℚ) * health + drawWeight c'
        = ((running + c'.weight : Nat) : ℚ) * health := by
      unfold drawWeight Candidate.weight
      rw [hhealth.1]
      push_cast
      ring
    have hstop : x * health < ((running + c'.weight : Nat) : ℚ) * health ↔
        ⌊x⌋₊ < running + c'.weight := by
      rw [mul_lt_mul_iff_left₀ hpos, ← Nat.floor_lt hx]
    unfold pick at hpick
    unfold go
    rw [hnext]
    split at hpick
    . next hticket =>
      rw [if_pos (hstop.mpr (by omega)), cons_append, head?_cons]
      exact hpick
    . next hticket =>
      rw [if_neg (fun h => hticket (by have := hstop.mp h; omega))]
      apply ih hhealth.2 (by omega)
      rw [← Nat.sub_sub]
      exact hpick

theorem weightsDiffer_iff {d : Deployment} (hd : d ∈ candidates.map (·.deployment))
    : weightsDiffer candidates = true ↔ ∃ c ∈ candidates, c.weight ≠ d.weight := by
  cases candidates with
  | nil => simp at hd
  | cons first rest =>
    unfold weightsDiffer
    rw [any_eq_true]
    constructor
    . rintro ⟨c, hc, hne⟩
      rw [decide_eq_true_eq] at hne
      by_cases hfirst : first.weight = d.weight
      . exact ⟨c, mem_cons_of_mem _ hc, hfirst ▸ hne⟩
      . exact ⟨first, mem_cons_self, hfirst⟩
    . rintro ⟨c, hc, hne⟩
      by_contra hnone
      have hall : ∀ c ∈ first :: rest, c.weight = first.weight := by
        intro c hc
        rcases mem_cons.mp hc with rfl | hc
        . rfl
        . by_contra hdiffer
          exact hnone ⟨c, hc, decide_eq_true hdiffer⟩
      rcases mem_map.mp hd with ⟨c', hc', rfl⟩
      exact hne ((hall c hc).trans (hall c' hc').symm)

theorem total_pos_of_weightsDiffer (h : weightsDiffer candidates = true)
    : 0 < total Candidate.weight candidates := by
  cases candidates with
  | nil => simp [weightsDiffer] at h
  | cons first rest =>
    rcases (weightsDiffer_iff (d := first.deployment) (by simp)).mp h with ⟨c, hc, hne⟩
    have hfirst := le_total_of_mem Candidate.weight (mem_cons_self (a := first) (l := rest))
    have hother := le_total_of_mem Candidate.weight hc
    have hne : c.weight ≠ first.weight := hne
    omega

theorem promote_head? (hpos : 0 < health) (hhealth : ∀ c ∈ candidates, c.health = health)
    (hdiffer : weightsDiffer candidates = true) {draw : ℚ} (hnonneg : 0 ≤ draw) (hlt : draw < 1)
    : (promote candidates draw).head?
        =
      pick Candidate.weight candidates ⌊draw * total Candidate.weight candidates⌋₊ := by
  have htotal := total_pos_of_weightsDiffer hdiffer
  have hlength : ¬ (candidates.length < 2 || !weightsDiffer candidates) = true := by
    rw [hdiffer]
    cases candidates with
    | nil => simp [weightsDiffer] at hdiffer
    | cons first rest =>
      cases rest with
      | nil => simp [weightsDiffer] at hdiffer
      | cons second rest => simp
  have hsum : ¬ (candidates.map drawWeight).sum ≤ 0 := by
    rw [drawWeight_sum hhealth, not_le]
    positivity
  rcases pick_isSome_of_lt Candidate.weight (floor_lt_of_draw hlt htotal) with ⟨c, hc⟩
  have hgo := promote.go_head? hpos hhealth (x := draw * total Candidate.weight candidates)
    (by positivity) (Nat.zero_le _) (by rw [Nat.sub_zero]; exact hc) []
  unfold promote
  rw [if_neg hlength]
  rw [if_neg hsum, drawWeight_sum hhealth, ← mul_assoc, hc, ← hgo, Nat.cast_zero, zero_mul]

theorem promote_of_not_weightsDiffer (h : weightsDiffer candidates = false) (draw : ℚ)
    : promote candidates draw = candidates := by
  unfold promote
  rw [if_pos (by simp [h])]

end

section

variable (providers : Str → Option Provider) (health : Str → ℚ) (snap : Snapshot)
  (input : SelectionInput)

def routable : List Deployment :=
  ((snap.resolveAlias input.tenant input.model).flatMap snap.deployments).filter
    (eligible providers input)

def ordered : List Candidate :=
  (applyObjective ((routable providers snap input).map fun d => ⟨d, health d.id, health d.id⟩)
    input).insertionSort (fun a b => b.score ≤ a.score)

theorem select_eq_promote (h : routable providers snap input ≠ []) (draw : ℚ)
    : select providers health draw snap input = .ok (promote (ordered providers health snap input) draw)
    := by
  unfold select
  rw [if_neg]
  . rfl
  . rw [map_eq_nil_iff]
    exact h

theorem ordered_deployments
    : ((ordered providers health snap input).map (·.deployment)).Perm (routable providers snap input)
    := by
  have hmap := applyObjective_map_deployment
    ((routable providers snap input).map fun d => ⟨d, health d.id, health d.id⟩) input
  have hperm := (perm_insertionSort (fun a b : Candidate => b.score ≤ a.score)
    (applyObjective ((routable providers snap input).map fun d => ⟨d, health d.id, health d.id⟩)
      input)).map (·.deployment)
  rw [hmap] at hperm
  unfold ordered
  simpa [Function.comp_def] using hperm

theorem ordered_health {c : Candidate} (hc : c ∈ ordered providers health snap input)
    : c.health = health c.deployment.id := by
  unfold ordered at hc
  rw [mem_insertionSort] at hc
  unfold applyObjective at hc
  simp only [map_map, mem_map] at hc
  rcases hc with ⟨d, _, rfl⟩
  rfl

def headed (d : Deployment) (draw : ℚ) : Bool :=
  ((select providers health draw snap input).toOption.bind List.head?).any fun c => c.deployment = d

def share (d : Deployment) : ℚ :=
  total Deployment.weight ((routable providers snap input).filter (· = d))
    / total Deployment.weight (routable providers snap input)

variable {providers health snap input} {d : Deployment}

theorem weight_pos_of_mem (hd : d ∈ routable providers snap input) : 0 < d.weight := by
  unfold routable eligible at hd
  simp only [mem_filter, Bool.and_eq_true] at hd
  exact of_decide_eq_true hd.2.1.1.1

theorem share_eq_ordered (health : Str → ℚ) (d : Deployment)
    : share providers snap input d
        =
      total Candidate.weight ((ordered providers health snap input).filter fun c => c.deployment = d)
        / total Candidate.weight (ordered providers health snap input) := by
  have hperm := ordered_deployments providers health snap input
  have hfilter := hperm.filter (· = d)
  rw [filter_map] at hfilter
  unfold share
  rw [← total_perm _ hperm, ← total_perm _ hfilter]
  simp only [total, map_map]
  rfl

variable (hd : d ∈ routable providers snap input)

include hd

theorem share_pos : 0 < share providers snap input d := by
  have hpos := weight_pos_of_mem hd
  have hmem : d ∈ (routable providers snap input).filter (· = d) :=
    mem_filter.mpr ⟨hd, decide_eq_true rfl⟩
  have hsome := le_total_of_mem Deployment.weight hmem
  have hall := le_total_of_mem Deployment.weight hd
  apply div_pos
  . exact_mod_cast Nat.lt_of_lt_of_le hpos hsome
  . exact_mod_cast Nat.lt_of_lt_of_le hpos hall

theorem share_eq_one_iff
    : share providers snap input d = 1 ↔ ∀ d' ∈ routable providers snap input, d' = d := by
  have hpos := Nat.lt_of_lt_of_le (weight_pos_of_mem hd) (le_total_of_mem Deployment.weight hd)
  have hne : (total Deployment.weight (routable providers snap input) : ℚ) ≠ 0 := by
    exact_mod_cast hpos.ne'
  have hadd := total_filter_add Deployment.weight (· = d) (routable providers snap input)
  unfold share
  rw [div_eq_one_iff_eq hne, Nat.cast_inj]
  constructor
  . intro heq d' hd'
    by_contra hother
    have hmem : d' ∈ (routable providers snap input).filter fun a => !decide (a = d) :=
      mem_filter.mpr ⟨hd', by simp [hother]⟩
    have hrest := le_total_of_mem Deployment.weight hmem
    have hpos' := weight_pos_of_mem hd'
    omega
  . intro hall
    rw [filter_eq_self.mpr fun d' hd' => decide_eq_true (hall d' hd')]

theorem headed_eq (draw : ℚ)
    : headed providers health snap input d draw
        =
      (promote (ordered providers health snap input) draw).head?.any fun c => c.deployment = d := by
  unfold headed
  rw [select_eq_promote providers health snap input (ne_nil_of_mem hd)]
  rfl

omit hd

theorem weightsDiffer_ordered_iff (health : Str → ℚ) (hd : d ∈ routable providers snap input)
    : weightsDiffer (ordered providers health snap input) = true
        ↔
      ∃ d' ∈ routable providers snap input, d'.weight ≠ d.weight := by
  have hperm := ordered_deployments providers health snap input
  rw [weightsDiffer_iff (hperm.mem_iff.mpr hd)]
  constructor
  . rintro ⟨c, hc, hne⟩
    exact ⟨c.deployment, hperm.mem_iff.mp (mem_map_of_mem hc), hne⟩
  . rintro ⟨d', hmem, hne⟩
    rcases mem_map.mp (hperm.mem_iff.mpr hmem) with ⟨c, hc, rfl⟩
    exact ⟨c, hc, hne⟩

theorem ordered_head?_of_alone (health : Str → ℚ) (hd : d ∈ routable providers snap input)
    (h : ∀ d' ∈ routable providers snap input, d' = d)
    : ((ordered providers health snap input).head?.any fun c => c.deployment = d) = true := by
  have hperm := ordered_deployments providers health snap input
  have hd' := hperm.mem_iff.mpr hd
  cases hordered : ordered providers health snap input with
  | nil =>
    rw [hordered] at hd'
    simp at hd'
  | cons c cs =>
    have hmem := hperm.mem_iff.mp (mem_map_of_mem (hordered ▸ mem_cons_self (a := c)))
    simp [h _ hmem]

theorem headed_fraction_iff (hd : d ∈ routable providers snap input) {healthy : ℚ} (hpos : 0 < healthy)
    (hhealth : ∀ d ∈ routable providers snap input, health d.id = healthy)
    : Fraction (headed providers health snap input d) (share providers snap input d)
        ↔
      (∃ d' ∈ routable providers snap input, d'.weight ≠ d.weight) ∨
        ∀ d' ∈ routable providers snap input, d' = d := by
  have hperm := ordered_deployments providers health snap input
  have hequal : ∀ c ∈ ordered providers health snap input, c.health = healthy := by
    intro c hc
    rw [ordered_health providers health snap input hc]
    exact hhealth _ (hperm.mem_iff.mp (mem_map_of_mem hc))
  rw [← weightsDiffer_ordered_iff health hd]
  cases hweights : weightsDiffer (ordered providers health snap input) with
  | true =>
    refine ⟨fun _ => .inl rfl, fun _ => ?_⟩
    rw [share_eq_ordered health, ← countP_pick Candidate.weight (fun c => c.deployment = d)]
    apply Fraction.of_tickets (total_pos_of_weightsDiffer hweights)
    intro draw hnonneg hlt
    rw [headed_eq hd, promote_head? hpos hequal hweights hnonneg hlt]
  | false =>
    rw [fraction_const_iff (fun draw _ _ => by
      rw [headed_eq hd, promote_of_not_weightsDiffer hweights])]
    have hshare := share_pos hd
    simp only [Bool.false_eq_true, false_or]
    rw [← share_eq_one_iff hd]
    constructor
    . intro heq
      split at heq
      . exact heq
      . exact absurd heq hshare.ne'
    . intro hone
      rw [if_pos (ordered_head?_of_alone health hd ((share_eq_one_iff hd).mp hone)), hone]

end

end ModelGateway.Router
