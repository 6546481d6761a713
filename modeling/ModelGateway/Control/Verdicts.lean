import ModelGateway.Control.Scorecard
import ModelGateway.Lib.Table

namespace ModelGateway.Control.FineTune

open List Except

def Metric.NoWorse (m before : Metric) : Prop :=
  match m.direction, before.direction with
  | .higherIsBetter, .higherIsBetter => before.value ≤ m.value
  | .lowerIsBetter, .lowerIsBetter => m.value ≤ before.value
  | _, _ => False

theorem Metric.NoWorse.refl (m : Metric) : m.NoWorse m := by
  unfold NoWorse
  cases m.direction <;> exact Int.le_refl _

theorem Metric.NoWorse.trans {a b c : Metric} (hab : a.NoWorse b) (hbc : b.NoWorse c) : a.NoWorse c := by
  unfold NoWorse at hab hbc ⊢
  cases ha : a.direction <;> cases hb : b.direction <;> cases hc : c.direction <;>
    simp only [ha, hb, hc] at hab hbc ⊢ <;> omega

theorem Metric.isWorseThan_eq_ok_false_iff {m before : Metric} (hname : m.name = before.name)
    : m.isWorseThan before = .ok false ↔ m.NoWorse before := by
  unfold isWorseThan NoWorse
  rw [if_neg (not_not.mpr hname)]
  cases m.direction <;> cases before.direction <;> simp

theorem Scorecard.metric_eq_some_iff {c : Scorecard} {name : Str} {m : Metric}
    : c.metric name = some m ↔ m ∈ c.metrics ∧ m.name = name :=
  Table.get_eq_some_iff _ c.distinct

namespace PromotionGate

variable {g g' : PromotionGate} {c c' baseline : Scorecard} {b b' : Option Scorecard} {name : Str}

theorem regression_eq_ok_none_iff
    : regression c baseline name = .ok none ↔ ∃ m ∈ c.metrics, ∃ before ∈ baseline.metrics,
        m.name = name ∧ before.name = name ∧ m.NoWorse before := by
  constructor
  . intro h
    unfold regression at h
    split at h
    . next m before hm hbefore =>
      rw [Scorecard.metric_eq_some_iff] at hm hbefore
      rcases map_eq_ok_iff.mp h with ⟨worse, hworse, hnone⟩
      cases worse with
      | true => simp at hnone
      | false =>
        exact ⟨m, hm.1, before, hbefore.1, hm.2, hbefore.2,
          (Metric.isWorseThan_eq_ok_false_iff (hm.2.trans hbefore.2.symm)).mp hworse⟩
    . simp at h
  . rintro ⟨m, hm, before, hbefore, hname, hname', hno⟩
    unfold regression
    rw [Scorecard.metric_eq_some_iff.mpr ⟨hm, hname⟩, Scorecard.metric_eq_some_iff.mpr ⟨hbefore, hname'⟩]
    dsimp only
    rw [(Metric.isWorseThan_eq_ok_false_iff (hname.trans hname'.symm)).mpr hno]
    rfl

def Unregressed (g : PromotionGate) (c : Scorecard) (b : Option Scorecard) : Prop :=
  ∃ baseline, b = some baseline ∧ c.suite = baseline.suite ∧ c.suiteVersion = baseline.suiteVersion ∧
    ∀ name ∈ g.mustNotRegress, ∃ m ∈ c.metrics, ∃ before ∈ baseline.metrics,
      m.name = name ∧ before.name = name ∧ m.NoWorse before

theorem regressions_eq_ok_nil_iff : g.regressions c b = .ok [] ↔ g.Unregressed c b := by
  unfold regressions Unregressed
  simp only [← regression_eq_ok_none_iff]
  cases b with
  | none => simp
  | some baseline =>
    dsimp only
    by_cases hsuite : (c.suite, c.suiteVersion) = (baseline.suite, baseline.suiteVersion)
    . rw [if_neg (not_not.mpr hsuite), map_eq_ok_iff]
      rw [Prod.mk.injEq] at hsuite
      simp only [Option.some.injEq, exists_eq_left', hsuite, true_and]
      constructor
      . rintro ⟨_, hreasons, hnil⟩ name hname
        rcases exists_mem_of_mapM_ok _ hreasons hname with ⟨reason, hmem, hreason⟩
        cases reason with
        | none => exact hreason
        | some text =>
          rw [← reduceOption_mem_iff, hnil] at hmem
          simp at hmem
      . intro hnone
        have hall : ∀ name ∈ g.mustNotRegress, ∀ reason,
            regression c baseline name = .ok reason ↔ True ∧ none = reason := by
          intro name hname reason
          rw [hnone name hname, true_and, ok.injEq]
        refine ⟨_, (mapM_eq_ok_iff_map hall).mpr ⟨fun _ _ => trivial, rfl⟩, ?_⟩
        simp
    . rw [if_pos hsuite]
      refine iff_of_false (by simp) ?_
      rintro ⟨_, heq, hsuite', hversion, _⟩
      rw [← Option.some.inj heq] at hsuite' hversion
      exact hsuite (Prod.ext hsuite' hversion)

theorem passes_iff
    : g.Passes c b ↔ g.minScore ≤ c.score ∧ (g.mustNotRegress ≠ [] → g.Unregressed c b) := by
  have hneeds : g.needsBaseline = true ↔ g.mustNotRegress ≠ [] := by
    simp [needsBaseline]
  rw [← regressions_eq_ok_nil_iff, ← hneeds, ← Int.not_lt]
  unfold Passes decide
  cases g.needsBaseline with
  | false => simp [bind, Except.bind, pure, Except.pure]
  | true =>
    cases g.regressions c b with
    | error err => simp [bind, Except.bind]
    | ok regressed => simp [bind, Except.bind, pure, Except.pure]

structure Improved (c c' : Scorecard) : Prop where
  suite : c.suite = c'.suite
  suiteVersion : c.suiteVersion = c'.suiteVersion
  score : c.score ≤ c'.score
  metrics : ∀ m ∈ c.metrics, ∃ m' ∈ c'.metrics, m'.name = m.name ∧ m'.NoWorse m

theorem Passes.mono (hscore : g'.minScore = g.minScore) (hnames : g'.mustNotRegress ⊆ g.mustNotRegress)
    (hc : Improved c c') (hb : ∀ baseline ∈ b, ∃ baseline' ∈ b', baseline.suite = baseline'.suite ∧
      baseline.suiteVersion = baseline'.suiteVersion ∧ baseline.metrics ⊆ baseline'.metrics)
    (h : g.Passes c b)
    : g'.Passes c' b' := by
  rw [passes_iff] at h ⊢
  refine ⟨hscore ▸ h.1.trans hc.score, fun hne => ?_⟩
  rcases h.2 fun hnil => hne (subset_nil.mp (hnil ▸ hnames)) with
    ⟨baseline, rfl, hsuite, hversion, hmetrics⟩
  rcases hb baseline rfl with ⟨baseline', rfl, hsuite', hversion', hbefore⟩
  refine ⟨baseline', rfl, ?_, ?_, ?_⟩
  . rw [← hc.suite, hsuite, hsuite']
  . rw [← hc.suiteVersion, hversion, hversion']
  . intro name hname
    rcases hmetrics name (hnames hname) with ⟨m, hm, before, hmem, hmname, hbname, hno⟩
    rcases hc.metrics m hm with ⟨m', hm', hmname', hno'⟩
    exact ⟨m', hm', before, hbefore hmem, hmname'.trans hmname, hbname, hno'.trans hno⟩

structure Reordered (c c' : Scorecard) : Prop where
  suite : c.suite = c'.suite
  suiteVersion : c.suiteVersion = c'.suiteVersion
  score : c.score = c'.score
  metrics : c.metrics.Perm c'.metrics

theorem Reordered.symm (h : Reordered c c') : Reordered c' c :=
  ⟨h.suite.symm, h.suiteVersion.symm, h.score.symm, h.metrics.symm⟩

theorem Reordered.improved (h : Reordered c c') : Improved c c' where
  suite := h.suite
  suiteVersion := h.suiteVersion
  score := h.score.le
  metrics m hm := ⟨m, h.metrics.subset hm, rfl, .refl m⟩

theorem Passes.reorder (hscore : g'.minScore = g.minScore)
    (hnames : g'.mustNotRegress.Perm g.mustNotRegress) (hc : Reordered c c')
    (hb : Option.Rel Reordered b b') (h : g.Passes c b)
    : g'.Passes c' b' := by
  refine Passes.mono hscore hnames.subset hc.improved ?_ h
  rintro _ rfl
  cases hb with
  | some hb => exact ⟨_, rfl, hb.suite, hb.suiteVersion, hb.metrics.subset⟩

theorem passes_spec (g : PromotionGate) (c : Scorecard) (b : Option Scorecard)
    : (g.Passes c b ↔ g.minScore ≤ c.score ∧ (g.mustNotRegress ≠ [] → g.Unregressed c b)) ∧
      (∀ c', Improved c c' → g.Passes c b → g.Passes c' b) ∧
      (∀ (g' : PromotionGate) c' b', g'.minScore = g.minScore →
        g'.mustNotRegress.Perm g.mustNotRegress → Reordered c c' → Option.Rel Reordered b b' →
          (g'.Passes c' b' ↔ g.Passes c b)) := by
  refine ⟨passes_iff, ?_, ?_⟩
  . intro c' hc
    apply Passes.mono rfl (Subset.refl _) hc
    intro baseline hb
    exact ⟨baseline, hb, rfl, rfl, Subset.refl _⟩
  . intro g' c' b' hscore hnames hc hb
    constructor
    . apply Passes.reorder hscore.symm hnames.symm hc.symm
      cases hb with
      | some hb => exact .some hb.symm
      | none => exact .none
    . exact Passes.reorder hscore hnames hc hb

end PromotionGate

end ModelGateway.Control.FineTune
