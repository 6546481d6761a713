import ModelGateway.Control.FineTuneTaskLemmas
import ModelGateway.Control.RolloutRuns

namespace ModelGateway.Control.FineTune

open List Function World

namespace Sample

def keyed (j : Nat) : FineTuneJob :=
  { job with idempotencyKey := replicate (j + 1) 0x6b, keyed := by simp }

theorem keyed_injective : Injective fun j => (keyed j).idempotencyKey := by
  intro i j h
  have hlength := congrArg List.length h
  simpa [keyed] using hlength

def lossy : Ports :=
  ⟨fun _ => some { trainer with submit := fun _ _ _ => .error .external }, fun _ => none⟩

def submitted : List Event :=
  [.read 0 0 .pass, .commit 0, .call 0 ports (some (str "r1")), .commit 0]

def halted : List Event :=
  submitted ++ [.read 1 0 .cancel, .stop 1 ports, .commit 1]

def overtaken : List Event :=
  [.read 0 0 .pass, .commit 0, .read 1 0 .cancel, .stop 1 ports, .commit 1]

def unanswered : List Event :=
  [.read 0 0 .pass, .commit 0, .call 0 lossy (some (str "r1")), .read 1 0 .cancel, .stop 1 lossy,
    .commit 1]

end Sample

section

variable {jobs : Nat → FineTuneJob} {w : World}

def Final (s s' : Status) : Prop :=
  s.phase.terminal = true → s'.phase = s.phase ∧ Kept s s'

theorem Final.refl (s : Status) : Final s s :=
  fun _ => ⟨rfl, rfl, rfl, rfl⟩

theorem Final.trans {a b c : Status} (hab : Final a b) (hbc : Final b c) : Final a c := by
  intro ha
  rcases hab ha with ⟨hphase, hkept⟩
  rcases hbc (hphase ▸ ha) with ⟨hphase', hkept'⟩
  exact ⟨hphase'.trans hphase, hkept'.artifactRef.trans hkept.artifactRef,
    hkept'.externalID.trans hkept.externalID, hkept'.scorecard.trans hkept.scorecard⟩

def World.Timely (w : World) (j : Nat) : Event → Prop
  | .commit t => ∀ seen target goesOn, w.tasks t = some ⟨j, seen, .write target goesOn⟩ →
      w.writable t j = true → target.phase ≠ seen.phase → (w.state j).phase.terminal = true →
      target.phase = (w.state j).phase
  | _ => True

theorem proceed_state (w : World) (t : Nat) (k : RowLock.Task Nat Status Todo)
    (answer : Except Failure FineTuneJob)
    : (w.proceed t k answer).state = w.state := by
  cases answer <;> rfl

theorem read_state (w : World) (t j : Nat) (reading : Reading)
    : (w.read jobs t j reading).state = w.state := by
  unfold World.read
  split
  . rfl
  . cases reading.begins (jobAt jobs j (w.state j)) <;> rfl

theorem final_written_iff_of_kept {seen target current : Status} (h : Kept seen target)
    : Final current (seen.written target current)
        ↔
      (target.phase ≠ seen.phase → current.phase.terminal = true → target.phase = current.phase) := by
  have hkept : Kept current (seen.written target current) := by
    simp [Status.written, column, h.artifactRef, h.externalID, h.scorecard, Kept.mk]
  unfold Final
  simp only [hkept, and_true]
  unfold Status.written column
  split
  . next hphase => simp [hphase]
  . next hphase => simp [hphase]

theorem commit_state (w : World) (t : Nat) (k : RowLock.Task Nat Status Todo) (target : Status)
    (goesOn : Bool) (j : Nat)
    : (w.commit t k target goesOn).state j
        =
      if k.row = j ∧ w.writable t j = true then k.seen.written target (w.state j) else w.state j := by
  unfold World.commit
  split
  . next hwritable =>
    by_cases hj : k.row = j
    . subst hj
      simp [hwritable, RowLock.Rows.commit]
    . simp [hj, RowLock.Rows.commit, update_of_ne (Ne.symm hj)]
  . next hwritable =>
    rw [if_neg]
    rintro ⟨rfl, h⟩
    exact hwritable h

theorem World.Sound.final_written_iff (h : w.Sound jobs) {t j : Nat} {seen target : Status}
    {goesOn : Bool} (hk : w.tasks t = some ⟨j, seen, .write target goesOn⟩)
    : Final (w.state j) (seen.written target (w.state j))
        ↔
      (target.phase ≠ seen.phase → (w.state j).phase.terminal = true →
        target.phase = (w.state j).phase) := by
  cases (h.tasks t _ hk).2 with
  | write _ _ hkept _ =>
  rcases hkept with ⟨hlock, hopen⟩ | hkept | ⟨hsubmitting, htraining⟩
  . -- the row has not changed since it was read
    have hseen := h.guarded.seen hk hlock
    rw [hseen] at hopen
    simp [Final, hopen]
  . exact final_written_iff_of_kept hkept
  . have hne : target.phase ≠ seen.phase := by
      dsimp only at hsubmitting
      simp [hsubmitting, htraining]
    have hwritten : (seen.written target (w.state j)).phase = target.phase := if_neg hne
    constructor
    . intro hfinal _ hterminal
      rw [← hwritten]
      exact (hfinal hterminal).1
    . intro htimely hterminal
      have hphase := htimely hne hterminal
      rw [← hphase, htraining] at hterminal
      simp [Phase.terminal] at hterminal

theorem step_final_iff (h : w.Sound jobs) (j : Nat) (e : Event)
    : Final (w.state j) ((w.step jobs e).state j) ↔ w.Timely j e := by
  have hsame : ∀ w' : World, w'.state = w.state → Final (w.state j) (w'.state j) := by
    intro w' hstate
    rw [hstate]
    exact .refl _
  unfold World.step
  cases e with
  | read t i reading => exact iff_of_true (hsame _ (read_state w t i reading)) trivial
  | crash t => exact iff_of_true (hsame _ rfl) trivial
  | call t ports started =>
    refine iff_of_true (hsame _ ?_) trivial
    dsimp only
    split
    . apply proceed_state
    . rfl
  | stop t ports =>
    refine iff_of_true (hsame _ ?_) trivial
    dsimp only
    split
    . apply proceed_state
    . rfl
  | commit t =>
    dsimp only
    split
    . next i seen target goesOn hk =>
      rw [commit_state]
      split
      . next hwrites =>
        rcases hwrites with ⟨rfl, hwritable⟩
        rw [h.final_written_iff hk]
        constructor
        . intro htimely seen' target' goesOn' hk' _
          rw [hk] at hk'
          cases hk'
          exact htimely
        . intro htimely
          exact htimely seen target goesOn hk hwritable
      . next hwrites =>
        refine iff_of_true (.refl _) ?_
        intro seen' target' goesOn' hk' hwritable
        rw [hk] at hk'
        cases hk'
        exact absurd ⟨rfl, hwritable⟩ hwrites
    . next hk =>
      refine iff_of_true (.refl _) ?_
      intro seen target goesOn hk'
      exact absurd hk' (hk j seen target goesOn)

theorem finished_jobs_stay_iff (jobs : Nat → FineTuneJob) (j : Nat) (es : List Event)
    : (∀ before later, before ++ later <+: es →
        Final ((run jobs before).state j) ((run jobs (before ++ later)).state j))
        ↔
      Throughout (World.step jobs) (fun w e => w.Timely j e) .init es := by
  have hsteps := @throughout_iff_prefixes _ _ (World.step jobs)
    (fun w w' => Final (w.state j) (w'.state j)) (fun w => .refl _) (fun _ _ _ => Final.trans) es .init
  unfold run
  rw [← hsteps]
  exact throughout_congr (World.Sound jobs) (fun _ e h => h.step e)
    (fun _ e h => step_final_iff h j e) es .init

open Sample

theorem finished_job_resumes
    : ((run keyed overtaken).state 0).phase = .cancelled ∧ ((run keyed (overtaken ++
        [.call 0 ports (some (str "r1")), .commit 0])).state 0).phase = .training := by
  decide +kernel

end

section

variable {jobs : Nat → FineTuneJob} {w : World}

inductive World.Logs (jobs : Nat → FineTuneJob) (w : World) (e : Event) (w' : World) : Prop where
  | quiet (hruns : w'.runs = w.runs) (hcommitted : w'.committed = w.committed)
      (hcancels : w.cancels ⊆ w'.cancels)
      (hquiet : ∀ t i seen target goesOn, e = .commit t →
        w.tasks t = some ⟨i, seen, .write target goesOn⟩ → w.writable t i = false)
  | starts {i : Nat} {id : Str} (hsubmitted : w.Submitted i)
      (hruns : w'.runs = w.runs ++ [⟨(jobs i).spec.trainer, (jobs i).idempotencyKey, id⟩])
      (hnew : ∀ r ∈ w.runs, ¬ r.Of (jobs i)) (hcommitted : w'.committed = w.committed)
      (hcancels : w'.cancels = w.cancels) (hcall : ∀ t, e ≠ .commit t)
  | commits {t i : Nat} {seen target : Status} {goesOn : Bool} (hcommit : e = .commit t)
      (hk : w.tasks t = some ⟨i, seen, .write target goesOn⟩) (hwritable : w.writable t i = true)
      (hruns : w'.runs = w.runs)
      (hcommitted : w'.committed = w.committed ++ [(i, seen.written target (w.state i))])
      (hcancels : w'.cancels = w.cancels)

theorem proceed_logs (w : World) (t : Nat) (k : RowLock.Task Nat Status Todo)
    (answer : Except Failure FineTuneJob)
    : (w.proceed t k answer).runs = w.runs ∧ (w.proceed t k answer).committed = w.committed ∧
        (w.proceed t k answer).cancels = w.cancels := by
  cases answer <;> exact ⟨rfl, rfl, rfl⟩

theorem World.Sound.call_logs (h : w.Sound jobs) {t i : Nat} {seen : Status}
    (hk : w.tasks t = some ⟨i, seen, .call⟩) (ports : Ports) (started : Option Str)
    : w.Logs jobs (.call t ports started) (w.call jobs t ⟨i, seen, .call⟩ ports started) := by
  rcases proceed_logs { w with runs := (called w.runs ports (jobAt jobs i seen) started).2 } t
    ⟨i, seen, .call⟩ (called w.runs ports (jobAt jobs i seen) started).1 with
    ⟨hruns, hcommitted, hcancels⟩
  rcases called_runs w.runs ports (jobAt jobs i seen) started with
    hcalled | ⟨id, hcalled, hphase, hnew⟩
  . refine .quiet (hruns.trans hcalled) hcommitted ?_ (by simp)
    exact hcancels ▸ fun _ h => h
  . cases (h.tasks t _ hk).2 with
    | call _ _ hsubmitted =>
    exact .starts (hsubmitted hphase) (hruns.trans hcalled) hnew hcommitted hcancels (by simp)

theorem World.Sound.step_logs (h : w.Sound jobs) (e : Event) : w.Logs jobs e (w.step jobs e) := by
  have hsame : (∀ t i seen target goesOn, e = .commit t →
      w.tasks t = some ⟨i, seen, .write target goesOn⟩ → w.writable t i = false) → w.Logs jobs e w :=
    .quiet rfl rfl fun _ h => h
  unfold World.step
  cases e with
  | read t j reading =>
    dsimp only
    unfold World.read
    split
    . exact hsame (by simp)
    . cases reading.begins (jobAt jobs j (w.state j)) with
      | none => exact hsame (by simp)
      | some todo => exact .quiet rfl rfl (fun _ h => h) (by simp)
  | crash t => exact .quiet rfl rfl (fun _ h => h) (by simp)
  | call t ports started =>
    dsimp only
    split
    . next hk => exact h.call_logs hk ports started
    . exact hsame (by simp)
  | stop t ports =>
    dsimp only
    split
    . next i seen hk =>
      rcases proceed_logs { w with cancels := w.cancels ++ cancelled ports (jobAt jobs i seen) } t
        ⟨i, seen, .stop⟩ (stopped ports (jobAt jobs i seen)) with ⟨hruns, hcommitted, hcancels⟩
      refine .quiet hruns hcommitted ?_ (by simp)
      exact hcancels ▸ subset_append_left _ _
    . exact hsame (by simp)
  | commit t =>
    dsimp only
    split
    . next i seen target goesOn hk =>
      unfold World.commit
      split
      . next hwritable => exact .commits rfl hk hwritable rfl rfl rfl
      . next hwritable =>
        apply hsame
        intro t' i' seen' target' goesOn' ht hk'
        cases ht
        rw [hk] at hk'
        cases hk'
        simpa using hwritable
    . next hk =>
      apply hsame
      intro t' i seen target goesOn ht hk'
      cases ht
      exact absurd hk' (hk i seen target goesOn)

end

section

variable {jobs : Nat → FineTuneJob} (hkeys : Injective fun j => (jobs j).idempotencyKey)
  {w : World}

def World.runsOf (jobs : Nat → FineTuneJob) (w : World) (j : Nat) : List StartedRun :=
  w.runs.filter fun r => r.key = (jobs j).idempotencyKey

theorem World.mem_runsOf {j : Nat} {r : StartedRun}
    : r ∈ w.runsOf jobs j ↔ r ∈ w.runs ∧ r.key = (jobs j).idempotencyKey := by
  unfold runsOf
  rw [mem_filter, decide_eq_true_eq]

include hkeys in
theorem World.Sound.of_mem_runsOf (h : w.Sound jobs) {j : Nat} {r : StartedRun}
    (hr : r ∈ w.runsOf jobs j)
    : r.Of (jobs j) := by
  rw [mem_runsOf] at hr
  rcases h.started r hr.1 with ⟨i, hof, _⟩
  rw [hkeys (hof.2.symm.trans hr.2)] at hof
  exact hof

include hkeys in
theorem World.Sound.runsOf_cases (h : w.Sound jobs) (j : Nat)
    : w.runsOf jobs j = [] ∨ ∃ r, w.runsOf jobs j = [r] := by
  have hunique := h.unique.filter fun r => r.key = (jobs j).idempotencyKey
  change (w.runsOf jobs j).Pairwise _ at hunique
  have hof : ∀ r ∈ w.runsOf jobs j, r.Of (jobs j) := fun r hr => h.of_mem_runsOf hkeys hr
  generalize w.runsOf jobs j = runs at hunique hof ⊢
  rcases runs with _ | ⟨r, _ | ⟨r', rest⟩⟩
  . exact .inl rfl
  . exact .inr ⟨r, rfl⟩
  . -- the two have the trainer and the key of the job
    rcases hof r (by simp) with ⟨htrainer, hkey⟩
    rcases hof r' (by simp) with ⟨htrainer', hkey'⟩
    rw [pairwise_cons] at hunique
    exact absurd ⟨htrainer.trans htrainer'.symm, hkey.trans hkey'.symm⟩ (hunique.1 r' (by simp))

include hkeys in
theorem World.Sound.runsOf_of_known (h : w.Sound jobs) {j : Nat} {s : Status}
    (hs : w.Known jobs j s) (hid : s.externalID ≠ [])
    : ∃ r, w.runsOf jobs j = [r] ∧ r.id = s.externalID := by
  rcases hs with hnil | ⟨r, hr, hof, heq⟩
  . exact absurd hnil hid
  . have hmem : r ∈ w.runsOf jobs j := mem_runsOf.mpr ⟨hr, hof.2⟩
    rcases h.runsOf_cases hkeys j with hnone | ⟨r', hruns⟩
    . simp [hnone] at hmem
    . rw [hruns, mem_singleton] at hmem
      subst hmem
      exact ⟨r, hruns, heq⟩

open Sample

end

section

variable {jobs : Nat → FineTuneJob} {w : World}

def World.WasCancelled (w : World) (j : Nat) : Prop :=
  ∃ s, (j, s) ∈ w.committed ∧ s.phase = .cancelled

def World.Stopped (jobs : Nat → FineTuneJob) (w : World) (j : Nat) : Prop :=
  ∀ r ∈ w.runsOf jobs j, (r.trainer, r.id) ∈ w.cancels

/-- No run is started for a job that was cancelled, and no cancel misses a run. -/
structure World.InTime (jobs : Nat → FineTuneJob) (w : World) (j : Nat) (e : Event) : Prop where
  starts : w.WasCancelled j → ∀ r ∈ (w.step jobs e).runsOf jobs j, r ∉ w.runs →
    (r.trainer, r.id) ∈ w.cancels
  cancels : ∀ t seen target goesOn, e = .commit t →
    w.tasks t = some ⟨j, seen, .write target goesOn⟩ → w.writable t j = true →
    target.phase = .cancelled → target.phase ≠ seen.phase → seen.externalID = [] → w.Stopped jobs j

variable {j : Nat}

theorem World.wasCancelled_iff_of_committed {w' : World} {i : Nat} {s : Status}
    (h : w'.committed = w.committed ++ [(i, s)])
    : w'.WasCancelled j ↔ w.WasCancelled j ∨ (i = j ∧ s.phase = .cancelled) := by
  unfold WasCancelled
  simp only [h, mem_append, mem_singleton, Prod.mk.injEq]
  constructor
  . rintro ⟨s', hs' | ⟨rfl, rfl⟩, hphase⟩
    . exact .inl ⟨s', hs', hphase⟩
    . exact .inr ⟨rfl, hphase⟩
  . rintro (⟨s', hs', hphase⟩ | ⟨rfl, hphase⟩)
    . exact ⟨s', .inl hs', hphase⟩
    . exact ⟨s, .inr ⟨rfl, rfl⟩, hphase⟩

theorem World.Sound.phase_written (h : w.Sound jobs) {seen target : Status}
    (hphase : (seen.written target (w.state j)).phase = .cancelled)
    : w.WasCancelled j ∨ (target.phase = .cancelled ∧ target.phase ≠ seen.phase) := by
  change column seen.phase target.phase (w.state j).phase = .cancelled at hphase
  unfold column at hphase
  split at hphase
  . left
    rcases h.stored j with hinit | hcommitted
    . rw [hinit] at hphase
      simp [Status.init] at hphase
    . exact ⟨w.state j, hcommitted, hphase⟩
  . next hne => exact .inr ⟨hphase, hne⟩

variable (hkeys : Injective fun j => (jobs j).idempotencyKey)

include hkeys

theorem World.Sound.stopped_of_sent
    (h : w.Sound jobs) {t : Nat} {seen target : Status} {goesOn : Bool}
    (hk : w.tasks t = some ⟨j, seen, .write target goesOn⟩) (hphase : target.phase = .cancelled)
    (hne : target.phase ≠ seen.phase) (hid : seen.externalID ≠ [])
    : w.Stopped jobs j := by
  rcases h.tasks t _ hk with ⟨hknown, hdoes⟩
  rcases h.runsOf_of_known hkeys hknown hid with ⟨r, hruns, heq⟩
  cases hdoes with
  | write _ _ _ hcancel =>
  have hsent := (hcancel hphase hne).resolve_left hid
  intro r' hr'
  have hof := h.of_mem_runsOf hkeys hr'
  rw [hruns, mem_singleton] at hr'
  subst hr'
  rw [hof.1, heq]
  exact hsent

theorem World.Sound.stopped_step_iff
    (h : w.Sound jobs) (hstopped : w.WasCancelled j → w.Stopped jobs j) (e : Event)
    : ((w.step jobs e).WasCancelled j → (w.step jobs e).Stopped jobs j) ↔ w.InTime jobs j e := by
  cases h.step_logs e with
  | quiet hruns hcommitted hcancels hquiet =>
    refine iff_of_true ?_ ⟨?_, ?_⟩
    . unfold WasCancelled Stopped runsOf at hstopped ⊢
      rw [hruns, hcommitted]
      exact fun hcancelled r hr => hcancels (hstopped hcancelled r hr)
    . intro _ r hr hnew
      rw [mem_runsOf, hruns] at hr
      exact absurd hr.1 hnew
    . intro t seen target goesOn he hk hwritable
      simp [hquiet t j seen target goesOn he hk] at hwritable
  | starts hsubmitted hruns hnew hcommitted hcancels hcall =>
    have hcancelled : (w.step jobs e).WasCancelled j ↔ w.WasCancelled j := by
      unfold WasCancelled
      rw [hcommitted]
    rw [hcancelled]
    constructor
    . intro hall
      refine ⟨?_, fun t _ _ _ he => absurd he (hcall t)⟩
      intro hwas r hr _
      exact hcancels ▸ hall hwas r hr
    . intro hintime hwas r hr
      rw [hcancels]
      by_cases hold : r ∈ w.runs
      . rw [mem_runsOf] at hr
        exact hstopped hwas r (mem_runsOf.mpr ⟨hold, hr.2⟩)
      . exact hintime.starts hwas r hr hold
  | @commits t i seen target goesOn hcommit hk hwritable hruns hcommitted hcancels =>
    have hall : (w.step jobs e).Stopped jobs j ↔ w.Stopped jobs j := by
      unfold Stopped runsOf
      rw [hruns, hcancels]
    rw [hall, wasCancelled_iff_of_committed hcommitted]
    constructor
    . intro hgood
      refine ⟨?_, ?_⟩
      . intro _ r hr hnew
        rw [mem_runsOf, hruns] at hr
        exact absurd hr.1 hnew
      . intro t' seen' target' goesOn' he hk' _ hphase hne _
        cases hcommit.symm.trans he
        rw [hk] at hk'
        cases hk'
        apply hgood
        right
        exact ⟨rfl, (if_neg hne).trans hphase⟩
    . rintro hintime (hbefore | ⟨rfl, hphase⟩)
      . exact hstopped hbefore
      . rcases h.phase_written hphase with hbefore | ⟨hphase, hne⟩
        . exact hstopped hbefore
        . by_cases hid : seen.externalID = []
          . exact hintime.cancels t seen target goesOn hcommit hk hwritable hphase hne hid
          . exact h.stopped_of_sent hkeys hk hphase hne hid

omit hkeys

open Sample

end

end ModelGateway.Control.FineTune
