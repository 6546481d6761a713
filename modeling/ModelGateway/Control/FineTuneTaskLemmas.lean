import ModelGateway.Control.FineTuneTasks

namespace ModelGateway.Control.FineTune

open List Except FineTuneJob
open Option (some)

section

structure Kept (s s' : Status) : Prop where
  artifactRef : s'.artifactRef = s.artifactRef
  externalID : s'.externalID = s.externalID
  scorecard : s'.scorecard = s.scorecard

theorem kept_of_advance {job job' : FineTuneJob} {phase : Phase} {c : FineTuneJob.Changes}
    (h : job.advance phase c = .ok job') (hartifact : c.artifactRef = none)
    (hexternal : c.externalID = none) (hcard : c.scorecard = none)
    : Kept job.status job'.status := by
  rcases advance_eq_ok h with ⟨_, _, rfl⟩
  constructor
  . rw [hartifact]
    rfl
  . rw [hexternal]
    rfl
  . rw [hcard]
    rfl

theorem phase_of_advance {job job' : FineTuneJob} {phase : Phase} {c : FineTuneJob.Changes}
    (h : job.advance phase c = .ok job')
    : job'.status.phase = phase := by
  rcases advance_eq_ok h with ⟨_, _, rfl⟩
  rfl

def Rolls (s : Status) (todo : Todo) : Prop :=
  ∃ s', todo = .write s' false ∧ s'.phase = s.phase ∧ Kept s s'

variable {todo : Todo}

variable {job : FineTuneJob}

theorem rolls_of_rollout {result : Except Failure FineTuneJob}
    (hresult : ∀ job', result = .ok job' →
      job'.status.phase = job.status.phase ∧ Kept job.status job'.status)
    (h : rollout result = some todo)
    : Rolls job.status todo := by
  unfold rollout at h
  cases result with
  | error err => simp [Except.toOption] at h
  | ok job' => exact ⟨job'.status, (some.inj h).symm, hresult job' rfl⟩

theorem rolls_of_advanceRollout (h : rollout job.advanceRollout = some todo)
    : Rolls job.status todo := by
  refine rolls_of_rollout ?_ h
  intro job' hjob
  rcases advanceRollout_eq_ok hjob with ⟨_, _, _, _, rfl⟩
  exact ⟨rfl, rfl, rfl, rfl⟩

theorem rolls_of_abortRollout {reason : Str} (h : rollout (job.abortRollout reason) = some todo)
    : Rolls job.status todo := by
  refine rolls_of_rollout ?_ h
  intro job' hjob
  rcases abortRollout_eq_ok hjob with ⟨_, rfl⟩
  exact ⟨rfl, rfl, rfl, rfl⟩

inductive Begins (job : FineTuneJob) (locks : Bool) : Todo → Prop where
  | call (hopen : job.isTerminal = false) (hlocks : locks = true) : Begins job locks .call
  | stop (hopen : job.isTerminal = false) : Begins job locks .stop
  | submit {job' : FineTuneJob} (hphase : job.status.phase = .pending) (hlocks : locks = true)
      (h : job.submitting = .ok job') : Begins job locks (.write job'.status true)
  | roll {todo : Todo} (h : Rolls job.status todo) : Begins job locks todo

theorem Reading.begins_eq_some {reading : Reading} (h : reading.begins job = some todo)
    : Begins job reading.locks todo := by
  unfold Reading.begins at h
  cases reading with
  | pass =>
    dsimp only at h
    split at h
    . simp at h
    . next hopen =>
      rw [Bool.not_eq_true] at hopen
      split at h
      . next hphase =>
        rw [Option.map_eq_some_iff] at h
        rcases h with ⟨job', hjob, rfl⟩
        cases hsubmitting : job.submitting with
        | error err => simp [hsubmitting, Except.toOption] at hjob
        | ok job₀ =>
          simp only [hsubmitting, Except.toOption, some.injEq] at hjob
          subst hjob
          exact .submit hphase rfl hsubmitting
      . rw [← some.inj h]
        exact .call hopen rfl
  | cancel =>
    dsimp only at h
    split at h
    . simp at h
    . next hopen =>
      rw [← some.inj h]
      exact .stop (by simpa using hopen)
  | start =>
    refine .roll (rolls_of_rollout ?_ h)
    intro job' hjob
    rcases startRollout_eq_ok hjob with ⟨_, _, rfl⟩
    exact ⟨rfl, rfl, rfl, rfl⟩
  | advance => exact .roll (rolls_of_advanceRollout h)
  | abort reason => exact .roll (rolls_of_abortRollout h)
  | judge verdict =>
    dsimp only at h
    split at h
    . cases verdict with
      | wait => simp at h
      | advance => exact .roll (rolls_of_advanceRollout h)
      | abort reason => exact .roll (rolls_of_abortRollout h)
    . simp at h

end

section

theorem called_runs (runs : List StartedRun) (ports : Ports) (job : FineTuneJob)
    (started : Option Str)
    : (called runs ports job started).2 = runs ∨
      ∃ id, (called runs ports job started).2 = runs ++ [⟨job.spec.trainer, job.idempotencyKey, id⟩] ∧
        job.status.phase = .submitting ∧ ∀ r ∈ runs, ¬ r.Of job := by
  unfold called
  split
  . next hphase =>
    split
    . exact .inl rfl
    . unfold submission
      cases hfind : runs.find? fun r => r.Of job with
      | some r => exact .inl rfl
      | none =>
        cases started with
        | none => exact .inl rfl
        | some id =>
          refine .inr ⟨id, rfl, hphase, ?_⟩
          simpa using hfind
  . exact .inl rfl

structure Called (runs : List StartedRun) (job job' : FineTuneJob) : Prop where
  phase : job'.status.phase ≠ .cancelled
  externalID : job'.status.externalID = job.status.externalID ∨
    ∃ r ∈ runs, r.Of job ∧ r.id = job'.status.externalID
  submitted : job.status.phase = .submitting →
    job'.status.phase = .training ∨ Kept job.status job'.status

variable {job job' : FineTuneJob}

variable {runs : List StartedRun}

theorem afterSubmit_called {run : Run}
    (hrun : run.state = .failed ∨ ∃ r ∈ runs, r.Of job ∧ r.id = run.externalID)
    (h : afterSubmit job run = .ok job')
    : Called runs job job' := by
  unfold afterSubmit at h
  split at h
  . have hkept := kept_of_advance h rfl rfl rfl
    refine ⟨?_, .inl hkept.externalID, fun _ => .inr hkept⟩
    rw [phase_of_advance h]
    decide
  . next hstate =>
    have hr := hrun.resolve_left hstate
    unfold FineTuneJob.submitted at h
    split at h
    . simp at h
    . rcases advance_eq_ok h with ⟨_, _, rfl⟩
      exact ⟨by simp, .inr hr, fun _ => .inl rfl⟩

theorem step_called {ports : Ports}
    (hopen : job.isTerminal = false) (hphase : job.status.phase ≠ .submitting)
    (h : FineTune.step ports job = .ok job')
    : Called runs job job' := by
  have hfailed : ∀ {reason : Str} {cost : Option Int}, job.failed reason cost = .ok job' →
      Called runs job job' := by
    intro reason cost h
    refine ⟨?_, .inl (kept_of_advance h rfl rfl rfl).externalID, fun h => absurd h hphase⟩
    rw [phase_of_advance h]
    decide
  unfold FineTune.step at h
  split at h
  . unfold evaluate at h
    simp only [bind_eq_ok_iff] at h
    rcases h with ⟨_, _, _, _, _, _, h⟩
    split at h
    . simp at h
    . rcases advance_eq_ok h with ⟨_, _, rfl⟩
      refine ⟨?_, .inl rfl, fun h => absurd h hphase⟩
      dsimp only
      split <;> decide
  . rw [bind_eq_ok_iff] at h
    rcases h with ⟨_, _, h⟩
    rw [bind_eq_ok_iff] at h
    rcases h with ⟨run, _, h⟩
    unfold afterPoll at h
    split at h
    . unfold FineTuneJob.trained at h
      split at h
      . simp at h
      . rcases advance_eq_ok h with ⟨_, _, rfl⟩
        refine ⟨?_, .inl rfl, fun h => absurd h hphase⟩
        dsimp only
        split <;> decide
    . exact hfailed h
    . exact hfailed h
    . rw [← ok.inj h]
      refine ⟨?_, .inl rfl, fun h => absurd h hphase⟩
      intro hcancelled
      simp [FineTuneJob.isTerminal, hcancelled, Phase.terminal] at hopen

theorem called_eq_ok {ports : Ports} {job job' : FineTuneJob}
    {started : Option Str} (hopen : job.isTerminal = false)
    (h : (called runs ports job started).1 = .ok job')
    : Called (called runs ports job started).2 job job' := by
  unfold called at h ⊢
  split at h
  . next hphase =>
    rw [if_pos hphase]
    cases htrainer : ports.trainer job.spec.trainer with
    | error err => simp [htrainer] at h
    | ok trainer =>
      simp only [htrainer, bind_eq_ok_iff] at h ⊢
      rcases h with ⟨run, hrun, h⟩
      refine afterSubmit_called ?_ h
      unfold submission at hrun ⊢
      cases hfind : runs.find? fun r => r.Of job with
      | some r =>
        simp only [hfind, map_eq_ok_iff] at hrun ⊢
        rcases hrun with ⟨answer, _, rfl⟩
        have hof := find?_some hfind
        exact .inr ⟨r, mem_of_find?_eq_some hfind, by simpa using hof, rfl⟩
      | none =>
        cases started with
        | some id =>
          simp only [hfind, map_eq_ok_iff] at hrun ⊢
          rcases hrun with ⟨answer, _, rfl⟩
          exact .inr ⟨_, mem_append_right _ (mem_singleton_self _), ⟨rfl, rfl⟩, rfl⟩
        | none =>
          simp only [hfind, map_eq_ok_iff] at hrun ⊢
          rcases hrun with ⟨answer, _, rfl⟩
          exact .inl rfl
  . next hphase =>
    exact step_called hopen hphase h

theorem stopped_eq_ok {ports : Ports} (h : stopped ports job = .ok job')
    : job'.status.phase = .cancelled ∧ Kept job.status job'.status ∧ (job.status.externalID = [] ∨
          (job.spec.trainer, job.status.externalID) ∈ cancelled ports job) := by
  unfold stopped at h
  rw [bind_eq_ok_iff] at h
  rcases h with ⟨_, hcancel, h⟩
  refine ⟨phase_of_advance h, kept_of_advance h rfl rfl rfl, ?_⟩
  unfold cancelRun at hcancel
  split at hcancel
  . next hid => exact .inl hid
  . next hid =>
    rw [bind_eq_ok_iff] at hcancel
    rcases hcancel with ⟨trainer, htrainer, _⟩
    unfold Ports.trainer at htrainer
    cases hnamed : ports.trainers job.spec.trainer with
    | none => simp [hnamed] at htrainer
    | some trainer => simp [cancelled, hid, hnamed]

end

section

open RowLock.Rows (Untouched)

variable {jobs : Nat → FineTuneJob} {w w' : World}

structure World.Grows (w w' : World) : Prop where
  committed : w.committed ⊆ w'.committed
  runs : w.runs ⊆ w'.runs
  cancels : w.cancels ⊆ w'.cancels

def World.Submitted (w : World) (j : Nat) : Prop :=
  ∃ s, (j, s) ∈ w.committed ∧ s.phase = .submitting

def World.Known (jobs : Nat → FineTuneJob) (w : World) (j : Nat) (s : Status) : Prop :=
  s.externalID = [] ∨ ∃ r ∈ w.runs, r.Of (jobs j) ∧ r.id = s.externalID

inductive World.Does (jobs : Nat → FineTuneJob) (w : World) (t j : Nat) (seen : Status)
    : Todo → Prop where
  | call (hopen : seen.phase.terminal = false) (hlock : w.lock j = some t ∨ seen.phase = .submitting)
      (hsubmitted : seen.phase = .submitting → w.Submitted j)
      : Does jobs w t j seen .call
  | stop (hopen : seen.phase.terminal = false) : Does jobs w t j seen .stop
  | write {target : Status} {goesOn : Bool} (hknown : w.Known jobs j target)
      (hgoesOn : goesOn = true → seen.phase = .pending ∧ target.phase = .submitting)
      (hkept : (w.lock j = some t ∧ seen.phase.terminal = false) ∨ Kept seen target ∨
        (seen.phase = .submitting ∧ target.phase = .training))
      (hcancel : target.phase = .cancelled → target.phase ≠ seen.phase →
        seen.externalID = [] ∨ ((jobs j).spec.trainer, seen.externalID) ∈ w.cancels)
      : Does jobs w t j seen (.write target goesOn)

structure World.Sound (jobs : Nat → FineTuneJob) (w : World) : Prop where
  guarded : w.Guarded
  tasks : ∀ t k, w.tasks t = some k → w.Known jobs k.row k.seen ∧ w.Does jobs t k.row k.seen k.todo
  stored : ∀ j, w.state j = .init ∨ (j, w.state j) ∈ w.committed
  known : ∀ j s, (j, s) ∈ w.committed → w.Known jobs j s
  unique : w.runs.Pairwise fun r r' => ¬ (r.trainer = r'.trainer ∧ r.key = r'.key)
  started : ∀ r ∈ w.runs, ∃ j, r.Of (jobs j) ∧ w.Submitted j

theorem World.Grows.rows (w : World) (rows : RowLock.Rows Nat Status Todo)
    : w.Grows { w with toRows := rows } :=
  ⟨fun _ h => h, fun _ h => h, fun _ h => h⟩

variable {j : Nat}

theorem World.Submitted.mono (h : w.Submitted j) (hgrows : w.Grows w') : w'.Submitted j := by
  rcases h with ⟨s, hs, hphase⟩
  exact ⟨s, hgrows.committed hs, hphase⟩

theorem World.Known.mono {s : Status} (h : w.Known jobs j s) (hgrows : w.Grows w')
    : w'.Known jobs j s := by
  rcases h with h | ⟨r, hr, hof⟩
  . exact .inl h
  . exact .inr ⟨r, hgrows.runs hr, hof⟩

theorem World.Known.of_kept {s s' : Status} (h : w.Known jobs j s) (hkept : Kept s s')
    : w.Known jobs j s' := by
  unfold World.Known
  rw [hkept.externalID]
  exact h

theorem World.Known.written {target current : Status} (htarget : w.Known jobs j target)
    (hcurrent : w.Known jobs j current) (seen : Status)
    : w.Known jobs j (seen.written target current) := by
  unfold World.Known Status.written
  rcases column_cases seen.externalID target.externalID current.externalID with hid | hid
  . rw [hid]
    exact hcurrent
  . rw [hid]
    exact htarget

theorem World.Does.mono {t j : Nat} {seen : Status} {todo : Todo} (h : w.Does jobs t j seen todo)
    (hgrows : w.Grows w') (hlock : w'.lock j = some t ↔ w.lock j = some t)
    : w'.Does jobs t j seen todo := by
  cases h with
  | call hopen hheld hsubmitted =>
    exact .call hopen (by rwa [hlock]) fun hphase => (hsubmitted hphase).mono hgrows
  | stop hopen => exact .stop hopen
  | write hknown hgoesOn hkept hcancel =>
    refine .write (hknown.mono hgrows) hgoesOn (by rwa [hlock]) ?_
    intro hphase hne
    exact (hcancel hphase hne).imp_right fun h => hgrows.cancels h

theorem World.Sound.init : World.Sound jobs .init where
  guarded _ _ h := by simp [World.init] at h
  tasks _ _ h := by simp [World.init] at h
  stored _ := .inl rfl
  known _ _ h := by simp [World.init] at h
  unique := List.Pairwise.nil
  started _ h := by simp [World.init] at h

theorem World.Sound.state_known (h : w.Sound jobs) (j : Nat) : w.Known jobs j (w.state j) := by
  rcases h.stored j with hinit | hcommitted
  . rw [hinit]
    exact .inl rfl
  . exact h.known j _ hcommitted

variable {t : Nat}

theorem World.Sound.tasks_of_acting (h : w.Sound jobs) (hgrows : w.Grows w')
    (hothers : ∀ t', t' ≠ t → Untouched t' w.toRows w'.toRows) (hacting : ∀ k, w'.tasks t = some k →
      w'.Known jobs k.row k.seen ∧ w'.Does jobs t k.row k.seen k.todo)
    : ∀ t' k, w'.tasks t' = some k →
        w'.Known jobs k.row k.seen ∧ w'.Does jobs t' k.row k.seen k.todo := by
  intro t' k hk
  by_cases ht : t' = t
  . subst ht
    exact hacting k hk
  . have huntouched := hothers t' ht
    rw [huntouched.task] at hk
    rcases h.tasks t' k hk with ⟨hknown, hdoes⟩
    exact ⟨hknown.mono hgrows, hdoes.mono hgrows (huntouched.lock k.row)⟩

theorem World.Sound.tasks_of_grows (h : w.Sound jobs) (hgrows : w.Grows w')
    (hrows : w'.toRows = w.toRows)
    : ∀ t k, w'.tasks t = some k →
        w'.Known jobs k.row k.seen ∧ w'.Does jobs t k.row k.seen k.todo := by
  intro t k hk
  rw [hrows] at hk
  rcases h.tasks t k hk with ⟨hknown, hdoes⟩
  exact ⟨hknown.mono hgrows, hdoes.mono hgrows (by rw [hrows])⟩

theorem World.Sound.finish (h : w.Sound jobs) (t : Nat)
    : World.Sound jobs { w with toRows := w.toRows.finish t } where
  guarded := h.guarded.finish
  tasks := by
    refine h.tasks_of_acting (.rows w _)
      (fun t' ht => Untouched.finish ht) ?_
    intro k hk
    simp [RowLock.Rows.finish] at hk
  stored := h.stored
  known := h.known
  unique := h.unique
  started := h.started

variable {k : RowLock.Task Nat Status Todo}

theorem World.Sound.proceed (h : w.Sound jobs)
    (hk : w.tasks t = some k) {answer : Except Failure FineTuneJob}
    (hdoes : ∀ job, answer = .ok job → w.Does jobs t k.row k.seen (.write job.status false))
    : (w.proceed t k answer).Sound jobs := by
  cases answer with
  | error err => exact h.finish t
  | ok job =>
    refine ⟨h.guarded.proceed hk rfl rfl, ?_, h.stored, h.known, h.unique, h.started⟩
    refine h.tasks_of_acting (.rows w _)
      (fun t' ht => Untouched.proceed _ ht) ?_
    intro k' hk'
    have heq : { k with todo := .write job.status false } = k' := by
      simpa [World.proceed, RowLock.Rows.proceed] using hk'
    subst heq
    exact ⟨(h.tasks t k hk).1, (hdoes job rfl).mono (.rows w _) Iff.rfl⟩

theorem World.Sound.read (h : w.Sound jobs) (t j : Nat) (reading : Reading)
    : (w.read jobs t j reading).Sound jobs := by
  unfold World.read
  split
  . exact h
  . next hready =>
    rw [not_or, Option.not_isSome_iff_eq_none, not_and, Option.not_isSome_iff_eq_none] at hready
    rcases hready with ⟨hidle, hfree⟩
    cases hbegins : reading.begins (jobAt jobs j (w.state j)) with
    | none => exact h
    | some todo =>
      refine ⟨h.guarded.read hidle hfree, ?_, h.stored, h.known, h.unique, h.started⟩
      refine h.tasks_of_acting (.rows w _)
        (fun t' ht => Untouched.read ht hfree) ?_
      intro k hk
      have heq : ⟨j, w.state j, todo⟩ = k := by
        simpa [RowLock.Rows.read] using hk
      subst heq
      refine ⟨h.state_known j, ?_⟩
      have hlock : reading.locks = true → (w.toRows.read t j todo reading.locks).lock j = some t := by
        intro hlocks
        simp [RowLock.Rows.read, hlocks]
      cases Reading.begins_eq_some hbegins with
      | call hopen hlocks =>
        refine .call hopen (.inl (hlock hlocks)) ?_
        intro hphase
        rcases h.stored j with hinit | hcommitted
        . rw [hinit] at hphase
          simp [Status.init] at hphase
        . exact ⟨w.state j, hcommitted, hphase⟩
      | stop hopen => exact .stop hopen
      | submit hphase hlocks hjob =>
        have hkept := kept_of_advance hjob rfl rfl rfl
        have hsubmitting := phase_of_advance hjob
        refine .write ((h.state_known j).of_kept hkept) (fun _ => ⟨hphase, hsubmitting⟩)
          (.inr (.inl hkept)) ?_
        intro hcancelled
        simp [hsubmitting] at hcancelled
      | roll hrolls =>
        rcases hrolls with ⟨_, rfl, hphase, hkept⟩
        exact .write ((h.state_known j).of_kept hkept) (by simp) (.inr (.inl hkept))
          fun _ hne => absurd hphase hne

theorem World.grows_called (w : World) (ports : Ports) (job : FineTuneJob) (started : Option Str)
    : w.Grows { w with runs := (called w.runs ports job started).2 } := by
  refine ⟨fun _ h => h, ?_, fun _ h => h⟩
  rcases called_runs w.runs ports job started with hruns | ⟨id, hruns, _⟩
  . rw [hruns]
    exact fun _ h => h
  . rw [hruns]
    exact subset_append_left _ _

variable (h : w.Sound jobs)

include h

theorem World.Sound.calls {seen : Status}
    (hsubmitted : seen.phase = .submitting → w.Submitted j) (ports : Ports) (started : Option Str)
    : World.Sound jobs
        { w with runs := (called w.runs ports (jobAt jobs j seen) started).2 } := by
  have hgrows := w.grows_called ports (jobAt jobs j seen) started
  refine ⟨h.guarded, h.tasks_of_grows hgrows rfl, h.stored,
    fun j s hs => (h.known j s hs).mono hgrows, ?_, ?_⟩
  . rcases called_runs w.runs ports (jobAt jobs j seen) started with hruns | ⟨id, hruns, _, hnone⟩
    . rw [hruns]
      exact h.unique
    . rw [hruns, pairwise_append]
      refine ⟨h.unique, pairwise_singleton _ _, ?_⟩
      intro r hr r' hr'
      rw [mem_singleton.mp hr']
      exact hnone r hr
  . rcases called_runs w.runs ports (jobAt jobs j seen) started with hruns | ⟨id, hruns, hphase, _⟩
    . rw [hruns]
      exact h.started
    . rw [hruns]
      intro r hr
      rcases mem_append.mp hr with hr | hr
      . exact h.started r hr
      . rw [mem_singleton.mp hr]
        exact ⟨j, ⟨rfl, rfl⟩, hsubmitted hphase⟩

theorem World.Sound.call
    (hk : w.tasks t = some k) (htodo : k.todo = .call) (ports : Ports) (started : Option Str)
    : (w.call jobs t k ports started).Sound jobs := by
  rcases h.tasks t k hk with ⟨hknown, hdoes⟩
  rw [htodo] at hdoes
  cases hdoes with
  | call hopen hlock hsubmitted =>
  have hgrows := w.grows_called ports (jobAt jobs k.row k.seen) started
  refine (h.calls hsubmitted ports started).proceed hk ?_
  intro job hjob
  have hjob' := @called_eq_ok _ _ (jobAt jobs k.row k.seen) _ _ hopen hjob
  refine .write ?_ (by simp) ?_ (fun hphase => absurd hphase hjob'.phase)
  . rcases hjob'.externalID with hid | ⟨r, hr, hof, hid⟩
    . unfold World.Known
      rw [hid]
      exact hknown.mono hgrows
    . exact .inr ⟨r, hr, hof, hid⟩
  . rcases hlock with hlock | hphase
    . exact .inl ⟨hlock, hopen⟩
    . rcases hjob'.submitted hphase with htraining | hkept
      . exact .inr (.inr ⟨hphase, htraining⟩)
      . exact .inr (.inl hkept)

theorem World.Sound.stop (hk : w.tasks t = some k) (ports : Ports)
    : (w.stop jobs t k ports).Sound jobs := by
  have hgrows : w.Grows
      { w with cancels := w.cancels ++ cancelled ports (jobAt jobs k.row k.seen) } :=
    ⟨fun _ h => h, fun _ h => h, subset_append_left _ _⟩
  have hsound : World.Sound jobs
      { w with cancels := w.cancels ++ cancelled ports (jobAt jobs k.row k.seen) } :=
    ⟨h.guarded, h.tasks_of_grows hgrows rfl, h.stored, fun j s hs => (h.known j s hs).mono hgrows,
      h.unique, h.started⟩
  refine hsound.proceed hk ?_
  intro job hjob
  rcases stopped_eq_ok hjob with ⟨_, hkept, hsent⟩
  refine .write (((h.tasks t k hk).1.mono hgrows).of_kept hkept) (by simp) (.inr (.inl hkept)) ?_
  intro _ _
  exact hsent.imp_right fun h => mem_append_right _ h

theorem World.Sound.commit
    (hk : w.tasks t = some k) {target : Status} {goesOn : Bool} (htodo : k.todo = .write target goesOn)
    : (w.commit t k target goesOn).Sound jobs := by
  unfold World.commit
  split
  . next hwritable =>
    rcases h.tasks t k hk with ⟨_, hdoes⟩
    rw [htodo] at hdoes
    cases hdoes with
    | write htarget hgoesOn _ _ =>
    have hgrows : ∀ rows, w.Grows { w with
        toRows := rows
        committed := w.committed ++ [(k.row, k.seen.written target (w.state k.row))] } :=
      fun _ => ⟨subset_append_left _ _, fun _ h => h, fun _ h => h⟩
    have hstored := htarget.written (h.state_known k.row) k.seen
    refine ⟨h.guarded.commit hwritable, ?_, ?_, ?_, h.unique, ?_⟩
    . refine h.tasks_of_acting (hgrows _) (fun t' ht => Untouched.commit _ _ ht) ?_
      intro k' hk'
      cases goesOn with
      | false => simp [RowLock.Rows.commit] at hk'
      | true =>
        have heq : ⟨k.row, target, .call⟩ = k' := by
          simpa [RowLock.Rows.commit] using hk'
        subst heq
        rcases hgoesOn rfl with ⟨hseen, hphase⟩
        refine ⟨htarget, .call (by simp [hphase, Phase.terminal]) (.inr hphase) fun _ => ?_⟩
        refine ⟨_, mem_append_right _ (mem_singleton_self _), ?_⟩
        simp [Status.written, column, hseen, hphase]
    . intro j
      by_cases hj : j = k.row
      . subst hj
        right
        simp [RowLock.Rows.commit]
      . have hstate := h.stored j
        simp only [RowLock.Rows.commit, Function.update_of_ne hj]
        exact hstate.imp_right fun h => mem_append_left _ h
    . intro j s hs
      rcases mem_append.mp hs with hs | hs
      . exact h.known j s hs
      . rw [mem_singleton, Prod.mk.injEq] at hs
        rw [hs.1, hs.2]
        exact hstored
    . intro r hr
      rcases h.started r hr with ⟨j, hof, hsubmitted⟩
      exact ⟨j, hof, hsubmitted.mono (hgrows _)⟩
  . exact h

theorem World.Sound.step (e : Event) : (w.step jobs e).Sound jobs := by
  cases e with
  | read t j reading => exact h.read t j reading
  | crash t => exact h.finish t
  | call t ports started =>
    unfold World.step
    dsimp only
    split
    . next hk => exact h.call hk rfl ports started
    . exact h
  | stop t ports =>
    unfold World.step
    dsimp only
    split
    . next hk => exact h.stop hk ports
    . exact h
  | commit t =>
    unfold World.step
    dsimp only
    split
    . next hk => exact h.commit hk rfl
    . exact h

omit h

theorem World.Sound.run (es : List Event) : (World.run jobs es).Sound jobs := by
  apply foldlRecOn (motive := fun w : World => w.Sound jobs)
  . exact .init
  . intro w h e _
    exact h.step e

end

end ModelGateway.Control.FineTune
