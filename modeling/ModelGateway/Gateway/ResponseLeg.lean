import ModelGateway.Gateway.PipelineLemmas
import ModelGateway.Gateway.Pipeline

namespace ModelGateway.Gateway.Pipeline

variable (p : Pipeline) (ports : Ports) (snap : Snapshot)

def RequestRuns (before after : List GuardrailRun) : Prop :=
  ∃ new, after = before ++ new ∧ ∀ run ∈ new, run.input.phase = .request

theorem prepared_runs {req : Request} {w w' : World} {answer : Except Refusal Prepared}
    (hprep : p.prepare ports snap req w = (answer, w'))
    : RequestRuns w.runs w'.runs := by
  rcases p.prepare_world ports snap hprep with ⟨_, _, new, hw, hnew⟩
  rw [hw]
  exact ⟨new, rfl, hnew⟩

theorem adapted_runs {req : Request} {w w' : World} {prep : Prepared} (stream : Bool)
    (hprep : p.prepare ports snap req w = (.ok prep, w'))
    : RequestRuns w.runs (adapted (p.adapt ports prep stream w')).runs := by
  rcases p.adapt_world ports stream prep w' with ⟨_, _, _, _, _, hadapt⟩
  rw [hadapt]
  apply p.prepared_runs ports snap hprep

theorem handle_runs (req : Request) (w : World)
    : RequestRuns w.runs (p.handle ports snap req w).2.runs := by
  rcases p.handle_cases ports snap req w with
    ⟨_, w', hprep, _, _, _, hout⟩ | ⟨prep, w', err, hprep, _, _, _, _, hout⟩
      | ⟨prep, w', served, resp, hprep, _, hout⟩
  . rw [hout]
    apply p.prepared_runs ports snap hprep
  . rw [hout]
    apply p.adapted_runs ports snap false hprep
  . rcases p.settle_world ports snap prep served resp (p.adapt ports prep false w').state.2
      (adapted (p.adapt ports prep false w')) with ⟨_, _, _, _, _, hsettle⟩
    rw [hout]
    rw [hsettle]
    apply p.adapted_runs ports snap false hprep

theorem handleStream_runs (req : Request) (w : World)
    : RequestRuns w.runs (p.handleStream ports snap req w).2.runs := by
  rcases p.handleStream_cases ports snap req w with
    ⟨_, w', hprep, _, _, _, hout⟩ | ⟨prep, w', err, hprep, _, _, _, _, hout⟩
      | ⟨prep, w', served, cursor, hprep, _, hout⟩
  . rw [hout]
    apply p.prepared_runs ports snap hprep
  . rw [hout]
    apply p.adapted_runs ports snap true hprep
  . rw [hout]
    apply p.adapted_runs ports snap true hprep

end Pipeline

def Enforces (b : GuardrailBinding) : Prop :=
  b.budget.blocking = true ∧ b.budget.mode = .failClosed

def Cleared (w w' : World) (content : Str) (b : GuardrailBinding) : Prop :=
  ∃ run ∈ w'.runs.drop w.runs.length, run.input.phase = .response ∧ run.input.payload = content ∧
    b ∈ run.bindings ∧ ∃ outcome, run.answer = .ok outcome ∧ outcome.denied = false

theorem Pipeline.RequestRuns.not_cleared {w w' : World} (h : RequestRuns w.runs w'.runs)
    (content : Str) (b : GuardrailBinding)
    : ¬Cleared w w' content b := by
  rcases h with ⟨new, hnew, hrequest⟩
  rintro ⟨run, hrun, hphase, _⟩
  rw [hnew, List.drop_left] at hrun
  rw [hrequest run hrun] at hphase
  cases hphase

theorem Pipeline.RequestRuns.cleared_iff {w w' : World} (h : RequestRuns w.runs w'.runs)
    (content : Str) (bindings : List GuardrailBinding)
    : (∀ b ∈ bindings, Enforces b → Cleared w w' content b) ↔ ∀ b ∈ bindings, ¬Enforces b := by
  constructor
  . intro hcleared b hb henforces
    apply h.not_cleared content b
    apply hcleared b hb henforces
  . intro hnone b hb henforces
    exact absurd henforces (hnone b hb)

namespace Pipeline

variable (p : Pipeline) (ports : Ports) (snap : Snapshot)

theorem response_cleared_iff (req : Request) (w : World)
    : (∀ result, (p.handle ports snap req w).1 = (result, none) →
        ((∀ b ∈ snap.guardrails result.principal.tenant .response, Enforces b →
            Cleared w (p.handle ports snap req w).2 result.body b)
          ↔
        ∀ b ∈ snap.guardrails result.principal.tenant .response, ¬Enforces b)) ∧
      (∀ r, (p.handleStream ports snap req w).1 = (r, none) → ∀ chunk usage err,
        ((∀ b ∈ snap.guardrails r.principal.tenant .response, Enforces b →
            Cleared w (p.finish ports snap r usage err (p.handleStream ports snap req w).2).2 chunk b)
          ↔
        ∀ b ∈ snap.guardrails r.principal.tenant .response, ¬Enforces b)) := by
  constructor
  . intro result _
    apply (p.handle_runs ports snap req w).cleared_iff
  . intro r _ chunk usage err
    apply RequestRuns.cleared_iff
    rcases p.finish_world ports snap r usage err (p.handleStream ports snap req w).2 with
      ⟨_, _, _, _, hfinish⟩
    rw [hfinish]
    apply p.handleStream_runs ports snap req w

end Pipeline

namespace Sample

def outputScan : GuardrailBinding where
  component := str "output-scan"
  version := str "1"
  configRef := []
  execution := str "builtin"
  moduleDigest := []
  budget := ⟨0, .failClosed, true, [.response]⟩

def screenedSpec : GlobalSpec :=
  { globalSpec outside [] with defaultGuardrails := [outputScan] }

def screenedGlobal : GlobalLayer :=
  match newGlobalLayer screenedSpec with
  | .ok global => global
  | .error _ => .init screenedSpec

def screened : Snapshot :=
  match compose screenedGlobal [layer .unset .unset] with
  | .ok snap => snap
  | .error _ => ⟨screenedGlobal, ∅⟩

def censor : Ports :=
  { calm with
    guardrails := fun _ _ input =>
      .ok ⟨input.payload, input.phase = .response, str "output-scan"⟩ }

theorem response_not_screened
    : screened.Composed ∧ (pipeline.handle censor screened (request (str "hi")) .zero).1.2 = none ∧
      (pipeline.handle censor screened (request (str "hi")) .zero).1.1.body = response.body ∧
      outputScan ∈ screened.guardrails
        (pipeline.handle censor screened (request (str "hi")) .zero).1.1.principal.tenant .response ∧
      Enforces outputScan ∧
      ¬Cleared .zero (pipeline.handle censor screened (request (str "hi")) .zero).2 response.body
        outputScan := by
  refine ⟨⟨screenedSpec, screenedGlobal, [layer .unset .unset], rfl, ?_, rfl⟩, ?_, ?_, ?_,
    ⟨rfl, rfl⟩, ?_⟩
  . intro t ht
    rw [List.mem_singleton] at ht
    subst ht
    exact ⟨tenantSpec .unset .unset, rfl⟩
  . decide +kernel
  . decide +kernel
  . decide +kernel
  . apply (pipeline.handle_runs censor screened (request (str "hi")) .zero).not_cleared

end Sample

end ModelGateway.Gateway
