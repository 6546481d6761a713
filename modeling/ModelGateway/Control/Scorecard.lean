import ModelGateway.Control.Catalog

namespace ModelGateway.Control.FineTune

def basisPoints : Int := 10000

def pct (n : Int) : Str :=
  decimal (n / 100) ++ str "." ++ decimal (n % 100 / 10) ++ decimal (n % 10) ++ str "%"

inductive Direction where
  | higherIsBetter
  | lowerIsBetter
  deriving DecidableEq, Repr

def Direction.value : Direction → Str
  | .higherIsBetter => str "higher_is_better"
  | .lowerIsBetter => str "lower_is_better"

structure Metric where
  name : Str
  value : Int
  direction : Direction
  unit : Str
  named : name ≠ []
  deriving DecidableEq

def Metric.isWorseThan (m other : Metric) : Except Error Bool :=
  if m.name ≠ other.name then
    .error (.invalidRequest (str "cannot compare metric " ++ Control.repr m.name ++ str " against "
      ++ Control.repr other.name))
  else if m.direction ≠ other.direction then
    .error (.invalidRequest (str "metric " ++ Control.repr m.name ++ str " is " ++ m.direction.value
      ++ str " on one scorecard and " ++ other.direction.value
      ++ str " on the other; one of them is wrong"))
  else
    match m.direction with
    | .higherIsBetter => .ok (m.value < other.value)
    | .lowerIsBetter => .ok (other.value < m.value)

structure Scorecard where
  score : Int
  metrics : List Metric
  suite : Str
  suiteVersion : Str
  range : 0 ≤ score ∧ score ≤ basisPoints
  distinct : (metrics.map (·.name)).Nodup
  deriving DecidableEq

def Scorecard.metric (c : Scorecard) (name : Str) : Option Metric :=
  c.metrics.find? fun m => m.name = name

structure Decision where
  passed : Bool
  reasons : List Str
  explained : passed = true ↔ reasons = []

def Decision.summary (d : Decision) : Str :=
  if d.passed then str "passed the promotion gate" else List.intercalate (str "; ") d.reasons

structure PromotionGate where
  minScore : Int
  mustNotRegress : List Str
  range : 0 ≤ minScore ∧ minScore ≤ basisPoints
  distinct : mustNotRegress.Nodup
  deriving DecidableEq

namespace PromotionGate

def needsBaseline (g : PromotionGate) : Bool :=
  !g.mustNotRegress.isEmpty

def regression (candidate baseline : Scorecard) (name : Str) : Except Error (Option Str) :=
  match candidate.metric name, baseline.metric name with
  | some measured, some before =>
    (measured.isWorseThan before).map fun worse =>
      if worse then
        some (name ++ str " regressed from " ++ decimal before.value ++ str " to "
          ++ decimal measured.value ++ if measured.unit = [] then [] else str " " ++ measured.unit)
      else
        none
  | _, _ =>
    .ok (some (str "metric " ++ Control.repr name
      ++ str " is missing from the candidate or the baseline"))

def regressions (g : PromotionGate) (candidate : Scorecard) (baseline : Option Scorecard)
    : Except Error (List Str) :=
  match baseline with
  | none =>
    .ok [str "no baseline scorecard, so " ++ List.intercalate (str ", ") g.mustNotRegress
      ++ str " could not be checked for regression"]
  | some baseline =>
    if (candidate.suite, candidate.suiteVersion) ≠ (baseline.suite, baseline.suiteVersion) then
      .ok [str "baseline was measured by " ++ baseline.suite ++ str "@" ++ baseline.suiteVersion
        ++ str " and the candidate by " ++ candidate.suite ++ str "@" ++ candidate.suiteVersion
        ++ str ", which are not the same measurement"]
    else
      (g.mustNotRegress.mapM (regression candidate baseline)).map List.reduceOption

def decide (g : PromotionGate) (candidate : Scorecard) (baseline : Option Scorecard)
    : Except Error Decision := do
  let below :=
    if candidate.score < g.minScore then
      [str "score " ++ pct candidate.score ++ str " is below the required " ++ pct g.minScore]
    else
      []
  let regressed ← if g.needsBaseline then g.regressions candidate baseline else .ok []
  let reasons := below ++ regressed
  return ⟨reasons.isEmpty, reasons, List.isEmpty_iff⟩

def Passes (g : PromotionGate) (candidate : Scorecard) (baseline : Option Scorecard) : Prop :=
  ∃ d, g.decide candidate baseline = .ok d ∧ d.passed = true

end PromotionGate

end ModelGateway.Control.FineTune
