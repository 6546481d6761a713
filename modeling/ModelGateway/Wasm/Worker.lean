import ModelGateway.Gateway.Pipeline
import ModelGateway.Snapshot.HolderLemmas
import ModelGateway.Wasm.Registry

/-!
This module contains the worker that follows snapshots and runs their guardrails from compiled modules.
-/

namespace ModelGateway.Wasm

open List

inductive Component where
  | builtin (name : Str)
  | inProcess (g : Guardrail)

def staticGuardrail (builtins : List Str) (name : Str) : Option Component :=
  if builtins.contains name then some (.builtin name) else none

def compositeGuardrail (registries : List (Str → Option Component)) (name : Str) : Option Component :=
  registries.findSome? (· name)

def resolve (builtins : List Str) (r : Registry) : Str → Option Component :=
  compositeGuardrail [staticGuardrail builtins, fun name => (r.guardrail name).map .inProcess]

structure Worker where
  holder : Holder
  registry : Registry
  pending : List GuardrailBinding
  tick : Nat

inductive Event where
  | holder (e : Holder.Event)
  | sync

namespace Worker

variable (env : Env)

def start (initial : Snapshot) : Worker where
  holder := .new initial
  registry := .sync env 0 .new initial.allGuardrails
  pending := []
  tick := initial.allGuardrails.length

def step (w : Worker) : Event → Option Worker
  | .sync =>
    match w.pending with
    | [] => none
    | binding :: rest =>
      some { w with
        registry := .syncOne env w.tick w.registry binding
        pending := rest
        tick := w.tick + 1 }
  | .holder (.swap (some next)) =>
    (w.holder.step (.swap (some next))).map fun h =>
      { w with
        holder := h
        pending := (Holder.Writer.next h.writer).elim w.pending (·.allGuardrails) }
  | .holder .swapPrevious =>
    -- `OnApply` runs before the slots change
    if w.pending = [] then
      (w.holder.step .swapPrevious).map fun h => { w with holder := h }
    else
      none
  | .holder e => (w.holder.step e).map fun h => { w with holder := h }

def Applied (w : Worker) (s : Snapshot) : Prop :=
  (∃ g, g < w.holder.count ∧ w.holder.snap g = s) ∨ Holder.Writer.next w.holder.writer = some s

/-- No two in-process bindings of the applied snapshots have one name and different modules. -/
def Uniform (w : Worker) : Prop :=
  ∀ s s' b b', w.Applied s → w.Applied s' → b ∈ s.allGuardrails → b' ∈ s'.allGuardrails →
    b.execution = executionInProcess → b'.execution = executionInProcess →
    b.component = b'.component → b.moduleDigest = b'.moduleDigest

structure Inv (w : Worker) : Prop where
  addressed : w.registry.Addressed env
  bound : ∀ name g, w.registry.guardrail name = some g →
    ∃ s b, w.Applied s ∧ b ∈ s.allGuardrails ∧ b.execution = executionInProcess ∧
      b.component = name ∧ g.compiled.digest env = b.moduleDigest
  pending : ∀ b ∈ w.pending, ∃ s, w.Applied s ∧ b ∈ s.allGuardrails
  holder : w.holder.Inv

variable {env} {w' : Worker}

theorem step_cases {w : Worker} {e : Event} (he : w.step env e = some w')
    : (∃ binding rest, w.pending = binding :: rest ∧ w' = { w with
          registry := .syncOne env w.tick w.registry binding
          pending := rest
          tick := w.tick + 1 }) ∨
      (∃ e, w.holder.step e = some w'.holder ∧ w'.registry = w.registry ∧ (w'.pending = w.pending ∨
          ∃ next, Holder.Writer.next w'.holder.writer = some next ∧
            w'.pending = next.allGuardrails)) := by
  unfold step at he
  split at he
  . split at he
    . simp at he
    . next binding rest hpending =>
      exact .inl ⟨binding, rest, hpending, (Option.some.inj he).symm⟩
  . next next =>
    right
    rcases Option.map_eq_some_iff.mp he with ⟨h, hstep, rfl⟩
    refine ⟨.swap (some next), hstep, rfl, ?_⟩
    cases Holder.Writer.next h.writer with
    | none => exact .inl rfl
    | some applied => exact .inr ⟨applied, rfl, rfl⟩
  . split at he
    . rcases Option.map_eq_some_iff.mp he with ⟨h, hstep, rfl⟩
      exact .inr ⟨_, hstep, rfl, .inl rfl⟩
    . simp at he
  . rcases Option.map_eq_some_iff.mp he with ⟨h, hstep, rfl⟩
    exact .inr ⟨_, hstep, rfl, .inl rfl⟩

theorem Applied.of_step {w : Worker} {e : Holder.Event} (he : w.holder.step e = some w'.holder)
    {s : Snapshot} (hs : w.Applied s)
    : w'.Applied s := by
  unfold Applied at hs ⊢
  generalize w'.holder = h' at he ⊢
  rcases Holder.step_serving he with
    hkeeps | ⟨next, _, hidle, _, rfl⟩ | ⟨_, next, _, hwriter, rfl⟩
  . rw [hkeeps.count, hkeeps.snap, hkeeps.next]
    exact hs
  . left
    rcases hs with hs | hs
    . exact hs
    . rw [hidle] at hs
      cases hs
  . left
    rcases hs with ⟨g, hg, hs⟩ | hs
    . refine ⟨g, Nat.lt_succ_of_lt hg, ?_⟩
      simp only [Holder.publish, Function.update_of_ne (Nat.ne_of_lt hg)]
      exact hs
    . rw [hwriter] at hs
      refine ⟨w.holder.count, Nat.lt_succ_self _, ?_⟩
      simp only [Holder.publish, Function.update_self]
      exact Option.some.inj hs

theorem Inv.step {w : Worker} (hinv : w.Inv env) {e : Event} (he : w.step env e = some w')
    : w'.Inv env := by
  rcases step_cases he with
    ⟨binding, rest, hpending, rfl⟩ | ⟨e, hstep, hregistry, hpending⟩
  . rcases hinv.addressed.syncOne w.tick binding with ⟨haddressed, hbound⟩
    refine ⟨haddressed, ?_, ?_, hinv.holder⟩
    . intro name g hg
      rcases hbound name g hg with hg | ⟨hexecution, rfl, hdigest⟩
      . apply hinv.bound name g hg
      . rcases hinv.pending binding (by simp [hpending]) with ⟨s, hs, hmem⟩
        exact ⟨s, binding, hs, hmem, hexecution, rfl, hdigest⟩
    . intro b hb
      apply hinv.pending b
      rw [hpending]
      exact mem_cons_of_mem _ hb
  . have happlied : ∀ {s}, w.Applied s → w'.Applied s := fun hs => hs.of_step hstep
    refine ⟨?_, ?_, ?_, hinv.holder.step hstep⟩
    . rw [hregistry]
      exact hinv.addressed
    . intro name g hg
      rw [hregistry] at hg
      rcases hinv.bound name g hg with ⟨s, b, hs, hb⟩
      exact ⟨s, b, happlied hs, hb⟩
    . intro b hb
      rcases hpending with hpending | ⟨next, hnext, hpending⟩
      . rw [hpending] at hb
        rcases hinv.pending b hb with ⟨s, hs, hmem⟩
        exact ⟨s, happlied hs, hmem⟩
      . rw [hpending] at hb
        exact ⟨next, .inr hnext, hb⟩

theorem sync_addressed {r : Registry} (h : r.Addressed env) (n : Nat)
    (bindings : List GuardrailBinding)
    : (Registry.sync env n r bindings).Addressed env ∧
      ∀ name g, (Registry.sync env n r bindings).guardrail name = some g →
        r.guardrail name = some g ∨
        ∃ b ∈ bindings, b.execution = executionInProcess ∧ b.component = name ∧
          g.compiled.digest env = b.moduleDigest := by
  induction bindings generalizing n r with
  | nil => exact ⟨h, fun _ _ hg => .inl hg⟩
  | cons binding rest ih =>
    rcases h.syncOne n binding with ⟨haddressed, hone⟩
    rcases ih haddressed (n + 1) with ⟨hrest, hbound⟩
    refine ⟨hrest, ?_⟩
    intro name g hg
    rcases hbound name g hg with hg | ⟨b, hb, hfrom⟩
    . rcases hone name g hg with hg | ⟨hexecution, hname, hdigest⟩
      . exact .inl hg
      . exact .inr ⟨binding, mem_cons_self, hexecution, hname.symm, hdigest⟩
    . exact .inr ⟨b, mem_cons_of_mem _ hb, hfrom⟩

theorem start_inv (initial : Snapshot) : (start env initial).Inv env := by
  have hnew : Registry.new.Addressed env := by simp [Registry.Addressed, Registry.new]
  rcases sync_addressed hnew 0 initial.allGuardrails with ⟨haddressed, hbound⟩
  refine ⟨haddressed, ?_, by simp [start], Holder.new_inv initial⟩
  intro name g hg
  rcases hbound name g hg with hg | ⟨b, hb, hexecution, hname, hdigest⟩
  . simp [Registry.guardrail, Registry.new] at hg
  . exact ⟨initial, b, .inl ⟨0, Nat.zero_lt_one, rfl⟩, hb, hexecution, hname, hdigest⟩

end Worker

theorem mem_allGuardrails {s : Snapshot} {tenant : Str} {phase : Phase} {b : GuardrailBinding}
    (h : b ∈ s.guardrails tenant phase)
    : b ∈ s.allGuardrails := by
  unfold Snapshot.allGuardrails
  have hb := (mem_filter.mp h).1
  rw [mem_append]
  split at hb
  . next layer hlayer =>
    split at hb
    . exact .inl hb
    . right
      rw [mem_flatMap]
      exact ⟨_, AList.mem_lookup_iff.mp hlayer, hb⟩
  . exact .inl hb

theorem resolve_inProcess_iff {builtins : List Str} {r : Registry} {name : Str} {g : Guardrail}
    : resolve builtins r name = some (.inProcess g)
        ↔
      name ∉ builtins ∧ r.guardrail name = some g := by
  unfold resolve compositeGuardrail staticGuardrail
  by_cases hname : name ∈ builtins
  . simp [hname]
  . simp [hname]

theorem runs_own_module (env : Env) (builtins : List Str) (initial : Snapshot) {w : Worker}
    (hreach : TransitionSystem.Reaches (Worker.step env) (.start env initial) w)
    (huniform : w.Uniform)
    : ∀ l ∈ w.holder.leases, Holder.Lease.unreleased l = true → ∀ tenant phase,
        ∀ b ∈ (w.holder.snap l.gen).guardrails tenant phase, b.execution = executionInProcess →
          (∀ g, resolve builtins w.registry b.component = some (.inProcess g) →
            g.compiled.digest env = b.moduleDigest) ∧
          ((w.registry.guardrail b.component).isSome → b.component ∉ builtins →
            ∃ g, resolve builtins w.registry b.component = some (.inProcess g) ∧
              g.compiled.digest env = b.moduleDigest) := by
  have hinv : w.Inv env :=
    hreach.invariant (Worker.Inv env) (fun _ _ _ hinv he => hinv.step he) (Worker.start_inv initial)
  intro l hl _ tenant phase b hb hexecution
  have happlied : w.Applied (w.holder.snap l.gen) := .inl ⟨l.gen, hinv.holder.leases l hl, rfl⟩
  have hdigest : ∀ g, w.registry.guardrail b.component = some g →
      g.compiled.digest env = b.moduleDigest := by
    intro g hg
    rcases hinv.bound b.component g hg with ⟨s, b', hs, hb', hexecution', hname, hdigest⟩
    rw [hdigest]
    apply huniform s (w.holder.snap l.gen) b' b hs happlied hb' (mem_allGuardrails hb) hexecution'
      hexecution hname
  constructor
  . intro g hg
    apply hdigest g (resolve_inProcess_iff.mp hg).2
  . intro hloaded hbuiltin
    rcases Option.isSome_iff_exists.mp hloaded with ⟨g, hg⟩
    exact ⟨g, resolve_inProcess_iff.mpr ⟨hbuiltin, hg⟩, hdigest g hg⟩

namespace Sample

open Gateway.Sample

def paddedHash (bytes : Str) : Str :=
  (bytes ++ replicate 32 0).take 32

def digestOf (bytes : Str) : Str :=
  str "sha256:" ++ Pii.hexEncode (paddedHash bytes)

def env : Env where
  sha256 := paddedHash
  dir := str "modules"
  readFile := fun _ path =>
    if path = str "modules/" ++ Pii.hexEncode (paddedHash [1]) ++ str ".wasm" then
      .ok [1]
    else
      .ok [2]
  compile := fun _ _ _ => .ok ()

def scanner (bytes : Str) : GuardrailBinding where
  component := str "scanner"
  version := str "1"
  configRef := []
  execution := executionInProcess
  moduleDigest := digestOf bytes
  budget := ⟨0, .failClosed, true, []⟩

def scannedLayer (bytes : Str) : TenantLayer :=
  match newTenantLayer { tenantSpec .unset .unset with guardrails := [scanner bytes] } with
  | .ok layer => layer
  | .error _ => .init (tenantSpec .unset .unset)

def scanned (bytes : Str) : Snapshot :=
  match compose (global outside []) [scannedLayer bytes] with
  | .ok snap => snap
  | .error _ => ⟨global [] [], ∅⟩

theorem scanned_composed {bytes : Str}
    (hlayer : newTenantLayer { tenantSpec .unset .unset with guardrails := [scanner bytes] }
      = .ok (scannedLayer bytes))
    (hcompose : compose (global outside []) [scannedLayer bytes] = .ok (scanned bytes))
    : (scanned bytes).Composed := by
  refine ⟨globalSpec outside [], _, _, rfl, ?_, hcompose⟩
  intro layer h
  rw [mem_singleton] at h
  subst h
  exact ⟨_, hlayer⟩

def acquired : List Event :=
  [.holder (.load 0), .holder (.readRefs 0), .holder (.compareAndSwap 0)]

theorem runs_other_module
    : (scanned [1]).Composed ∧ (scanned [2]).Composed ∧
      ∃ w, TransitionSystem.Reaches (Worker.step env) (.start env (scanned [1])) w ∧
        w.holder.snap 0 = scanned [1] ∧
        (∃ l ∈ w.holder.leases, l.gen = 0 ∧ Holder.Lease.unreleased l = true) ∧
        scanner [1] ∈ (scanned [1]).guardrails (str "acme") .request ∧
        (scanner [1]).execution = executionInProcess ∧
        ∃ g, resolve [] w.registry (scanner [1]).component = some (.inProcess g) ∧
          g.compiled.digest env = digestOf [2] ∧ digestOf [2] ≠ (scanner [1]).moduleDigest := by
  refine ⟨scanned_composed rfl rfl, scanned_composed rfl rfl, _,
    .of_foldlM (acquired ++ [.holder (.swap (some (scanned [2]))), .sync]) rfl, rfl, ?_, ?_, rfl,
    ⟨str "scanner", ⟨[2]⟩⟩, ?_, rfl, ?_⟩
  . exact ⟨⟨0, .held⟩, mem_singleton_self _, rfl, rfl⟩
  . decide +kernel
  . rw [resolve_inProcess_iff]
    refine ⟨by simp, ?_⟩
    decide +kernel
  . decide +kernel

def filtered : Snapshot :=
  match newTenantLayer { tenantSpec .unset .unset with
      guardrails := [scanner [1], { scanner [2] with component := str "filter" }] } with
  | .error _ => scanned [1]
  | .ok layer =>
    match compose (global outside []) [layer] with
    | .ok snap => snap
    | .error _ => scanned [1]

def swapped : List Event := acquired ++ [.holder (.swap (some filtered)), .sync, .sync]

theorem runs_own_module_swapped
    : ∃ w, swapped.foldlM (Worker.step env) (.start env (scanned [1])) = some w ∧
        (w.registry.guardrail (str "filter")).isSome = true ∧
        ∃ g, resolve [] w.registry (scanner [1]).component = some (.inProcess g) ∧
          g.compiled.digest env = (scanner [1]).moduleDigest := by
  have hrun : ∃ w, swapped.foldlM (Worker.step env) (.start env (scanned [1])) = some w ∧
      w.holder.count = 1 ∧ w.holder.snap 0 = scanned [1] ∧
      Holder.Writer.next w.holder.writer = some filtered ∧ w.holder.leases = [⟨0, .held⟩] ∧
      (w.registry.guardrail (str "filter")).isSome = true ∧
      (w.registry.guardrail (scanner [1]).component).isSome = true :=
    ⟨_, rfl, rfl, rfl, rfl, rfl, by decide +kernel, by decide +kernel⟩
  rcases hrun with ⟨w, hw, hcount, hsnap, hnext, hleases, hfilter, hscanner⟩
  have happlied : ∀ s, w.Applied s → s = scanned [1] ∨ s = filtered := by
    rintro s (⟨g, hg, hs⟩ | hs)
    . rw [← hs, ← hsnap, show g = 0 by omega]
      exact .inl rfl
    . rw [hnext] at hs
      exact .inr (Option.some.inj hs).symm
  have hsame : ∀ b ∈ (scanned [1]).allGuardrails ++ filtered.allGuardrails,
      ∀ b' ∈ (scanned [1]).allGuardrails ++ filtered.allGuardrails,
      b.component = b'.component → b.moduleDigest = b'.moduleDigest := by
    decide +kernel
  have hmem : ∀ s b, w.Applied s → b ∈ s.allGuardrails →
      b ∈ (scanned [1]).allGuardrails ++ filtered.allGuardrails := by
    intro s b hs hb
    rcases happlied s hs with rfl | rfl
    . exact mem_append_left _ hb
    . exact mem_append_right _ hb
  have huniform : w.Uniform := by
    intro s s' b b' hs hs' hb hb' _ _ hname
    exact hsame b (hmem s b hs hb) b' (hmem s' b' hs' hb') hname
  refine ⟨w, hw, hfilter, ?_⟩
  have hown := runs_own_module env [] (scanned [1]) (.of_foldlM swapped hw) huniform ⟨0, .held⟩
    (by simp [hleases]) rfl (str "acme") .request (scanner [1])
    (by rw [hsnap]; decide +kernel) rfl
  exact hown.2 hscanner (by simp)

end Sample

end ModelGateway.Wasm
