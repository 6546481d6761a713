import ModelGateway.Lib.Fold
import ModelGateway.Lib.Split
import ModelGateway.Pii.Transform

namespace ModelGateway.Wasm

open Except

def executionInProcess : Str := str "in_process"

structure Module where
  bytes : Str
  deriving DecidableEq, Repr

structure Guardrail where
  name : Str
  compiled : Module
  deriving DecidableEq, Repr

structure Env where
  sha256 : Str → Str
  dir : Str
  readFile : Nat → Str → Except Str Str
  compile : Nat → Str → Str → Except GoError Unit

def Module.digest (env : Env) (m : Module) : Str :=
  str "sha256:" ++ Pii.hexEncode (env.sha256 m.bytes)

def isHex (b : UInt8) : Bool :=
  (48 ≤ b && b ≤ 57) || (97 ≤ b && b ≤ 102) || (65 ≤ b && b ≤ 70)

def parseDigest (digest : Str) : Except GoError Str :=
  match List.cut 58 digest with
  | none => .error (.invalid (str "module reference " ++ digest.quote ++ str " is not a sha256 digest"))
  | some (algorithm, hexDigest) =>
    if algorithm ≠ str "sha256" ∨ hexDigest.length ≠ 64 then
      .error (.invalid (str "module reference " ++ digest.quote ++ str " is not a sha256 digest"))
    else if hexDigest.all isHex then
      .ok hexDigest
    else
      .error (.invalid (str "module reference " ++ digest.quote ++ str " is not hexadecimal"))

def load (env : Env) (n : Nat) (digest : Str) : Except GoError Str :=
  match parseDigest digest with
  | .error err => .error err
  | .ok expected =>
    let path := env.dir ++ str "/" ++ expected ++ str ".wasm"
    match env.readFile n path with
    | .error err =>
      .error (.wrap .unavailable (str "reading module " ++ digest) false (.foreign err))
    | .ok bytes =>
      let actual := Pii.hexEncode (env.sha256 bytes)
      if actual = expected then
        .ok bytes
      else
        .error (.invalid (str "module at " ++ path ++ str " hashes to sha256:" ++ actual
          ++ str ", not the admitted " ++ digest))

structure Registry where
  byDigest : GoMap Str Module
  byName : GoMap Str Guardrail

namespace Registry

def new : Registry := ⟨∅, ∅⟩

def guardrail (r : Registry) (name : Str) : Option Guardrail :=
  r.byName.lookup name

def newGuardrail (name : Str) (compiled : Module) : Except GoError Guardrail :=
  if name = [] then
    .error (.invalid (str "a WASM guardrail needs a name"))
  else
    .ok ⟨name, compiled⟩

def compiledFor (env : Env) (n : Nat) (r : Registry) (binding : GuardrailBinding)
    : Except GoError Module :=
  match r.byDigest.lookup binding.moduleDigest with
  | some compiled => .ok compiled
  | none => do
    let bytes ← load env n binding.moduleDigest
    env.compile n binding.component bytes
    return ⟨bytes⟩

def ensure (env : Env) (n : Nat) (r : Registry) (binding : GuardrailBinding)
    : Except GoError Registry :=
  let existing := r.byName.lookup binding.component
  let compiled := r.byDigest.lookup binding.moduleDigest
  if existing.isSome ∧ existing.map (·.compiled) = compiled then
    .ok r
  else do
    let kept ← compiledFor env n r binding
    let guardrail ← newGuardrail binding.component kept
    return ⟨if compiled.isSome then r.byDigest else r.byDigest.insert binding.moduleDigest kept,
      r.byName.insert binding.component guardrail⟩

def syncOne (env : Env) (n : Nat) (r : Registry) (binding : GuardrailBinding) : Registry :=
  if binding.execution = executionInProcess then
    match ensure env n r binding with
    | .ok r => r
    | .error _ => r
  else
    r

def sync (env : Env) (n : Nat) (r : Registry) : List GuardrailBinding → Registry
  | [] => r
  | binding :: rest => sync env (n + 1) (syncOne env n r binding) rest

end Registry

section

variable {env : Env} {n : Nat} {r r' : Registry} {binding : GuardrailBinding}

theorem digest_of_load {digest bytes : Str} (h : load env n digest = .ok bytes)
    : Module.digest env ⟨bytes⟩ = digest := by
  unfold load at h
  split at h
  . simp at h
  . next expected hparse =>
    dsimp only at h
    split at h
    . simp at h
    . split at h
      . next hactual =>
        rw [ok.injEq] at h
        subst h
        unfold parseDigest at hparse
        split at hparse
        . simp at hparse
        . next algorithm hexDigest hcut =>
          split at hparse
          . simp at hparse
          . next hform =>
            split at hparse
            . rw [ok.injEq] at hparse
              rw [not_or, not_not] at hform
              rw [(List.cut_eq_some_iff.mp hcut).2, hform.1, hparse, ← hactual]
              rfl
            . simp at hparse
      . simp at h

def Registry.Addressed (env : Env) (r : Registry) : Prop :=
  ∀ digest m, r.byDigest.lookup digest = some m → m.digest env = digest

theorem Registry.Addressed.compiledFor (h : r.Addressed env) {m : Module}
    (hm : Registry.compiledFor env n r binding = .ok m)
    : m.digest env = binding.moduleDigest := by
  unfold Registry.compiledFor at hm
  split at hm
  . next compiled hfound =>
    rw [ok.injEq] at hm
    subst hm
    apply h _ _ hfound
  . rw [bind_eq_ok_iff] at hm
    rcases hm with ⟨_, hload, hm⟩
    rw [bind_eq_ok_iff] at hm
    rcases hm with ⟨_, _, hm⟩
    rw [← ok.inj hm]
    apply digest_of_load hload

theorem Registry.Addressed.syncOne (h : r.Addressed env) (n : Nat) (binding : GuardrailBinding)
    : (Registry.syncOne env n r binding).Addressed env ∧
      ∀ name g, (Registry.syncOne env n r binding).guardrail name = some g →
        r.guardrail name = some g ∨
        binding.execution = executionInProcess ∧ name = binding.component ∧
          g.compiled.digest env = binding.moduleDigest := by
  have hkept : r.Addressed env ∧ ∀ name g, r.guardrail name = some g → r.guardrail name = some g ∨
      binding.execution = executionInProcess ∧ name = binding.component ∧
        g.compiled.digest env = binding.moduleDigest :=
    ⟨h, fun _ _ hg => .inl hg⟩
  unfold Registry.syncOne
  split
  . next hexecution =>
    split
    . next r' hensure =>
      unfold Registry.ensure at hensure
      dsimp only at hensure
      split at hensure
      . rw [← ok.inj hensure]
        exact hkept
      . rw [bind_eq_ok_iff] at hensure
        rcases hensure with ⟨compiled, hcompiled, hensure⟩
        rw [bind_eq_ok_iff] at hensure
        rcases hensure with ⟨guardrail, hguardrail, hensure⟩
        have hdigest := h.compiledFor hcompiled
        rw [← ok.inj hensure]
        constructor
        . intro digest m hm
          split at hm
          . apply h digest m hm
          . by_cases heq : digest = binding.moduleDigest
            . rw [heq, AList.lookup_insert, Option.some.injEq] at hm
              rw [heq, ← hm]
              exact hdigest
            . rw [AList.lookup_insert_ne heq] at hm
              apply h digest m hm
        . intro name g hg
          unfold Registry.guardrail at hg ⊢
          by_cases heq : name = binding.component
          . rw [heq, AList.lookup_insert, Option.some.injEq] at hg
            unfold Registry.newGuardrail at hguardrail
            split at hguardrail
            . simp at hguardrail
            . rw [ok.injEq] at hguardrail
              rw [← hg, ← hguardrail]
              exact .inr ⟨hexecution, heq, hdigest⟩
          . rw [AList.lookup_insert_ne heq] at hg
            exact .inl hg
    . exact hkept
  . exact hkept

end

end ModelGateway.Wasm
