import ModelGateway.Core.Basic
import ModelGateway.Lib.TransitionSystem

/-!
This module contains the resolver of secrets: its cache, and fetches that overlap with invalidations.
-/

namespace ModelGateway.Secrets

open List TransitionSystem

structure Entry where
  secret : Str
  expiresAt : Int

structure Resolver where
  ttl : Int
  cached : GoMap Str Entry
  ttl_pos : 0 < ttl

namespace Resolver

def new (ttl : Int) : Except GoError Resolver :=
  if h : 0 < ttl then
    .ok ⟨ttl, ∅, h⟩
  else
    .error (.ofCode .internal (str "credential cache TTL must be positive"))

def lookup (r : Resolver) (ref : Str) (now : Int) : Option Str :=
  match r.cached.lookup ref with
  | some e => if now < e.expiresAt then some e.secret else none
  | none => none

def store (r : Resolver) (ref secret : Str) (now : Int) : Resolver :=
  { r with cached := r.cached.insert ref ⟨secret, now + r.ttl⟩ }

def invalidate (r : Resolver) (ref : Str) : Resolver :=
  { r with cached := r.cached.erase ref }

def invalidateAll (r : Resolver) : Resolver :=
  { r with cached := ∅ }

end Resolver

inductive Phase where
  | looking (ref : Str)
  | fetching (ref : Str)
  | fetched (ref secret : Str)
  | returned (answer : Except GoError Credential)

namespace Phase

def resolve (ref : Str) : Phase :=
  if ref = [] then .returned (.ok ⟨[], []⟩) else .looking ref

def lookup (ref : Str) : Option Str → Phase
  | some secret => .returned (.ok ⟨ref, secret⟩)
  | none => .fetching ref

def fetch (ref : Str) : Except GoError Str → Phase
  | .ok secret => .fetched ref secret
  | .error err => .returned (.error err)

end Phase

structure World where
  resolver : Resolver
  now : Int
  calls : List Phase

inductive World.Event where
  | tick (d : Nat)
  | resolve (ref : Str)
  | lookup (i : Nat)
  | fetch (i : Nat) (ref : Str) (answer : Except GoError Str)
  | store (i : Nat)
  | invalidate (ref : Str)
  | invalidateAll

namespace World

def step (w : World) : Event → Option World
  | .tick d => some { w with now := w.now + d }
  | .resolve ref => some { w with calls := w.calls ++ [.resolve ref] }
  | .lookup i =>
    match w.calls[i]? with
    | some (.looking ref) =>
      some { w with calls := w.calls.set i (.lookup ref (w.resolver.lookup ref w.now)) }
    | _ => none
  | .fetch i ref answer =>
    match w.calls[i]? with
    | some (.fetching asked) =>
      if asked = ref then some { w with calls := w.calls.set i (.fetch ref answer) } else none
    | _ => none
  | .store i =>
    match w.calls[i]? with
    | some (.fetched ref secret) =>
      some { w with
        resolver := w.resolver.store ref secret w.now
        calls := w.calls.set i (.returned (.ok ⟨ref, secret⟩)) }
    | _ => none
  | .invalidate ref => some { w with resolver := w.resolver.invalidate ref }
  | .invalidateAll => some { w with resolver := w.resolver.invalidateAll }

variable {w w' : World} {e : Event} {ref secret : Str}

theorem step_now (h : step w e = some w') : w.now ≤ w'.now ∧ w'.resolver.ttl = w.resolver.ttl := by
  unfold step at h
  grind [Resolver.store, Resolver.invalidate, Resolver.invalidateAll]

theorem fetched_of_step (h : step w e = some w') (hmem : .fetched ref secret ∈ w'.calls)
    : .fetched ref secret ∈ w.calls ∨ ∃ i, e = .fetch i ref (.ok secret) := by
  rw [mem_iff_getElem?] at hmem ⊢
  unfold step at h
  grind [Phase.resolve, Phase.lookup.eq_def, Phase.fetch.eq_def]

theorem cached_of_step {entry : Entry} (h : step w e = some w')
    (hentry : w'.resolver.cached.lookup ref = some entry)
    : w.resolver.cached.lookup ref = some entry ∨
      .fetched ref entry.secret ∈ w.calls ∧ entry.expiresAt = w.now + w.resolver.ttl := by
  unfold step at h
  grind [Resolver.store, Resolver.invalidate, Resolver.invalidateAll, AList.lookup_insert_ne,
    AList.lookup_insert, AList.lookup_erase_ne, AList.lookup_erase, AList.lookup_empty]

theorem returned_of_step {i : Nat} (href : ref ≠ []) (h : step w e = some w')
    (hi : w'.calls[i]? = some (.returned (.ok ⟨ref, secret⟩)))
    : w.calls[i]? = some (.returned (.ok ⟨ref, secret⟩)) ∨ .fetched ref secret ∈ w.calls ∨
      w.resolver.lookup ref w.now = some secret := by
  unfold step at h
  grind [Phase.resolve, Phase.lookup.eq_def, Phase.fetch.eq_def]

def Answered (es : List Event) (ref secret : Str) : Prop :=
  ∃ i, .fetch i ref (.ok secret) ∈ es

def Served (w w' : World) (ref secret : Str) : Prop :=
  ∃ i, w.calls.length ≤ i ∧ w'.calls[i]? = some (.returned (.ok ⟨ref, secret⟩))

/-- Calls that begin from now on get nothing that the store has answered before the events. -/
def Renewed (es : List Event) (w : World) (ref : Str) : Prop :=
  ∀ es' w', es'.foldlM step w = some w' → ∀ secret, Served w w' ref secret → Answered (es ++ es') ref secret

structure Fresh (A : Str → Prop) (ref : Str) (deadline : Int) (w : World) : Prop where
  cached : ∀ entry, w.resolver.cached.lookup ref = some entry →
    A entry.secret ∨ entry.expiresAt ≤ deadline
  fetched : ∀ secret, .fetched ref secret ∈ w.calls → A secret

section

variable {A : Str → Prop} {deadline : Int} {es : List Event}

theorem Fresh.next (hfresh : Fresh A ref deadline w) (h : step w e = some w')
    (hA : ∀ secret, Answered [e] ref secret → A secret)
    : Fresh A ref deadline w' := by
  constructor
  . intro entry hentry
    rcases cached_of_step h hentry with hold | ⟨hfetched, _⟩
    . exact hfresh.cached entry hold
    . exact .inl (hfresh.fetched _ hfetched)
  . intro secret hmem
    rcases fetched_of_step h hmem with hold | ⟨i, rfl⟩
    . exact hfresh.fetched secret hold
    . exact hA secret ⟨i, mem_cons_self⟩

theorem Fresh.lookup (hfresh : Fresh A ref deadline w) (hnow : deadline ≤ w.now)
    (h : w.resolver.lookup ref w.now = some secret)
    : A secret := by
  unfold Resolver.lookup at h
  split at h
  . next entry hentry =>
    rw [Option.ite_none_right_eq_some] at h
    rcases h with ⟨hlive, h⟩
    rw [← Option.some.inj h]
    apply (hfresh.cached entry hentry).resolve_right
    omega
  . contradiction

theorem Fresh.run (hfresh : Fresh A ref deadline w) (hrun : es.foldlM step w = some w')
    (hA : ∀ secret, Answered es ref secret → A secret)
    : Fresh A ref deadline w' ∧ (ref ≠ [] → deadline ≤ w.now →
        ∀ secret, Served w w' ref secret → A secret) := by
  have hone : ∀ e ∈ es, ∀ secret, Answered [e] ref secret → A secret := by
    rintro e he secret ⟨i, hi⟩
    rw [mem_singleton] at hi
    exact hA secret ⟨i, hi ▸ he⟩
  -- what calls return is fresh as long as the entries that are not have expired
  have hinv := invariant_of_foldlM hrun (fun v => Fresh A ref deadline v ∧ w.now ≤ v.now ∧
    (ref ≠ [] → deadline ≤ w.now → ∀ secret, Served w v ref secret → A secret)) ?_ ?_
  . exact ⟨hinv.1, hinv.2.2⟩
  . rintro v e v' he ⟨hv, hnow, hserved⟩ h
    refine ⟨hv.next h (hone e he), hnow.trans (step_now h).1, ?_⟩
    rintro href hdeadline secret ⟨i, hi, hsome⟩
    rcases returned_of_step href h hsome with hold | hfetched | hhit
    . exact hserved href hdeadline secret ⟨i, hi, hold⟩
    . exact hv.fetched secret hfetched
    . exact hv.lookup (hdeadline.trans hnow) hhit
  . refine ⟨hfresh, le_rfl, ?_⟩
    rintro _ _ secret ⟨i, hi, hsome⟩
    rw [getElem?_eq_none hi] at hsome
    contradiction

theorem renewed_of_fresh (href : ref ≠ []) (hnow : deadline ≤ w.now)
    (h : ∀ A : Str → Prop, (∀ secret, Answered es ref secret → A secret) → Fresh A ref deadline w)
    : Renewed es w ref := by
  intro es' w' hrun
  refine ((h (Answered (es ++ es') ref) ?_).run hrun ?_).2 href hnow
  . rintro secret ⟨i, hi⟩
    exact ⟨i, mem_append_left _ hi⟩
  . rintro secret ⟨i, hi⟩
    exact ⟨i, mem_append_right _ hi⟩

theorem not_renewed_of_fetched (href : ref ≠ []) (hmem : .fetched ref secret ∈ w.calls)
    (hes : ¬Answered es ref secret)
    : ¬Renewed es w ref := by
  intro h
  rcases getElem?_of_mem hmem with ⟨i, hi⟩
  have hlive := w.resolver.ttl_pos
  rcases h [.store i, .resolve ref, .lookup w.calls.length] ⟨w.resolver.store ref secret w.now, w.now,
      w.calls.set i (.returned (.ok ⟨ref, secret⟩)) ++ [.returned (.ok ⟨ref, secret⟩)]⟩
      (by simp [step, hi, Phase.resolve, href, Resolver.lookup, Resolver.store, hlive, Phase.lookup])
      secret ⟨w.calls.length, le_rfl, by simp⟩ with ⟨j, hj⟩
  apply hes ⟨j, ?_⟩
  simpa using hj

end

theorem expiresAt_le {ttl now : Int} {r : Resolver} (hnew : Resolver.new ttl = .ok r)
    (hw : Reaches step ⟨r, now, []⟩ w) {entry : Entry}
    (hentry : w.resolver.cached.lookup ref = some entry)
    : entry.expiresAt ≤ w.now + w.resolver.ttl := by
  revert entry
  apply hw.invariant fun w => ∀ {entry}, w.resolver.cached.lookup ref = some entry →
    entry.expiresAt ≤ w.now + w.resolver.ttl
  . intro v e v' hv h entry hentry
    rcases step_now h with ⟨hnow, httl⟩
    rw [httl]
    rcases cached_of_step h hentry with hold | ⟨_, heq⟩
    . have := hv hold
      omega
    . omega
  . intro entry hentry
    unfold Resolver.new at hnew
    split at hnew
    . rw [← Except.ok.inj hnew] at hentry
      contradiction
    . contradiction

/-- An invalidation is effective unless an answer was about to be cached. -/
theorem invalidation_effective_iff (w : World) (href : ref ≠ [])
    (he : e = .invalidate ref ∨ e = .invalidateAll)
    : (∀ w₁, step w e = some w₁ → Renewed [] w₁ ref) ↔ ∀ secret, .fetched ref secret ∉ w.calls := by
  have hstep : ∃ w₁, step w e = some w₁ ∧ w₁.calls = w.calls ∧
      w₁.resolver.cached.lookup ref = none := by
    rcases he with rfl | rfl
    . exact ⟨_, rfl, rfl, AList.lookup_erase _ _⟩
    . exact ⟨_, rfl, rfl, rfl⟩
  rcases hstep with ⟨w₁, hstep, hcalls, hgone⟩
  rw [hstep, ← hcalls]
  constructor
  . intro h secret hmem
    apply not_renewed_of_fetched href hmem _ (h w₁ rfl)
    rintro ⟨_, hi⟩
    contradiction
  . rintro hnone _ ⟨⟩
    apply renewed_of_fresh href (le_refl w₁.now)
    intro A _
    constructor
    . intro entry hentry
      rw [hgone] at hentry
      contradiction
    . intro secret hmem
      exact absurd hmem (hnone secret)

theorem invalidation_not_effective
    : ¬∀ w₁, step ⟨⟨1, ∅, Int.one_pos⟩, 0, [.fetched [0] []]⟩ .invalidateAll = some w₁ →
        Renewed [] w₁ [0] :=
  fun h => (invalidation_effective_iff _ (cons_ne_nil _ _) (.inr rfl)).mp h [] mem_cons_self

/-- So is a rotation, once the TTL has passed. -/
theorem rotation_effective_iff {ttl now : Int} {r : Resolver} (hnew : Resolver.new ttl = .ok r)
    (hw : Reaches step ⟨r, now, []⟩ w) (href : ref ≠ [])
    : (∀ es w₁, es.foldlM step w = some w₁ → w.now + w.resolver.ttl ≤ w₁.now → Renewed es w₁ ref)
        ↔
      ∀ secret, .fetched ref secret ∉ w.calls := by
  constructor
  . intro h secret hmem
    refine not_renewed_of_fetched (w := { w with now := w.now + w.resolver.ttl.toNat }) href hmem ?_
      (h [.tick w.resolver.ttl.toNat] _ rfl (by simp))
    rintro ⟨_, hi⟩
    simp at hi
  . intro hnone es w₁ hrun hnow
    apply renewed_of_fresh href hnow
    intro A hA
    have hfresh : Fresh A ref (w.now + w.resolver.ttl) w := by
      constructor
      . intro entry hentry
        exact .inr (expiresAt_le hnew hw hentry)
      . intro secret hmem
        exact absurd hmem (hnone secret)
    exact (hfresh.run hrun hA).1

theorem rotation_not_effective
    : ¬∀ es w₁, es.foldlM step ⟨⟨1, ∅, Int.one_pos⟩, 0, [.fetched [0] []]⟩ = some w₁ → 0 + 1 ≤ w₁.now →
        Renewed es w₁ [0] :=
  fun h => (rotation_effective_iff (show Resolver.new 1 = .ok _ from rfl)
    (.of_foldlM [.resolve [0], .lookup 0, .fetch 0 [0] (.ok [])] rfl) (cons_ne_nil _ _)).mp h [] mem_cons_self

end World

end ModelGateway.Secrets
