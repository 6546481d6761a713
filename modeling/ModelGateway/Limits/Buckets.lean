import ModelGateway.Control.AuditChain
import ModelGateway.Limits.Concurrency
import ModelGateway.Limits.Limiter

namespace ModelGateway.Limits

open Control (decimal)
open List

def window (now : Int) : Int :=
  now / (60 * second) * 60

def key (now : Int) (p : Principal) (dimension : Str) : Str :=
  str "rl:" ++ p.tenant ++ str ":" ++ p.keyID ++ str ":" ++ dimension ++ str ":"
    ++ decimal (window now)

/--
A colon inside of the second triple stands where the first one is joined.
-/
def Shifted (x y z x' y' z' : Str) : Prop :=
  Overlaps 0x3a x (y ++ 0x3a :: z) x' (y' ++ 0x3a :: z') ∨ x = x' ∧ Overlaps 0x3a y z y' z'

variable {x y z x' y' z' : Str}

theorem Shifted.ne (h : Shifted x y z x' y' z') : ¬ (x = x' ∧ y = y' ∧ z = z') := by
  rintro ⟨rfl, rfl, rfl⟩
  rcases h with ⟨u, hu, _⟩ | ⟨_, u, hu, _⟩
  . simp at hu
  . simp at hu

theorem joined_eq_joined_iff
    : x ++ 0x3a :: (y ++ 0x3a :: z) = x' ++ 0x3a :: (y' ++ 0x3a :: z')
        ↔
      (x = x' ∧ y = y' ∧ z = z') ∨ Shifted x y z x' y' z' ∨ Shifted x' y' z' x y z := by
  rw [append_cons_eq_append_cons_iff, append_cons_eq_append_cons_iff]
  unfold Shifted
  rw [@eq_comm _ x' x]
  tauto

theorem joined_inj_iff
    : (x ++ 0x3a :: (y ++ 0x3a :: z) = x' ++ 0x3a :: (y' ++ 0x3a :: z') → x = x' ∧ y = y' ∧ z = z')
        ↔
      ¬ Shifted x y z x' y' z' ∧ ¬ Shifted x' y' z' x y z := by
  rw [joined_eq_joined_iff]
  constructor
  . intro h
    constructor
    . intro hshifted
      exact hshifted.ne (h (.inr (.inl hshifted)))
    . intro hshifted
      rcases h (.inr (.inr hshifted)) with ⟨rfl, rfl, rfl⟩
      exact hshifted.ne ⟨rfl, rfl, rfl⟩
  . rintro ⟨hno, hno'⟩ (hsame | hshifted | hshifted)
    . exact hsame
    . exact absurd hshifted hno
    . exact absurd hshifted hno'

theorem str_colon : str ":" = [0x3a] := by
  decide

theorem colon_not_mem_decimal (n : Int) : 0x3a ∉ decimal n := by
  have hdigits : ∀ m : Nat, 0x3a ∉ Str.ofNat m := by
    intro m h
    exact absurd (Str.isDigit_of_mem_ofNat h).2 (by decide)
  unfold decimal
  split
  . rw [mem_append, not_or]
    exact ⟨by decide, hdigits _⟩
  . apply hdigits

theorem key_eq_key_iff {now now' : Int} {p p' : Principal} {dimension dimension' : Str}
    : key now p dimension = key now' p' dimension' ↔ window now = window now' ∧
        p.tenant ++ 0x3a :: (p.keyID ++ 0x3a :: dimension)
          =
        p'.tenant ++ 0x3a :: (p'.keyID ++ 0x3a :: dimension') := by
  have hkey : ∀ now (p : Principal) dimension, key now p dimension
      =
    str "rl:" ++ ((p.tenant ++ 0x3a :: (p.keyID ++ 0x3a :: dimension))
      ++ 0x3a :: decimal (window now)) := by
    intro now p dimension
    simp [key, str_colon]
  rw [hkey, hkey, append_cancel_left_eq]
  constructor
  . intro h
    rcases append_cons_inj_of_last (colon_not_mem_decimal _) (colon_not_mem_decimal _) h with
      ⟨hjoined, hwindow⟩
    exact ⟨Control.Audit.decimal_injective hwindow, hjoined⟩
  . rintro ⟨hwindow, hjoined⟩
    rw [hwindow, hjoined]

theorem keys_inj_iff (now now' : Int) (p p' : Principal)
    (dimension dimension' tenant tenant' requestID requestID' placeholder placeholder' : Str)
    : ((key now p dimension = key now' p' dimension' →
        (p.tenant = p'.tenant ∧ p.keyID = p'.keyID ∧ dimension = dimension') ∧ window now = window now')
        ↔
      (window now = window now' →
        ¬ Shifted p.tenant p.keyID dimension p'.tenant p'.keyID dimension' ∧
        ¬ Shifted p'.tenant p'.keyID dimension' p.tenant p.keyID dimension)) ∧
      ((Pii.vaultKey tenant requestID placeholder = Pii.vaultKey tenant' requestID' placeholder' →
        tenant = tenant' ∧ requestID = requestID' ∧ placeholder = placeholder')
        ↔
      ¬ Shifted tenant requestID placeholder tenant' requestID' placeholder' ∧
        ¬ Shifted tenant' requestID' placeholder' tenant requestID placeholder) := by
  constructor
  . rw [key_eq_key_iff, ← joined_inj_iff]
    constructor
    . intro h hwindow hjoined
      exact (h ⟨hwindow, hjoined⟩).1
    . rintro h ⟨hwindow, hjoined⟩
      exact ⟨h hwindow hjoined, hwindow⟩
  . have hkey : ∀ tenant requestID placeholder, Pii.vaultKey tenant requestID placeholder
        =
      str "pii:" ++ (tenant ++ 0x3a :: (requestID ++ 0x3a :: placeholder)) := by
      intro tenant requestID placeholder
      simp [Pii.vaultKey, str_colon]
    rw [hkey, hkey, append_cancel_left_eq, joined_inj_iff]

def caller (tenant keyID : Str) : Principal :=
  { Principal.zero with tenant := tenant, keyID := keyID, limits := ⟨60, 0, 0⟩ }

theorem keys_shared
    : key 0 (caller (str "acme") (str "eu:k1")) (str "rpm")
        =
      key 0 (caller (str "acme:eu") (str "k1")) (str "rpm") ∧
      Pii.vaultKey (str "acme") (str "eu:r1") (str "[[EMAIL_1]]")
        =
      Pii.vaultKey (str "acme:eu") (str "r1") (str "[[EMAIL_1]]") ∧
      str "acme" ≠ str "acme:eu" := by
  refine ⟨?_, ?_, ?_⟩
  . rw [key_eq_key_iff]
    exact ⟨rfl, by decide⟩
  . decide
  . decide

abbrev Buckets := GoMap Str Bucket

inductive Buckets.Event where
  | lookup (p : Principal) (now : Int) (acquired : Bool)
  | method (key : Str) (call : Bucket → Bucket)

namespace Buckets

def bucket (s : Buckets) (key : Str) : Buckets :=
  match s.lookup key with
  | some _ => s
  | none => s.insert key .zero

def asks (p : Principal) (acquired : Bool) : Bool :=
  !p.limits.unlimited && (p.limits.maxConcurrent = 0 || acquired) && 0 < p.limits.requestsPerMinute

def step (s : Buckets) : Event → Buckets
  | .lookup p now acquired => if asks p acquired then s.bucket (key now p (str "rpm")) else s
  | .method key call =>
    match s.lookup key with
    | some b => s.insert key (call b)
    | none => s

def run (events : List Event) : Buckets :=
  events.foldl step ∅

def Event.Asks (key' : Str) : Event → Prop
  | .lookup p now acquired => asks p acquired = true ∧ key' = key now p (str "rpm")
  | .method _ _ => False

theorem mem_step_iff (s : Buckets) (e : Event) (key' : Str)
    : key' ∈ s.step e ↔ e.Asks key' ∨ key' ∈ s := by
  cases e with
  | lookup p now acquired =>
    dsimp only [step, Event.Asks]
    split
    . next hasks =>
      rw [and_iff_right hasks]
      unfold bucket
      split
      . next hb =>
        refine (or_iff_right_of_imp ?_).symm
        rintro rfl
        exact AList.lookup_isSome.mp (by rw [hb]; rfl)
      . rw [AList.mem_insert]
    . next hasks => rw [or_iff_right fun h => hasks h.1]
  | method key call =>
    dsimp only [step, Event.Asks]
    rw [false_or]
    split
    . next hb =>
      rw [AList.mem_insert]
      apply or_iff_right_of_imp
      rintro rfl
      exact AList.lookup_isSome.mp (by rw [hb]; rfl)
    . rfl

theorem mem_run_iff (events : List Event) (key' : Str)
    : key' ∈ run events ↔ ∃ e ∈ events, e.Asks key' := by
  have hfold : ∀ s : Buckets, key' ∈ events.foldl step s ↔ (∃ e ∈ events, e.Asks key') ∨ key' ∈ s := by
    induction events with
    | nil => simp
    | cons e events ih =>
      intro s
      rw [foldl_cons, ih, mem_step_iff, exists_mem_cons_iff, or_assoc, or_left_comm]
  rw [run, hfold, or_iff_left (AList.notMem_empty key')]

def Event.By (principals : List Principal) : Event → Prop
  | .lookup p _ _ => p ∈ principals
  | .method _ _ => True

def Event.window? : Event → Option Int
  | .lookup p now acquired => if asks p acquired then some (window now) else none
  | .method _ _ => none

def windows (events : List Event) : List Int :=
  (events.filterMap Event.window?).dedup

theorem buckets_le (c : Nat) (principals : List Principal) (events : List Event)
    (hby : ∀ e ∈ events, e.By principals) (hwindows : (windows events).length ≤ c)
    : (run events).keys.length ≤ principals.length * c := by
  have hsub : (run events).keys ⊆ (principals ×ˢ windows events).map fun a =>
      key (a.2 / 60 * (60 * second)) a.1 (str "rpm") := by
    intro key' hkey
    rcases (mem_run_iff events key').mp hkey with ⟨e, he, hasks⟩
    cases e with
    | lookup p now acquired =>
      rcases hasks with ⟨hasks, rfl⟩
      have hwindow : window now ∈ windows events :=
        mem_dedup.mpr (mem_filterMap.mpr ⟨_, he, if_pos hasks⟩)
      refine mem_map.mpr ⟨(p, window now), mem_product.mpr ⟨hby _ he, hwindow⟩, ?_⟩
      rw [key_eq_key_iff]
      refine ⟨?_, rfl⟩
      unfold window second
      omega
    | method key call => exact hasks.elim
  have hle := (subperm_of_subset (run events).keys_nodup hsub).length_le
  rw [length_map, length_product] at hle
  exact hle.trans (Nat.mul_le_mul_left _ hwindows)

def twoMinutes : List Event := [
  .lookup (caller (str "acme") (str "k1")) 0 true, .lookup (caller (str "acme") (str "k2")) second true,
  .lookup (caller (str "acme") (str "k1")) (61 * second) true,
  .lookup (caller (str "acme") (str "k1")) (62 * second) true]

theorem buckets_le_two_minutes : (run twoMinutes).keys.length ≤ 2 * 2 := by
  apply buckets_le 2 [caller (str "acme") (str "k1"), caller (str "acme") (str "k2")]
  . simp [twoMinutes, Event.By]
  . decide

theorem buckets_unbounded
    : ¬ ∃ c, ∀ events : List Event, (∀ e ∈ events, e.By [caller (str "acme") (str "k1")]) →
        (run events).keys.length ≤ 1 * c := by
  rintro ⟨c, h⟩
  -- one call a minute, for one more minute than the bound allows
  let asked (n : Nat) : Str := key (n * (60 * second)) (caller (str "acme") (str "k1")) (str "rpm")
  let call (n : Nat) : Event := .lookup (caller (str "acme") (str "k1")) (n * (60 * second)) true
  have hle := h ((range (c + 1)).map call) (by simp [call, Event.By])
  have hnodup : ((range (c + 1)).map asked).Nodup := by
    refine nodup_range.map ?_
    intro n m hnm
    have hwindow := (key_eq_key_iff.mp hnm).1
    unfold window second at hwindow
    omega
  have hsub : (range (c + 1)).map asked ⊆ (run ((range (c + 1)).map call)).keys := by
    intro key' hkey
    rcases mem_map.mp hkey with ⟨n, hn, rfl⟩
    exact (mem_run_iff _ _).mpr ⟨call n, mem_map_of_mem hn, rfl, rfl⟩
  have hlength := (subperm_of_subset hnodup hsub).length_le
  rw [length_map, length_range] at hlength
  omega

end Buckets

end ModelGateway.Limits
