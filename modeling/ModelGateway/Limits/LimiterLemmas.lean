import ModelGateway.Lib.Totals
import ModelGateway.Limits.Limiter

namespace ModelGateway.Limits

open List
open Option (some)

theorem Bucket.take_remaining (b : Bucket) (now : Int) (hb : 0 ≤ b.remaining)
    : 0 ≤ (b.take now).2.2.remaining ∧
      ((b.take now).1.toNat : Int) + (b.take now).2.2.remaining ≤ b.remaining := by
  unfold Bucket.take
  dsimp only
  -- the lease has expired or not, and in both cases there is a permit or none
  split
  . simp_all
  . split <;> simp_all
    omega

theorem Bucket.beginRefill_remaining (b : Bucket) : b.beginRefill.2.remaining = b.remaining := by
  unfold Bucket.beginRefill
  split <;> rfl

theorem Bucket.grant_remaining (b : Bucket) {permits : Int} (expiresAt : Int) (h : 0 ≤ permits)
    : (b.grant permits expiresAt).remaining = b.remaining + permits := by
  unfold Bucket.grant
  dsimp only
  split
  . rfl
  . omega

theorem leaseFrom_ok (lease : LeaseSize) (limit used : Int)
    : leaseFrom lease limit (.ok (used + lease)) = min limit (used + lease) - min limit used := by
  unfold leaseFrom
  dsimp only
  split
  . omega
  . split
    . omega
    . omega

def Phase.pending : Phase → Int
  | .leased _ granted => granted
  | _ => 0

namespace Window

variable {ω : Type*} [Fintype ω] {limit : Nat} {lease : ω → LeaseSize}

def remaining (s : Window ω) : Int :=
  ∑ w, (s.buckets w).remaining

def pending (s : Window ω) : Int :=
  (s.callers.map (·.phase.pending)).sum

structure Inv (limit : Nat) (s : Window ω) : Prop where
  remaining : ∀ w, 0 ≤ (s.buckets w).remaining
  pending : ∀ c ∈ s.callers, 0 ≤ c.phase.pending
  counter : s.counter = s.increments.sum
  leases : s.leases.sum = min (limit : Int) s.increments.sum
  spent : s.taken + s.remaining + s.pending ≤ s.leases.sum

theorem new_inv : (new : Window ω).Inv limit where
  remaining := by simp [new, Bucket.zero]
  pending := by simp [new]
  counter := rfl
  leases := by simp [new]
  spent := by simp [new, Window.remaining, Window.pending, Bucket.zero]

section

variable {s : Window ω} (hinv : s.Inv limit)

include hinv

theorem Inv.remaining_nonneg : 0 ≤ s.remaining :=
  Finset.sum_nonneg fun w _ => hinv.remaining w

theorem Inv.pending_nonneg : 0 ≤ s.pending := by
  apply sum_nonneg
  intro x hx
  rw [mem_map] at hx
  rcases hx with ⟨c, hc, rfl⟩
  apply hinv.pending c hc

theorem Inv.call (w : ω) : Inv limit { s with callers := s.callers ++ [⟨w, .started⟩] } := by
  refine ⟨hinv.remaining, ?_, hinv.counter, hinv.leases, ?_⟩
  . intro c hc
    rcases mem_append.mp hc with hc | hc
    . apply hinv.pending c hc
    . rw [mem_singleton.mp hc]
      apply Int.le_refl 0
  . have hspent := hinv.spent
    unfold Window.pending at hspent ⊢
    rw [map_append, sum_append, map_singleton, sum_singleton]
    change s.taken + s.remaining + (_ + 0) ≤ s.leases.sum
    omega

theorem Inv.incr {i : Nat} {w : ω} {taken : Bool} (hi : s.callers[i]? = some ⟨w, .refilling taken⟩)
    : Inv limit ((s.incr (lease w) (leaseFrom (lease w) limit (.ok (s.counter + lease w)))).setPhase i w
        (.leased taken (leaseFrom (lease w) limit (.ok (s.counter + lease w))))) := by
  have hlease := leaseFrom_ok (lease w) limit s.counter
  have hpos := (lease w).property
  generalize leaseFrom (lease w) limit (.ok (s.counter + lease w)) = granted at hlease ⊢
  refine ⟨hinv.remaining, ?_, ?_, ?_, ?_⟩
  . intro c hc
    rcases mem_or_eq_of_mem_set hc with hc | rfl
    . apply hinv.pending c hc
    . unfold Phase.pending
      dsimp only
      omega
  . unfold Window.incr setPhase
    rw [sum_append, sum_singleton, hinv.counter]
  . unfold Window.incr setPhase
    rw [sum_append, sum_append, sum_singleton, sum_singleton]
    rw [hinv.leases, hlease, hinv.counter]
    omega
  . have hcallers := Totals.sum_set_add hi (·.phase.pending) ⟨w, .leased taken granted⟩
    have hspent := hinv.spent
    unfold Window.remaining Window.pending at hspent ⊢
    unfold Window.incr setPhase
    rw [sum_append, sum_singleton]
    change _ + 0 = _ + granted at hcallers
    dsimp only
    omega

variable [DecidableEq ω]

theorem Inv.move {i : Nat} {w : ω} {p p' : Phase} {b : Bucket} {k : Nat}
    (hi : s.callers[i]? = some ⟨w, p⟩) (hb : 0 ≤ b.remaining) (hp : 0 ≤ p'.pending)
    (hsum : k + b.remaining + p'.pending ≤ (s.buckets w).remaining + p.pending)
    : Inv limit ({ s.setBucket w b with taken := s.taken + k }.setPhase i w p') where
  remaining := by
    intro v
    unfold setBucket setPhase
    dsimp only
    by_cases hv : v = w
    . subst hv
      rw [Function.update_self]
      exact hb
    . rw [Function.update_of_ne hv]
      apply hinv.remaining v
  pending := by
    intro c hc
    rcases mem_or_eq_of_mem_set hc with hc | rfl
    . apply hinv.pending c hc
    . exact hp
  counter := hinv.counter
  leases := hinv.leases
  spent := by
    have hbuckets := Totals.sum_update_add s.buckets (·.remaining) w b
    have hcallers := Totals.sum_set_add hi (·.phase.pending) ⟨w, p'⟩
    have hspent := hinv.spent
    unfold Window.remaining Window.pending at hspent ⊢
    unfold setBucket setPhase
    dsimp only at hbuckets hcallers ⊢
    push_cast
    omega

theorem Inv.takeFrom {i : Nat} {w : ω} {p p' : Phase} (now : Int)
    (hi : s.callers[i]? = some ⟨w, p⟩) (hp : p.pending = 0) (hp' : p'.pending = 0)
    : Inv limit ((s.takeFrom w now).setPhase i w p') := by
  rcases Bucket.take_remaining (s.buckets w) now (hinv.remaining w) with ⟨hb, hle⟩
  apply hinv.move hi hb
  . omega
  . omega

theorem Inv.step {e : Event ω} {s' : Window ω} (he : s.step limit lease e = some s')
    : s'.Inv limit := by
  unfold Window.step at he
  cases e with
  | call w =>
    rw [← some.inj he]
    apply hinv.call w
  | take i now =>
    dsimp only at he
    split at he
    . next hi =>
      rw [← some.inj he]
      apply hinv.takeFrom now hi rfl
      split <;> rfl
    . simp at he
  | beginRefill i =>
    dsimp only at he
    split at he
    . next w taken hi =>
      rw [← some.inj he]
      have hb := (s.buckets w).beginRefill_remaining
      have hpos := hinv.remaining w
      apply hinv.move hi (k := 0) (by omega)
      all_goals split <;> dsimp only [Phase.pending] <;> omega
    . simp at he
  | incr i =>
    dsimp only at he
    split at he
    . next hi =>
      rw [← some.inj he]
      apply hinv.incr hi
    . simp at he
  | grant i windowEnd =>
    dsimp only at he
    split at he
    . next w taken granted hi =>
      rw [← some.inj he]
      have hgranted : 0 ≤ granted := hinv.pending _ (mem_of_getElem? hi)
      have hb := (s.buckets w).grant_remaining windowEnd hgranted
      have hpos := hinv.remaining w
      apply hinv.move hi (k := 0) (by omega)
      all_goals split <;> dsimp only [Phase.pending] <;> omega
    . simp at he
  | takeAgain i now =>
    dsimp only at he
    split at he
    . next hi =>
      rw [← some.inj he]
      apply hinv.takeFrom now hi rfl rfl
    . simp at he

end

variable [DecidableEq ω]

def race : List (Event (Fin 2)) :=
  [.call 0, .take 0 5, .call 1, .take 1 5, .beginRefill 1, .beginRefill 0, .incr 1, .incr 0,
    .grant 0 60, .takeAgain 0 6, .grant 1 60, .takeAgain 1 7, .call 1, .take 2 8]

end Window

end ModelGateway.Limits
