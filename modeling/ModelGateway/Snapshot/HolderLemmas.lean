import ModelGateway.Snapshot.Holder

/-!
This module contains the invariant of the snapshot holder: the generations that readers lease are neither
closed nor lost while writers swap them.
-/

namespace ModelGateway.Holder

open List Function
open Option (some)
open Holder.Writer (unrefs)

/-- The slots and the lock holder agree, and what is about to be unreferenced is in neither slot. -/
def WriterOk (h : Holder) : Prop :=
  h.current < h.count ∧ (∀ g, h.previous = some g → g < h.count) ∧ match h.writer with
    | .idle => h.previous ≠ some h.current
    | .swapLoaded cur _ => cur = h.current ∧ h.previous ≠ some h.current
    | .swapPrevious displaced _ =>
      h.previous = some h.current ∧ displaced ≠ some h.current ∧
        ∀ g, displaced = some g → g < h.count
    | .rollbackLoaded failed => failed = h.current ∧ h.previous ≠ some h.current
    | .rollbackStored failed =>
      h.previous = some h.current ∧ failed ≠ h.current ∧ failed < h.count
    | .unref g =>
      h.previous ≠ some h.current ∧ g ≠ h.current ∧ h.previous ≠ some g ∧ g < h.count
    | .retiring g => h.previous ≠ some h.current ∧ g ≠ h.current ∧ h.previous ≠ some g

def AcquirerOk (h : Holder) : Acquirer → Prop
  | .idle => True
  | .loaded g => g < h.count
  | .read g n => g < h.count ∧ 0 < n

def Retiring (h : Holder) (g : Nat) : Prop :=
  h.writer = .retiring g ∨ ∃ l ∈ h.leases, l.gen = g ∧ l.phase = .retiring

structure Inv (h : Holder) : Prop where
  writer : h.WriterOk
  acquirers : ∀ t, h.AcquirerOk (h.acquirers t)
  leases : ∀ l ∈ h.leases, l.gen < h.count
  refs : ∀ g, g < h.count → h.refs g = (if h.owned g then 1 else 0) + h.leased g
  retire : ∀ g, h.retireOn g = true ∨ h.Retiring g → g < h.count ∧ h.refs g = 0
  retired : ∀ g, h.retired g = (h.retireOn g).toNat

theorem new_inv (initial : Snapshot) : (new initial).Inv where
  writer := by simp [WriterOk, new]
  acquirers := by simp [AcquirerOk, new]
  leases := by simp [new]
  refs := by
    intro g hg
    simp only [new] at hg
    simp [new, owned, leased, show g = 0 by omega]
  retire := by simp [new, Retiring]
  retired := by simp [new]

inductive Moves (h : Holder) : Event → Holder → Prop where
  | load {t : Nat} (hacq : h.acquirers t = .idle)
    : h.Moves (.load t) (h.setAcquirer t (.loaded h.current))
  | readRetired {t g : Nat} (hacq : h.acquirers t = .loaded g) (hzero : h.refs g ≤ 0)
    : h.Moves (.readRefs t) (h.setAcquirer t .idle)
  | readRefs {t g : Nat} (hacq : h.acquirers t = .loaded g) (hpos : 0 < h.refs g)
    : h.Moves (.readRefs t) (h.setAcquirer t (.read g (h.refs g)))
  | compareAndSwap {t g : Nat} (hacq : h.acquirers t = .read g (h.refs g))
    : h.Moves (.compareAndSwap t) ((h.lease g).setAcquirer t .idle)
  | lostRace {t g : Nat} {n : Int} (hacq : h.acquirers t = .read g n) (hn : h.refs g ≠ n)
    : h.Moves (.compareAndSwap t) (h.setAcquirer t (.loaded g))
  | release {i g : Nat} (hl : h.leases[i]? = some ⟨g, .held⟩)
    : h.Moves (.release i) (h.setLease i ⟨g, .releasing⟩)
  | releaseAgain {i : Nat} : h.Moves (.release i) h
  | releaseUnref {i g : Nat} {phase : LeasePhase} (hl : h.leases[i]? = some ⟨g, .releasing⟩)
      (hphase : phase = .released ∨ phase = .retiring ∧ h.refs g - 1 ≤ 0)
    : h.Moves (.releaseUnref i) ((h.setRefs g (h.refs g - 1)).setLease i ⟨g, phase⟩)
  | releaseRetire {i g : Nat} (hl : h.leases[i]? = some ⟨g, .retiring⟩)
    : h.Moves (.releaseRetire i) ((h.retire g).setLease i ⟨g, .released⟩)
  | swap {next : Snapshot} (hw : h.writer = .idle)
      (hcheck : checkMonotonic (h.snap h.current) next = .ok ())
    : h.Moves (.swap (some next)) { h with writer := .swapLoaded h.current next }
  | swapRefused {next : Option Snapshot} : h.Moves (.swap next) h
  | swapPrevious {cur : Nat} {next : Snapshot} (hw : h.writer = .swapLoaded cur next)
    : h.Moves .swapPrevious
        { h with previous := some cur, writer := .swapPrevious h.previous next }
  | swapStore {displaced : Option Nat} {next : Snapshot}
      (hw : h.writer = .swapPrevious displaced next)
    : h.Moves .swapStore { h.publish next with writer := Writer.after displaced }
  | rollback {g : Nat} (hw : h.writer = .idle) (hp : h.previous = some g)
    : h.Moves .rollback { h with writer := .rollbackLoaded h.current }
  | rollbackRefused : h.Moves .rollback h
  | rollbackStore {failed g : Nat} (hw : h.writer = .rollbackLoaded failed)
      (hp : h.previous = some g)
    : h.Moves .rollbackStore { h with current := g, writer := .rollbackStored failed }
  | rollbackClear {failed : Nat} (hw : h.writer = .rollbackStored failed)
    : h.Moves .rollbackClear { h with previous := none, writer := .unref failed }
  | writerUnref {g : Nat} {writer : Writer} (hw : h.writer = .unref g)
      (hwriter : writer = .idle ∨ writer = .retiring g ∧ h.refs g - 1 ≤ 0)
    : h.Moves .writerUnref { h.setRefs g (h.refs g - 1) with writer }
  | writerRetire {g : Nat} (hw : h.writer = .retiring g)
    : h.Moves .writerRetire { h.retire g with writer := .idle }

variable {h : Holder}

variable {h' : Holder} {e : Event}

theorem step_moves (he : h.step e = some h') : h.Moves e h' := by
  unfold step at he
  cases e with
  | readRefs t =>
    dsimp only at he
    split at he
    . next g hacq =>
      split at he
      . next hzero =>
        rw [← some.inj he]
        exact .readRetired hacq hzero
      . next hpos =>
        rw [← some.inj he]
        exact .readRefs hacq (by omega)
    . simp at he
  | compareAndSwap t =>
    dsimp only at he
    split at he
    . next g n hacq =>
      split at he
      . next hn =>
        subst hn
        rw [← some.inj he]
        exact .compareAndSwap hacq
      . next hn =>
        rw [← some.inj he]
        exact .lostRace hacq hn
    . simp at he
  | releaseUnref i =>
    dsimp only at he
    split at he
    . next g hl =>
      rw [← some.inj he]
      apply Moves.releaseUnref hl
      split
      . exact .inl rfl
      . exact .inr ⟨rfl, by omega⟩
    . simp at he
  | writerUnref =>
    dsimp only at he
    split at he
    . next g hw =>
      rw [← some.inj he]
      apply Moves.writerUnref hw
      split
      . exact .inl rfl
      . exact .inr ⟨rfl, by omega⟩
    . simp at he
  | _ =>
    -- the other events decide nothing beyond the guard that the constructor names
    dsimp only at he
    repeat' split at he
    all_goals cases he
    all_goals constructor <;> assumption

theorem leased_setLease {i : Nat} {l : Lease} (hl : h.leases[i]? = some l) (l' : Lease) (g : Nat)
    : (h.setLease i l').leased g + (if l.gen = g && Lease.unreleased l then 1 else 0)
        =
      h.leased g + (if l'.gen = g && Lease.unreleased l' then 1 else 0) := by
  rcases List.getElem?_eq_some_iff.mp hl with ⟨hi, hget⟩
  unfold leased setLease
  rw [countP_set hi, hget]
  have hpos : (if l.gen = g && Lease.unreleased l then 1 else 0)
      ≤ h.leases.countP fun l => l.gen = g && Lease.unreleased l := by
    split
    . next hp =>
      rw [Nat.succ_le_iff, countP_pos_iff]
      exact ⟨l, mem_of_getElem? hl, by simpa using hp⟩
    . apply Nat.zero_le
  omega

theorem Inv.leased_eq_zero (hinv : h.Inv) {g : Nat} (hg : g < h.count) (hrefs : h.refs g = 0)
    : h.leased g = 0 ∧ h.owned g = false := by
  have := hinv.refs g hg
  split at this
  . omega
  . next hnot =>
    refine ⟨by omega, by simpa using hnot⟩

theorem leased_pos {l : Lease} (hl : l ∈ h.leases) (hunreleased : Lease.unreleased l)
    : 0 < h.leased l.gen := by
  unfold leased
  rw [countP_pos_iff]
  exact ⟨l, hl, by simpa using hunreleased⟩

section

variable {h : Holder} (hinv : h.Inv)

include hinv

theorem Inv.setAcquirer {a : Acquirer} (t : Nat) (ha : h.AcquirerOk a)
    : (h.setAcquirer t a).Inv where
  writer := hinv.writer
  acquirers := by
    intro t'
    unfold Holder.setAcquirer
    dsimp only
    by_cases htt : t' = t
    . subst htt
      rw [update_self]
      exact ha
    . rw [update_of_ne htt]
      apply hinv.acquirers t'
  leases := hinv.leases
  refs := hinv.refs
  retire := hinv.retire
  retired := hinv.retired

theorem Inv.move {current : Nat} {previous : Option Nat} {writer : Writer}
    (hwriter : { h with current := current, previous := previous, writer := writer }.WriterOk)
    (howned : ∀ g, { h with current := current, previous := previous, writer := writer }.owned g
      = h.owned g)
    (hretiring : ∀ g, writer ≠ .retiring g)
    : { h with current := current, previous := previous, writer := writer }.Inv where
  writer := hwriter
  acquirers := hinv.acquirers
  leases := hinv.leases
  refs := by
    intro g hg
    rw [howned g]
    apply hinv.refs g hg
  retire := by
    intro g hg
    apply hinv.retire g
    rcases hg with hg | hg | hg
    . exact .inl hg
    . exact absurd hg (hretiring g)
    . exact .inr (.inr hg)
  retired := hinv.retired

variable {g : Nat}

theorem Inv.lease (hlt : g < h.count) (hpos : 0 < h.refs g) : (h.lease g).Inv where
  writer := hinv.writer
  acquirers := hinv.acquirers
  leases := by
    intro l hl
    rcases mem_append.mp hl with hl | hl
    . apply hinv.leases l hl
    . rw [mem_singleton.mp hl]
      exact hlt
  refs := by
    intro g' hg'
    have hrefs := hinv.refs g' hg'
    have hleased : (h.lease g).leased g' = h.leased g' + if g = g' then 1 else 0 := by
      unfold Holder.lease leased
      simp [Lease.unreleased]
    change update h.refs g (h.refs g + 1) g' = (if h.owned g' then 1 else 0) + _
    by_cases hgg : g' = g
    . subst hgg
      rw [update_self]
      rw [if_pos rfl] at hleased
      omega
    . rw [update_of_ne hgg]
      rw [if_neg fun heq => hgg heq.symm] at hleased
      omega
  retire := by
    intro g' hg'
    have hg'' : h.retireOn g' = true ∨ h.Retiring g' := by
      rcases hg' with hg' | hg' | ⟨l, hl, hlg, hphase⟩
      . exact .inl hg'
      . exact .inr (.inl hg')
      . rcases mem_append.mp hl with hl | hl
        . exact .inr (.inr ⟨l, hl, hlg, hphase⟩)
        . rw [mem_singleton.mp hl] at hphase
          simp at hphase
    rcases hinv.retire g' hg'' with ⟨hlt', hzero⟩
    -- the generation just leased had a positive count, so nobody is retiring it
    have hgg : g' ≠ g := by
      intro heq
      rw [heq] at hzero
      omega
    refine ⟨hlt', ?_⟩
    change update h.refs g (h.refs g + 1) g' = 0
    rw [update_of_ne hgg]
    exact hzero
  retired := hinv.retired

theorem Inv.setLease {i : Nat} {phase phase' : LeasePhase} (hl : h.leases[i]? = some ⟨g, phase⟩)
    (hsame : Lease.unreleased ⟨g, phase'⟩ = Lease.unreleased ⟨g, phase⟩) (hretiring : phase' ≠ .retiring)
    : (h.setLease i ⟨g, phase'⟩).Inv where
  writer := hinv.writer
  acquirers := hinv.acquirers
  leases := by
    intro l hmem
    rcases mem_or_eq_of_mem_set hmem with hmem | rfl
    . apply hinv.leases l hmem
    . apply hinv.leases ⟨g, phase⟩ (mem_of_getElem? hl)
  refs := by
    intro g' hg'
    have hleased := leased_setLease hl ⟨g, phase'⟩ g'
    rw [hsame] at hleased
    rw [Nat.add_right_cancel hleased]
    apply hinv.refs g' hg'
  retire := by
    intro g' hg'
    apply hinv.retire g'
    rcases hg' with hg' | hg' | ⟨l, hmem, hlg, hphase⟩
    . exact .inl hg'
    . exact .inr (.inl hg')
    . rcases mem_or_eq_of_mem_set hmem with hmem | rfl
      . exact .inr (.inr ⟨l, hmem, hlg, hphase⟩)
      . exact absurd hphase hretiring
  retired := hinv.retired

theorem Inv.retire_unref {g' : Nat} (hlt : g < h.count) (hpos : 0 < h.refs g)
    (hg' : (h.retireOn g' = true ∨ h.Retiring g') ∨ (g' = g ∧ h.refs g - 1 ≤ 0))
    : g' < h.count ∧ update h.refs g (h.refs g - 1) g' = 0 := by
  rcases hg' with hg' | ⟨rfl, hzero⟩
  . have hzero := (hinv.retire g' hg').2
    -- the count of `g` is positive, so nobody is retiring it
    rw [update_of_ne]
    . apply hinv.retire g' hg'
    . rintro rfl
      omega
  . rw [update_self]
    exact ⟨hlt, by omega⟩

theorem Inv.releaseUnref {i : Nat} (hl : h.leases[i]? = some ⟨g, .releasing⟩) {phase : LeasePhase}
    (hphase : Lease.unreleased ⟨g, phase⟩ = false) (hzero : phase = .retiring → h.refs g - 1 ≤ 0)
    : ((h.setRefs g (h.refs g - 1)).setLease i ⟨g, phase⟩).Inv := by
  have hmem := mem_of_getElem? hl
  have hlt : g < h.count := hinv.leases _ hmem
  have hpos : 0 < h.refs g := by
    have hrefs := hinv.refs g hlt
    have hleased : 0 < h.leased g := leased_pos hmem rfl
    split at hrefs <;> omega
  have hleased : ∀ g', ((h.setRefs g (h.refs g - 1)).setLease i ⟨g, phase⟩).leased g'
        + (if g = g' then 1 else 0) = h.leased g' := by
    intro g'
    have := leased_setLease (h := h.setRefs g (h.refs g - 1)) hl ⟨g, phase⟩ g'
    rw [hphase, show Lease.unreleased ⟨g, .releasing⟩ = true from rfl] at this
    simp only [Bool.and_true, Bool.and_false, decide_eq_true_eq, Bool.false_eq_true, if_false,
      Nat.add_zero] at this
    exact this
  constructor
  . exact hinv.writer
  . exact hinv.acquirers
  . intro l hmem'
    rcases mem_or_eq_of_mem_set hmem' with hmem' | rfl
    . apply hinv.leases l hmem'
    . exact hlt
  . intro g' hg'
    have hl' := hleased g'
    have hrefs' := hinv.refs g' hg'
    change update h.refs g (h.refs g - 1) g' = (if h.owned g' then 1 else 0) + _
    by_cases hgg : g' = g
    . subst hgg
      rw [update_self]
      rw [if_pos rfl] at hl'
      omega
    . rw [update_of_ne hgg]
      rw [if_neg fun heq => hgg heq.symm] at hl'
      omega
  . intro g' hg'
    apply hinv.retire_unref hlt hpos
    rcases hg' with hg' | hg' | ⟨l, hmem', hlg, hl'⟩
    . exact .inl (.inl hg')
    . exact .inl (.inr (.inl hg'))
    . rcases mem_or_eq_of_mem_set hmem' with hmem' | rfl
      . exact .inl (.inr (.inr ⟨l, hmem', hlg, hl'⟩))
      . exact .inr ⟨hlg.symm, hzero hl'⟩
  . exact hinv.retired

theorem Inv.retireOnce (hg : h.Retiring g) : (h.retire g).Inv := by
  unfold Holder.retire
  split
  . exact hinv
  . next honce =>
    refine ⟨hinv.writer, hinv.acquirers, hinv.leases, hinv.refs, ?_, ?_⟩
    . intro g' hg'
      dsimp only at hg'
      by_cases hgg : g' = g
      . rw [hgg]
        apply hinv.retire g (.inr hg)
      . rw [update_of_ne hgg] at hg'
        apply hinv.retire g' hg'
    . intro g'
      dsimp only
      by_cases hgg : g' = g
      . subst hgg
        rw [Bool.not_eq_true] at honce
        rw [update_self, update_self, hinv.retired g', honce]
        rfl
      . rw [update_of_ne hgg, update_of_ne hgg]
        apply hinv.retired g'

theorem Inv.writerUnref (hw : h.writer = .unref g) {writer : Writer}
    (hwriter : writer = .idle ∨ (writer = .retiring g ∧ h.refs g - 1 ≤ 0))
    : { h.setRefs g (h.refs g - 1) with writer := writer }.Inv := by
  rcases hinv.writer with ⟨hcurrent, hprevious, hok⟩
  rw [hw] at hok
  rcases hok with ⟨hdistinct, hgc, hgp, hlt⟩
  have hrefs := hinv.refs g hlt
  have howned : h.owned g = true := by simp [owned, hw, unrefs]
  rw [if_pos howned] at hrefs
  have hunrefs : ∀ g', unrefs writer g' = false := by
    rcases hwriter with rfl | ⟨rfl, _⟩
    . exact fun _ => rfl
    . exact fun _ => rfl
  constructor
  . refine ⟨hcurrent, hprevious, ?_⟩
    rcases hwriter with rfl | ⟨rfl, _⟩
    . exact hdistinct
    . exact ⟨hdistinct, hgc, hgp⟩
  . exact hinv.acquirers
  . exact hinv.leases
  . intro g' hg'
    have hrefs' := hinv.refs g' hg'
    change update h.refs g (h.refs g - 1) g'
      = (if (h.current = g' || h.previous = some g' || unrefs writer g') then 1 else 0)
        + (h.leased g' : Int)
    rw [hunrefs g', Bool.or_false]
    by_cases hgg : g' = g
    . subst hgg
      rw [update_self, if_neg (by simp [hgc.symm, hgp])]
      omega
    . rw [update_of_ne hgg, hrefs']
      simp [owned, hw, unrefs, Ne.symm hgg]
  . intro g' hg'
    apply hinv.retire_unref hlt (by omega)
    rcases hg' with hg' | hg' | hg'
    . exact .inl (.inl hg')
    . rcases hwriter with rfl | ⟨rfl, hzero⟩
      . simp at hg'
      . simp only [Writer.retiring.injEq] at hg'
        exact .inr ⟨hg'.symm, hzero⟩
    . exact .inl (.inr (.inr hg'))
  . exact hinv.retired

theorem Inv.publish {displaced : Option Nat} {next : Snapshot}
    (hw : h.writer = .swapPrevious displaced next)
    : { h.publish next with writer := Writer.after displaced }.Inv := by
  rcases hinv.writer with ⟨hcurrent, hprevious, hok⟩
  rw [hw] at hok
  rcases hok with ⟨hslots, hdistinct, hdisplaced⟩
  have hunrefs : ∀ g, unrefs (Writer.after displaced) g = decide (displaced = some g) := by
    intro g
    cases displaced <;> simp [Writer.after, unrefs]
  have hfresh : h.leased h.count = 0 := by
    unfold leased
    rw [countP_eq_zero]
    intro l hl
    have := hinv.leases l hl
    simp [show l.gen ≠ h.count by omega]
  constructor
  . refine ⟨Nat.lt_succ_self _, ?_, ?_⟩
    . intro g hg
      apply Nat.lt_succ_of_lt (hprevious g hg)
    . have hne : h.previous ≠ some h.count := by
        intro heq
        exact absurd (hprevious _ heq) (Nat.lt_irrefl _)
      cases displaced with
      | none => exact hne
      | some g =>
        have hlt := hdisplaced g rfl
        refine ⟨hne, ?_, ?_, Nat.lt_succ_of_lt hlt⟩
        . apply Nat.ne_of_lt hlt
        . intro heq
          exact hdistinct (heq.symm.trans hslots)
  . intro t
    have := hinv.acquirers t
    change AcquirerOk _ (h.acquirers t)
    cases hacq : h.acquirers t with
    | idle => trivial
    | loaded g =>
      rw [hacq] at this
      apply Nat.lt_succ_of_lt this
    | read g n =>
      rw [hacq] at this
      exact ⟨Nat.lt_succ_of_lt this.1, this.2⟩
  . intro l hl
    apply Nat.lt_succ_of_lt (hinv.leases l hl)
  . intro g hg
    change update h.refs h.count 1 g
      = (if (h.count = g || h.previous = some g || unrefs (Writer.after displaced) g)
          then 1 else 0) + (h.leased g : Int)
    rw [hunrefs g]
    by_cases hgg : g = h.count
    . subst hgg
      rw [update_self, hfresh]
      simp
    . have hlt : g < h.count := by
        change g < h.count + 1 at hg
        omega
      rw [update_of_ne hgg, hinv.refs g hlt]
      simp only [owned, hw, unrefs, hslots]
      simp [Ne.symm hgg]
  . intro g hg
    change g < h.count + 1 ∧ update h.refs h.count 1 g = 0
    have hg' : g ≠ h.count ∧ (h.retireOn g = true ∨ h.Retiring g) := by
      rcases hg with hg | hg | ⟨l, hl, hlg, hphase⟩
      . change update h.retireOn h.count false g = true at hg
        by_cases hgg : g = h.count
        . rw [hgg, update_self] at hg
          simp at hg
        . rw [update_of_ne hgg] at hg
          exact ⟨hgg, .inl hg⟩
      . cases displaced <;> simp [Writer.after] at hg
      . have := hinv.leases l hl
        exact ⟨by omega, .inr (.inr ⟨l, hl, hlg, hphase⟩)⟩
    rw [update_of_ne hg'.1]
    rcases hinv.retire g hg'.2 with ⟨hlt, hzero⟩
    exact ⟨Nat.lt_succ_of_lt hlt, hzero⟩
  . intro g
    change update h.retired h.count 0 g = (update h.retireOn h.count false g).toNat
    by_cases hgg : g = h.count
    . subst hgg
      rw [update_self, update_self]
      rfl
    . rw [update_of_ne hgg, update_of_ne hgg]
      apply hinv.retired g

omit hinv in
theorem retire_slots (h : Holder) (g : Nat)
    : (h.retire g).current = h.current ∧ (h.retire g).previous = h.previous ∧
      (h.retire g).writer = h.writer ∧ (h.retire g).leases = h.leases := by
  unfold Holder.retire
  split <;> exact ⟨rfl, rfl, rfl, rfl⟩

omit hinv in
theorem retire_generations (h : Holder) (g : Nat)
    : (h.retire g).snap = h.snap ∧ (h.retire g).count = h.count := by
  unfold Holder.retire
  split <;> exact ⟨rfl, rfl⟩

theorem Inv.writerRetire (hw : h.writer = .retiring g)
    : { h.retire g with writer := .idle }.Inv := by
  have hretired := hinv.retireOnce (.inl hw)
  rcases retire_slots h g with ⟨hcurrent, hprevious, hwriter, _⟩
  rcases hretired.writer with ⟨hlt, hslot, hok⟩
  rw [hwriter, hw] at hok
  refine hretired.move ⟨hlt, hslot, hok.1⟩ ?_ (by simp)
  intro g'
  simp [owned, hwriter, hw, unrefs]

theorem Inv.step (he : h.step e = some h') : h'.Inv := by
  rcases hinv.writer with ⟨hcurrent, hprevious, hok⟩
  cases step_moves he with
  | load => exact hinv.setAcquirer _ hcurrent
  | readRetired => exact hinv.setAcquirer _ (a := .idle) trivial
  | @readRefs t g hacq hpos =>
    have hread := hinv.acquirers t
    rw [hacq] at hread
    exact hinv.setAcquirer t ⟨hread, hpos⟩
  | @compareAndSwap t g hacq =>
    have hread := hinv.acquirers t
    rw [hacq] at hread
    exact (hinv.lease hread.1 hread.2).setAcquirer t (a := .idle) trivial
  | @lostRace t g n hacq =>
    have hread := hinv.acquirers t
    rw [hacq] at hread
    exact hinv.setAcquirer t hread.1
  | release hl =>
    apply hinv.setLease hl
    . rfl
    . simp
  | releaseAgain => exact hinv
  | releaseUnref hl hphase =>
    apply hinv.releaseUnref hl
    . rcases hphase with rfl | ⟨rfl, _⟩ <;> rfl
    . rintro rfl
      simpa using hphase
  | @releaseRetire i g hl =>
    have hretired := hinv.retireOnce (.inr ⟨_, mem_of_getElem? hl, rfl, rfl⟩)
    rw [← (retire_slots h g).2.2.2] at hl
    apply hretired.setLease hl
    . rfl
    . simp
  | swap hw =>
    rw [hw] at hok
    refine hinv.move ⟨hcurrent, hprevious, rfl, hok⟩ ?_ (by simp)
    intro g
    simp [owned, hw, unrefs]
  | swapRefused => exact hinv
  | swapPrevious hw =>
    rw [hw] at hok
    rcases hok with ⟨rfl, hdistinct⟩
    refine hinv.move ⟨hcurrent, ?_, rfl, hdistinct, hprevious⟩ ?_ (by simp)
    . intro g hg
      rw [← some.inj hg]
      exact hcurrent
    . intro g
      simp only [owned, hw, unrefs, some.injEq, Bool.or_false, Bool.or_self]
  | swapStore hw => exact hinv.publish hw
  | rollback hw =>
    rw [hw] at hok
    refine hinv.move ⟨hcurrent, hprevious, rfl, hok⟩ ?_ (by simp)
    intro g
    simp [owned, hw, unrefs]
  | rollbackRefused => exact hinv
  | @rollbackStore failed g hw hp =>
    rw [hw] at hok
    rcases hok with ⟨rfl, hdistinct⟩
    have hne : h.current ≠ g := by
      intro heq
      rw [hp, heq] at hdistinct
      exact hdistinct rfl
    refine hinv.move ⟨hprevious g hp, hprevious, hp, hne, hcurrent⟩ ?_ (by simp)
    intro g'
    simp only [owned, hw, hp, unrefs, some.injEq, Bool.or_self, Bool.or_false]
    rw [Bool.or_comm]
  | rollbackClear hw =>
    rw [hw] at hok
    rcases hok with ⟨hslots, hne, hlt⟩
    refine hinv.move ⟨hcurrent, by simp, by simp, hne, by simp, hlt⟩ ?_ (by simp)
    intro g
    simp [owned, hw, hslots, unrefs]
  | writerUnref hw hwriter => exact hinv.writerUnref hw hwriter
  | writerRetire hw => exact hinv.writerRetire hw

theorem Inv.step_retired (he : h.step e = some h')
    : h'.retired = h.retired ∨ ∃ g, h.Retiring g ∧ h'.retired = (h.retire g).retired := by
  cases step_moves he with
  | releaseRetire hl => exact .inr ⟨_, .inr ⟨_, mem_of_getElem? hl, rfl, rfl⟩, rfl⟩
  | writerRetire hw => exact .inr ⟨_, .inl hw, rfl⟩
  | swapStore hw =>
    left
    -- the generation that is published is new, so its count is still zero
    have hfresh : h.retired h.count = 0 := by
      rw [hinv.retired]
      cases hon : h.retireOn h.count with
      | false => rfl
      | true => exact absurd (hinv.retire _ (.inl hon)).1 (Nat.lt_irrefl _)
    change update h.retired h.count 0 = h.retired
    rw [← hfresh, update_eq_self]
  | _ => exact .inl rfl

theorem Inv.retiring (hg : h.Retiring g)
    : h.leased g = 0 ∧ h.current ≠ g ∧ h.previous ≠ some g := by
  rcases hinv.retire g (.inr hg) with ⟨hlt, hrefs⟩
  rcases hinv.leased_eq_zero hlt hrefs with ⟨hleased, howned⟩
  simp only [owned, Bool.or_eq_false_iff, decide_eq_false_iff_not] at howned
  exact ⟨hleased, howned.1.1, howned.1.2⟩

theorem Inv.retired_of_unreleased {l : Lease} (hl : l ∈ h.leases) (hunreleased : Lease.unreleased l)
    : h.retired l.gen = 0 := by
  rw [hinv.retired]
  cases hon : h.retireOn l.gen with
  | false => rfl
  | true =>
    rcases hinv.retire _ (.inl hon) with ⟨hlt, hrefs⟩
    have := (hinv.leased_eq_zero hlt hrefs).1
    have := leased_pos hl hunreleased
    omega

end

def Writer.next : Writer → Option Snapshot
  | .swapLoaded _ next => some next
  | .swapPrevious _ next => some next
  | _ => none

def Writer.rollsBack : Writer → Bool
  | .rollbackLoaded _ => true
  | .rollbackStored _ => true
  | _ => false

def Event.isRollback : Event → Bool
  | .rollback => true
  | _ => false

structure Keeps (h : Holder) (e : Event) (h' : Holder) : Prop where
  snap : h'.snap = h.snap
  count : h'.count = h.count
  next : Writer.next h'.writer = Writer.next h.writer
  current : Writer.rollsBack h.writer = false → h'.current = h.current
  rollsBack : e.isRollback = false → Writer.rollsBack h.writer = false →
    Writer.rollsBack h'.writer = false

theorem step_serving (he : h.step e = some h')
    : h.Keeps e h' ∨ (∃ next, e = .swap (some next) ∧ h.writer = .idle ∧
        checkMonotonic (h.snap h.current) next = .ok () ∧
        h' = { h with writer := .swapLoaded h.current next }) ∨
      (∃ displaced next, e = .swapStore ∧ h.writer = .swapPrevious displaced next ∧
        h' = { h.publish next with writer := Writer.after displaced }) := by
  cases step_moves he with
  | swap hw hcheck => exact .inr (.inl ⟨_, rfl, hw, hcheck, rfl⟩)
  | swapStore hw => exact .inr (.inr ⟨_, _, rfl, hw, rfl⟩)
  | swapPrevious hw =>
    left
    refine ⟨rfl, rfl, ?_, fun _ => rfl, fun _ _ => rfl⟩
    rw [hw]
    rfl
  | rollback hw =>
    left
    refine ⟨rfl, rfl, ?_, fun _ => rfl, fun h => nomatch h⟩
    rw [hw]
    rfl
  | rollbackStore hw =>
    left
    constructor
    . rfl
    . rfl
    . rw [hw]
      rfl
    . rw [hw]
      exact fun h => nomatch h
    . rw [hw]
      exact fun _ h => nomatch h
  | rollbackClear hw =>
    left
    refine ⟨rfl, rfl, ?_, fun _ => rfl, fun _ _ => rfl⟩
    rw [hw]
    rfl
  | writerUnref hw hwriter =>
    left
    rcases hwriter with rfl | ⟨rfl, _⟩
    all_goals
      refine ⟨rfl, rfl, ?_, fun _ => rfl, fun _ _ => rfl⟩
      rw [hw]
      rfl
  | @writerRetire g hw =>
    left
    have hnext : Writer.next h.writer = none := by
      rw [hw]
      rfl
    rcases retire_generations h g with ⟨hsnap, hcount⟩
    exact ⟨hsnap, hcount, hnext.symm, fun _ => (retire_slots h g).1, fun _ _ => rfl⟩
  | @releaseRetire i g hl =>
    left
    rcases retire_generations h g with ⟨hsnap, hcount⟩
    rcases retire_slots h g with ⟨hcurrent, _, hwriter, _⟩
    exact ⟨hsnap, hcount, congrArg _ hwriter, fun _ => hcurrent, fun _ h => hwriter ▸ h⟩
  | _ => exact .inl ⟨rfl, rfl, rfl, fun _ => rfl, fun _ h => h⟩

theorem retire_retired {g g' : Nat} (hne : (h.retire g).retired g' ≠ h.retired g')
    : g' = g ∧ (h.retire g).retired g' = h.retired g' + 1 := by
  unfold Holder.retire at hne ⊢
  split at hne
  . exact absurd rfl hne
  . next hon =>
    rw [if_neg hon]
    dsimp only at hne ⊢
    by_cases hg : g' = g
    . subst hg
      exact ⟨rfl, update_self ..⟩
    . rw [update_of_ne hg] at hne
      exact absurd rfl hne

theorem reachable_safe (initial : Snapshot) {h : Holder}
    (hreach : TransitionSystem.Reaches step (new initial) h)
    : (∀ g, h.retired g ≤ 1) ∧ (∀ e h', h.step e = some h' → ∀ g, h'.retired g ≠ h.retired g →
        h'.retired g = h.retired g + 1 ∧
        h.leased g = 0 ∧ h.current ≠ g ∧ h.previous ≠ some g) ∧
      (∀ l ∈ h.leases, Lease.unreleased l → h.retired l.gen = 0) ∧
      (∀ g, g < h.count → h.refs g = (if h.owned g then 1 else 0) + h.leased g) := by
  have hinv : h.Inv := hreach.invariant Inv (fun _ _ _ hinv he => hinv.step he) (new_inv initial)
  refine ⟨?_, ?_, fun l hl hun => hinv.retired_of_unreleased hl hun, hinv.refs⟩
  . intro g
    rw [hinv.retired]
    apply Bool.toNat_le
  . intro e h' he g hne
    rcases hinv.step_retired he with heq | ⟨g', hretiring, heq⟩
    . rw [heq] at hne
      exact absurd rfl hne
    . rw [heq] at hne ⊢
      rcases retire_retired hne with ⟨rfl, hcount⟩
      exact ⟨hcount, hinv.retiring hretiring⟩

def bare : Snapshot where
  global := .init ⟨⟨0, []⟩, 0, [], [], ∅, [], [], [], []⟩
  tenants := ∅

def drain : List Event :=
  [.load 0, .readRefs 0, .compareAndSwap 0, .swap (some bare), .swapPrevious, .swapStore,
    .swap (some bare), .swapPrevious, .swapStore, .writerUnref, .release 0, .releaseUnref 0]

theorem reachable_safe_drain
    : ∃ h, drain.foldlM step (new bare) = some h ∧ h.retired 0 = 0 ∧
        (h.step (.releaseRetire 0)).map (·.retired 0) = some 1 ∧ h.leased 0 = 0 ∧ h.current ≠ 0 := by
  refine ⟨_, rfl, rfl, rfl, ?_⟩
  have hsafe := (reachable_safe bare (.of_foldlM drain rfl)).2.1 (.releaseRetire 0) _ rfl 0
    (by decide)
  exact ⟨hsafe.2.1, hsafe.2.2.1⟩

end ModelGateway.Holder
