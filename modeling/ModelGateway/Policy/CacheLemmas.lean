import ModelGateway.Policy.Evaluate

namespace ModelGateway.Policy

open List

structure Lookup where
  tenant : Str
  digest : Str
  raw : Str

variable (codec : Codec)

namespace Cache

def get (c : Cache) (l : Lookup) : Except GoError Bundle :=
  (c.forTenant codec l.tenant l.digest l.raw).1

def next (c : Cache) (l : Lookup) : Cache :=
  (c.forTenant codec l.tenant l.digest l.raw).2

def after (ls : List Lookup) : Cache :=
  ls.foldl (next codec) .new

def Holds (c : Cache) (tenant digest : Str) (bundle : Bundle) : Prop :=
  c.digest = digest ∧ c.bundles.lookup tenant = some bundle

variable {codec} {c : Cache} {l : Lookup} {tenant digest : Str} {bundle : Bundle}

theorem forTenant_of_holds (codec : Codec) (h : c.Holds l.tenant l.digest bundle)
    : c.get codec l = .ok bundle ∧ c.next codec l = c := by
  unfold get next forTenant
  rw [if_pos h.1, h.2]
  exact ⟨rfl, rfl⟩

theorem forTenant_of_not_holds (codec : Codec) (h : ∀ bundle, ¬c.Holds l.tenant l.digest bundle)
    : c.get codec l = decode codec l.raw ∧
      ((∃ err, decode codec l.raw = .error err ∧ c.next codec l = c) ∨
        ∃ bundle, decode codec l.raw = .ok bundle ∧ c.next codec l
            =
          ⟨l.digest, (if c.digest = l.digest then c.bundles else ∅).insert l.tenant bundle⟩) := by
  have hmiss : (if c.digest = l.digest then c.bundles.lookup l.tenant else none) = none := by
    split
    . next hdigest =>
      rw [Option.eq_none_iff_forall_not_mem]
      intro bundle hbundle
      exact h bundle ⟨hdigest, hbundle⟩
    . rfl
  unfold get next forTenant
  rw [hmiss]
  cases decode codec l.raw with
  | error err => exact ⟨rfl, .inl ⟨err, rfl, rfl⟩⟩
  | ok bundle => exact ⟨rfl, .inr ⟨bundle, rfl, rfl⟩⟩

theorem new_not_holds : ¬new.Holds tenant digest bundle := by
  rintro ⟨_, h⟩
  simp [new] at h

theorem get_new : new.get codec l = decode codec l.raw :=
  (forTenant_of_not_holds codec fun _ => new_not_holds).1

theorem Holds.next (h : c.Holds tenant digest bundle)
    (hl : ∀ b, decode codec l.raw = .ok b → l.digest = digest)
    : (c.next codec l).Holds tenant digest bundle := by
  by_cases hhit : ∃ b, c.Holds l.tenant l.digest b
  . rcases hhit with ⟨b, hhit⟩
    rw [(forTenant_of_holds codec hhit).2]
    exact h
  . rcases (forTenant_of_not_holds codec (not_exists.mp hhit)).2 with
      ⟨_, _, hnext⟩ | ⟨b, hdecode, hnext⟩
    . rw [hnext]
      exact h
    . have hdigest := hl b hdecode
      have hne : tenant ≠ l.tenant := by
        rintro rfl
        exact hhit ⟨bundle, hdigest ▸ h⟩
      rw [hnext]
      refine ⟨hdigest, ?_⟩
      rw [if_pos (h.1.trans hdigest.symm), AList.lookup_insert_ne hne]
      exact h.2

theorem Holds.foldl (h : c.Holds tenant digest bundle) (ls : List Lookup)
    (hls : ∀ l ∈ ls, ∀ b, decode codec l.raw = .ok b → l.digest = digest)
    : (ls.foldl (Cache.next codec) c).Holds tenant digest bundle := by
  induction ls generalizing c with
  | nil => exact h
  | cons l ls ih =>
    apply ih
    . apply h.next
      apply hls l mem_cons_self
    . intro l' hl'
      apply hls l' (mem_cons_of_mem _ hl')

theorem holds_of_get (hget : c.get codec l = decode codec l.raw)
    (hdecode : decode codec l.raw = .ok bundle)
    : (c.next codec l).Holds l.tenant l.digest bundle := by
  by_cases hhit : ∃ b, c.Holds l.tenant l.digest b
  . rcases hhit with ⟨b, hhit⟩
    rcases forTenant_of_holds codec hhit with ⟨hanswer, hnext⟩
    rw [hanswer, hdecode, Except.ok.injEq] at hget
    rw [hnext, ← hget]
    exact hhit
  . rcases (forTenant_of_not_holds codec (not_exists.mp hhit)).2 with
      ⟨_, herr, _⟩ | ⟨b, hok, hnext⟩
    . rw [hdecode] at herr
      cases herr
    . rw [hdecode, Except.ok.injEq] at hok
      rw [hnext, hok]
      exact ⟨rfl, AList.lookup_insert _⟩

theorem Holds.origin {ls : List Lookup} (h : (after codec ls).Holds tenant digest bundle)
    : ∃ (before : List Lookup) (l : Lookup) (since : List Lookup), ls = before ++ l :: since ∧
        l.tenant = tenant ∧ l.digest = digest ∧ decode codec l.raw = .ok bundle ∧
        ∀ m ∈ since, ∀ b, decode codec m.raw = .ok b → m.digest = digest := by
  induction ls using reverseRecOn with
  | nil => exact absurd h new_not_holds
  | append_singleton ls last ih =>
    -- An entry that was there before the last call keeps its origin.
    have hkept : (after codec ls).Holds tenant digest bundle →
        (∀ b, decode codec last.raw = .ok b → last.digest = digest) →
        ∃ (before : List Lookup) (l : Lookup) (since : List Lookup),
          ls ++ [last] = before ++ l :: since ∧ l.tenant = tenant ∧ l.digest = digest ∧
          decode codec l.raw = .ok bundle ∧
          ∀ m ∈ since, ∀ b, decode codec m.raw = .ok b → m.digest = digest := by
      intro hearlier hlast
      rcases ih hearlier with ⟨before, l, since, heq, htenant, hdigest, hdecode, hsince⟩
      refine ⟨before, l, since ++ [last], by simp [heq], htenant, hdigest, hdecode, ?_⟩
      intro m hm
      rw [mem_append, mem_singleton] at hm
      rcases hm with hm | rfl
      . exact hsince m hm
      . exact hlast
    have hnext : after codec (ls ++ [last]) = (after codec ls).next codec last := by
      simp [after]
    rw [hnext] at h
    generalize after codec ls = c at h hkept
    by_cases hhit : ∃ b, c.Holds last.tenant last.digest b
    . rcases hhit with ⟨b, hhit⟩
      rw [(forTenant_of_holds codec hhit).2] at h
      apply hkept h
      intro _ _
      rw [← h.1, hhit.1]
    . rcases (forTenant_of_not_holds codec (not_exists.mp hhit)).2 with
        ⟨err, herr, hsame⟩ | ⟨b, hdecode, hinserted⟩
      . rw [hsame] at h
        apply hkept h
        intro b hb
        rw [herr] at hb
        cases hb
      . rw [hinserted] at h
        rcases h with ⟨hdigest, hlookup⟩
        by_cases htenant : last.tenant = tenant
        . subst htenant
          rw [AList.lookup_insert, Option.some.injEq] at hlookup
          exact ⟨ls, last, [], rfl, rfl, hdigest, hlookup ▸ hdecode, by simp⟩
        . rw [AList.lookup_insert_ne (Ne.symm htenant)] at hlookup
          split at hlookup
          . next hsame => exact hkept ⟨hsame.trans hdigest, hlookup⟩ (fun _ _ => hdigest)
          . simp at hlookup

end Cache

def Transparent (ls : List Lookup) : Prop :=
  ∀ (before : List Lookup) (l : Lookup) (since : List Lookup), ls = before ++ l :: since →
    (Cache.after codec before).get codec l = decode codec l.raw

/-- If one digest is looked up twice in a row, both lookups have the same bundle. -/
def Consistent (ls : List Lookup) : Prop :=
  ∀ (before : List Lookup) (l : Lookup) (between : List Lookup) (l' : Lookup) (since : List Lookup),
    ls = before ++ l :: (between ++ l' :: since) → l.tenant = l'.tenant → l.digest = l'.digest →
    (∀ m ∈ between, ∀ b, decode codec m.raw = .ok b → m.digest = l.digest) →
    ∀ bundle, decode codec l.raw = .ok bundle → decode codec l'.raw = .ok bundle

variable {codec}

theorem Consistent.transparent {ls : List Lookup} (h : Consistent codec ls)
    : Transparent codec ls := by
  intro before l since hls
  by_cases hhit : ∃ b, (Cache.after codec before).Holds l.tenant l.digest b
  . rcases hhit with ⟨b, hhit⟩
    rcases hhit.origin with ⟨pre, o, between, hbefore, htenant, hdigest, hdecode, hbetween⟩
    rw [(Cache.forTenant_of_holds _ hhit).1]
    symm
    apply h pre o between l since ?_ htenant hdigest ?_ b hdecode
    . simp [hls, hbefore]
    . rw [hdigest]
      exact hbetween
  . exact (Cache.forTenant_of_not_holds _ (not_exists.mp hhit)).1

theorem Transparent.consistent {ls : List Lookup} (h : Transparent codec ls)
    : Consistent codec ls := by
  intro before l between l' since hls htenant hdigest hbetween bundle hdecode
  have hfirst := h before l (between ++ l' :: since) hls
  have hsecond := h (before ++ l :: between) l' since (by simp [hls])
  have hholds := Cache.holds_of_get hfirst hdecode
  have hlater := hholds.foldl between hbetween
  rw [htenant, hdigest] at hlater
  have hcache : Cache.after codec (before ++ l :: between)
      = between.foldl (Cache.next codec) ((Cache.after codec before).next codec l) := by
    simp [Cache.after]
  rw [hcache, (Cache.forTenant_of_holds _ hlater).1] at hsecond
  exact hsecond.symm

end ModelGateway.Policy
