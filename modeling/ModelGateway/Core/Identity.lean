import ModelGateway.Core.Basic

namespace ModelGateway

open List

def Str.cut (s : Str) (sep : UInt8) : Option (Str × Str) :=
  match s with
  | [] => none
  | b :: rest =>
    if b = sep then
      some ([], rest)
    else
      match Str.cut rest sep with
      | none => none
      | some (before, after) => some (b :: before, after)

def underscore : UInt8 := 95

def scheme : Str := str "gw_"

def parseAPIKey (presented : Str) : Except GoError (Str × Str) :=
  if scheme.isPrefixOf presented then
    match Str.cut (presented.drop scheme.length) underscore with
    | none => .error malformed
    | some (pre, secret) =>
      if pre = [] ∨ secret = [] then
        .error malformed
      else
        .ok (pre, secret)
  else
    .error (.ofCode .unauthenticated (str "api key has an unrecognised scheme"))
where
  malformed : GoError := .ofCode .unauthenticated (str "api key is malformed")

namespace Principal

def validate (p : Principal) (now : Int) : Except GoError Unit :=
  if p.notAfter ≠ 0 ∧ p.notAfter < now then
    .error (.ofCode .unauthenticated (str "api key has expired"))
  else
    .ok ()

end Principal

theorem Str.cut_eq_some_iff (s : Str) (sep : UInt8) (before after : Str)
    : Str.cut s sep = some (before, after) ↔ s = before ++ sep :: after ∧ sep ∉ before := by
  induction s generalizing before with
  | nil => simp [Str.cut]
  | cons b rest ih =>
    unfold Str.cut
    split
    . next heq =>
      subst heq
      constructor
      . intro h
        simp only [Option.some.injEq, Prod.mk.injEq] at h
        simp [← h.1, ← h.2]
      . intro h
        -- A non-empty part before the separator would start with it.
        cases before with
        | nil => simpa using h.1
        | cons c before =>
          simp only [cons_append, List.cons.injEq, mem_cons, not_or] at h
          exact absurd h.1.1 h.2.1
    . next hne =>
      cases before with
      | nil =>
        constructor
        . intro h
          split at h <;> simp at h
        . intro h
          simp only [nil_append, List.cons.injEq] at h
          exact absurd h.1.1 hne
      | cons c before =>
        specialize ih before
        split
        . next hcut =>
          rw [hcut] at ih
          simp only [reduceCtorEq, false_iff, not_and, not_not] at ih ⊢
          intro h
          simp only [cons_append, List.cons.injEq] at h
          have := ih h.2
          simp [this]
        . next x y hcut =>
          rw [hcut] at ih
          simp only [Option.some.injEq, Prod.mk.injEq, List.cons.injEq, cons_append,
            mem_cons, not_or] at ih ⊢
          constructor
          . intro h
            have := ih.mp ⟨h.1.2, h.2⟩
            refine ⟨⟨h.1.1, this.1⟩, ?_, this.2⟩
            rw [← h.1.1]
            exact fun h' => hne h'.symm
          . intro h
            have := ih.mpr ⟨h.1.2, h.2.2⟩
            exact ⟨⟨h.1.1, this.1⟩, this.2⟩

theorem parseAPIKey_eq_ok_iff (presented pre secret : Str)
    : parseAPIKey presented = .ok (pre, secret)
        ↔
      presented = scheme ++ pre ++ underscore :: secret ∧ pre ≠ [] ∧ secret ≠ []
        ∧ underscore ∉ pre := by
  unfold parseAPIKey
  split
  . next hscheme =>
    rw [ isPrefixOf_iff_prefix] at hscheme
    rcases hscheme with ⟨rest, rfl⟩
    rw [drop_left]
    have hcut := Str.cut_eq_some_iff rest underscore pre secret
    have hrest : scheme ++ rest = scheme ++ pre ++ underscore :: secret
        ↔ rest = pre ++ underscore :: secret := by
      rw [append_assoc]
      apply append_right_inj scheme
    rw [hrest]
    split
    . next hnone =>
      rw [hnone] at hcut
      constructor
      . intro h
        simp at h
      . intro h
        have := hcut.mpr ⟨h.1, h.2.2.2⟩
        simp at this
    . next x y hsome =>
      rw [hsome] at hcut
      simp only [Option.some.injEq, Prod.mk.injEq] at hcut
      split
      . next hempty =>
        constructor
        . intro h
          simp at h
        . intro h
          have := hcut.mpr ⟨h.1, h.2.2.2⟩
          rw [this.1, this.2] at hempty
          simp [h.2.1, h.2.2.1] at hempty
      . next hfull =>
        rw [not_or] at hfull
        simp only [Except.ok.injEq, Prod.mk.injEq]
        constructor
        . intro h
          have := hcut.mp h
          rw [← h.1, ← h.2] at this ⊢
          exact ⟨this.1, hfull.1, hfull.2, this.2⟩
        . intro h
          apply hcut.mpr ⟨h.1, h.2.2.2⟩
  . next hscheme =>
    constructor
    . intro h
      simp at h
    . intro h
      rw [ isPrefixOf_iff_prefix] at hscheme
      refine absurd ⟨pre ++ underscore :: secret, ?_⟩ hscheme
      rw [h.1, append_assoc]

theorem Principal.validate_eq_ok_iff (p : Principal) (now : Int)
    : p.validate now = .ok () ↔ p.notAfter = 0 ∨ now ≤ p.notAfter := by
  unfold Principal.validate
  split
  . next h =>
    simp only [reduceCtorEq, false_iff, not_or]
    omega
  . next h =>
    simp only [true_iff]
    omega

example : parseAPIKey (str "gw_acme_s_1") = .ok (str "acme", str "s_1") := by decide

end ModelGateway
