import ModelGateway.Lib.Split
import ModelGateway.Pii.Transform

namespace ModelGateway

open List

namespace Str

theorem ofNat_inj {m n : Nat} (h : ofNat m = ofNat n) : m = n := by
  apply Nat.repr_inj.mp
  apply String.toByteArray_inj.mp
  apply ByteArray.ext
  apply Array.toList_inj.mp h

theorem ofNat_eq (n : Nat) : ofNat n = (Nat.toDigits 10 n).flatMap String.utf8EncodeChar := by
  change (String.ofList (Nat.toDigits 10 n)).toByteArray.data.toList = _
  rw [String.toByteArray_ofList, utf8Encode, data_toByteArray]

theorem isDigit_of_mem_ofNat {n : Nat} {b : UInt8} (h : b ∈ ofNat n) : 48 ≤ b ∧ b ≤ 57 := by
  rw [ofNat_eq, mem_flatMap] at h
  rcases h with ⟨c, hc, hb⟩
  have hdigit := Nat.isDigit_of_mem_toDigits (by decide) (by decide) hc
  simp only [Char.isDigit, ge_iff_le, Bool.and_eq_true, decide_eq_true_eq, UInt32.le_iff_toNat_le]
    at hdigit
  have hsize : c.utf8Size = 1 := by
    rw [Char.utf8Size_eq_one_iff, UInt32.le_iff_toNat_le]
    apply Nat.le_trans hdigit.2
    decide
  rw [String.utf8EncodeChar_eq_singleton hsize, mem_singleton] at hb
  subst hb
  rw [UInt8.le_iff_toNat_le, UInt8.le_iff_toNat_le, UInt32.toNat_toUInt8,
    Nat.mod_eq_of_lt (Nat.lt_of_le_of_lt hdigit.2 (by decide))]
  exact hdigit

end Str

namespace Pii

theorem placeholder_inj {kind kind' : Str} {n n' : Nat}
    (h : placeholder kind n = placeholder kind' n')
    : kind = kind' ∧ n = n' := by
  -- The number has no underscore, so the last one separates it from the kind.
  have hdigits : ∀ n, (95 : UInt8) ∉ Str.ofNat n := by
    intro n hmem
    have hdigit := (Str.isDigit_of_mem_ofNat hmem).2
    revert hdigit
    decide
  have hunderscore : str "_" = [95] := by decide
  unfold placeholder at h
  rw [hunderscore] at h
  simp only [append_assoc, append_cancel_left_eq, singleton_append] at h
  change kind ++ ((95 :: Str.ofNat n) ++ placeholderClose)
    = kind' ++ ((95 :: Str.ofNat n') ++ placeholderClose) at h
  rw [← append_assoc, ← append_assoc, append_cancel_right_eq] at h
  rcases List.append_cons_inj_of_last (hdigits n) (hdigits n') h with ⟨hkind, hnumber⟩
  exact ⟨hkind, Str.ofNat_inj hnumber⟩

def Numbered (st : TransformState) : Prop :=
  ∀ issued ∈ st.replacements.keys, ∃ kind n, issued = placeholder kind n ∧
    n ≤ (st.counters.lookup kind).getD 0

variable {hmac : Str → Str → Str} {pepper payload : Str} {st : TransformState}

theorem Numbered.fresh (h : Numbered st) (kind : Str)
    : placeholder kind ((st.counters.lookup kind).getD 0 + 1) ∉ st.replacements := by
  intro hmem
  rcases h _ (AList.mem_keys.mp hmem) with ⟨_, n, hissued, hle⟩
  rcases placeholder_inj hissued with ⟨hkind, hn⟩
  rw [← hkind, ← hn] at hle
  omega

theorem transformStep_tokenize (hmac : Str → Str → Str) (pepper payload : Str) (h : Numbered st)
    (m : Match)
    : Numbered (transformStep hmac pepper payload .tokenize st m) ∧
      (transformStep hmac pepper payload .tokenize st m).replacements.keys.length
        =
      st.replacements.keys.length + 1 := by
  unfold transformStep transformStep.numbered
  dsimp only
  rw [if_pos rfl]
  constructor
  . intro issued hissued
    rw [← AList.mem_keys, AList.mem_insert] at hissued
    rcases hissued with rfl | hissued
    . refine ⟨m.kind, _, rfl, ?_⟩
      rw [AList.lookup_insert]
      apply Nat.le_refl
    . rcases h issued (AList.mem_keys.mp hissued) with ⟨kind, n, heq, hle⟩
      refine ⟨kind, n, heq, ?_⟩
      by_cases hkind : kind = m.kind
      . subst hkind
        rw [AList.lookup_insert]
        dsimp only [Option.getD_some]
        omega
      . rw [AList.lookup_insert_ne hkind]
        exact hle
  . unfold AList.keys
    rw [AList.entries_insert_of_notMem (h.fresh m.kind), keys_cons, length_cons]

theorem foldl_tokenize (h : Numbered st) (ms : List Match)
    : (ms.foldl (transformStep hmac pepper payload .tokenize) st).replacements.keys.length
        =
      st.replacements.keys.length + ms.length := by
  induction ms generalizing st with
  | nil => rfl
  | cons m ms ih =>
    rcases transformStep_tokenize hmac pepper payload h m with
      ⟨hnumbered, hlength⟩
    rw [foldl_cons, ih hnumbered, hlength, length_cons]
    omega

theorem transformMatches_tokenize_keys_length (ms : List Match)
    : (transformMatches hmac pepper payload ms .tokenize).replacements.keys.length = ms.length := by
  unfold transformMatches
  split
  . next h => simp at h
  . split
    . next hnil =>
      subst hnil
      rfl
    . have hempty : Numbered ⟨[], ∅, ∅, 0⟩ := by simp [Numbered]
      dsimp only
      rw [foldl_tokenize hempty]
      apply Nat.zero_add

end Pii

end ModelGateway
