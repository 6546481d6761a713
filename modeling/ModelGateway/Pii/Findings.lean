import ModelGateway.Lib.RegexSearch
import ModelGateway.Pii.Pieces

namespace ModelGateway.Pii

open Option (some)
open List hiding Cursor

open Regex

def isLetter (b : UInt8) : Bool :=
  (65 ≤ b && b ≤ 90) || (97 ≤ b && b ≤ 122)

def isLocal (b : UInt8) : Bool :=
  isLetter b || (48 ≤ b && b ≤ 57) || (str "._%+-").contains b

def domain : Regex :=
  cat (lit 64) [
    plus (.byte (fun b => isLetter b || (48 ≤ b && b ≤ 57) || (str ".-").contains b)),
    lit 46,
    atLeast (.byte isLetter) 2,
    .wordBoundary]

def found (payload : Str) : List Match :=
  detectors.flatMap (·.findings payload)

theorem detect_eq (payload : Str) : detect payload = withoutOverlaps (found payload) := rfl

variable {payload : Str} {d : Detector} {m : Match}

theorem mem_findings
    : m ∈ d.findings payload ↔ (m.start, m.finish) ∈ d.re.findAllIndex payload ∧ m.kind = d.kind ∧
        m.value = (payload.take m.finish).drop m.start ∧ d.validate m.value = true := by
  unfold Detector.findings
  rw [mem_filterMap]
  constructor
  . rintro ⟨span, hspan, h⟩
    dsimp only at h
    split at h
    . next hvalid =>
      cases h
      exact ⟨hspan, rfl, rfl, hvalid⟩
    . simp at h
  . rintro ⟨hspan, hkind, hvalue, hvalid⟩
    refine ⟨_, hspan, ?_⟩
    rw [← hvalue, if_pos hvalid, ← hkind]

variable (h : m ∈ d.findings payload)

include h

theorem findings_accepts
    : m.start < m.finish ∧ d.re.Accepts (.into payload m.start) (.into payload m.finish) :=
  mem_findAllIndex (mem_findings.mp h).1

theorem findings_finish_le : m.finish ≤ payload.length := by
  rcases findings_accepts h with ⟨hlt, haccepts⟩
  rcases haccepts.reads with ⟨w, hreads, _⟩
  have hlength := hreads.length_le
  have hpos := hreads.pos
  change _ = (payload.drop m.start).length at hlength
  change (payload.drop m.finish).length + _ = _ at hlength
  change m.finish = m.start + w.length at hpos
  rw [length_drop, length_drop] at hlength
  omega

theorem findings_locates : m.Locates payload :=
  ⟨Nat.le_of_lt (findings_accepts h).1, findings_finish_le h, (mem_findings.mp h).2.2.1⟩

theorem findings_apart {m' : Match} (h' : m' ∈ d.findings payload)
    : m = m' ∨ m.finish ≤ m'.start ∨ m'.finish ≤ m.start := by
  rcases mem_findings.mp h with ⟨hspan, hkind, hvalue, _⟩
  rcases mem_findings.mp h' with ⟨hspan', hkind', hvalue', _⟩
  have hsymm : (d.re.findAllIndex payload).Pairwise (fun a b => a.2 ≤ b.1 ∨ b.2 ≤ a.1) :=
    pairwise_findAllIndex.imp Or.inl
  by_cases heq : (m.start, m.finish) = (m'.start, m'.finish)
  . left
    rcases m with ⟨kind, start, finish, _⟩
    rcases m' with ⟨_, _, _, _⟩
    simp_all
  . right
    have : Std.Symm (fun a b : Nat × Nat => a.2 ≤ b.1 ∨ b.2 ≤ a.1) := ⟨fun _ _ h => h.symm⟩
    exact hsymm.forall hspan hspan' heq

omit h

theorem mem_found : m ∈ found payload ↔ ∃ d ∈ detectors, m ∈ d.findings payload :=
  mem_flatMap

theorem detector_eq {d' : Detector} (hd : d ∈ detectors) (hd' : d' ∈ detectors)
    (h : d.kind = d'.kind)
    : d = d' :=
  inj_on_of_nodup_map (f := Detector.kind) (by decide) hd hd' h

theorem detectors_shapes
    : detectors.all (fun d => d.re.endsIn isWordByte && d.re.endsAtBoundary) = true ∧
      detectors.all (fun d => d.re.startsIn isWordByte || d.kind == str "EMAIL" ||
        (d.kind == str "PHONE" && d.re.startsIn (· == 43))) = true ∧
      detectors.all (fun d => d.re.within (· != 43) || d.kind == str "EMAIL" ||
        d.kind == str "PHONE") = true ∧
      detectors.all (fun d => d.re.within (!isLetter ·) || d.kind == str "EMAIL" ||
        d.kind == str "IBAN") = true ∧
      ibanPattern.within isWordByte = true := by
  decide +kernel

section

theorem findings_end (hd : d ∈ detectors) (h : m ∈ d.findings payload)
    : wordAt payload (m.finish - 1) = true ∧ wordAt payload m.finish = false := by
  have hends := all_eq_true.mp detectors_shapes.1 d hd
  rw [Bool.and_eq_true] at hends
  rcases findings_accepts h with ⟨hlt, haccepts⟩
  have hword : wordAt payload (m.finish - 1) = true := by
    rcases haccepts.reads_endsIn hends.1 with ⟨w, b, hreads, hb⟩
    have hpos : m.finish = m.start + (w ++ [b]).length := hreads.pos
    have hget := hreads.getElem? (j := w.length) (by simp)
    rw [length_append, length_singleton] at hpos
    unfold wordAt
    rw [show m.finish - 1 = m.start + w.length by omega, hget]
    simp [hb]
  refine ⟨hword, ?_⟩
  have hboundary := haccepts.atWordBoundary hends.2
  rw [Cursor.atWordBoundary_into, hword] at hboundary
  have hne : (m.finish != 0) = true := by
    rw [bne_iff_ne]
    omega
  simpa [hne] using hboundary

theorem findings_start (hd : d ∈ detectors) (h : m ∈ d.findings payload)
    (hstart : wordAt payload m.start = false)
    : m.kind = str "EMAIL" ∨ payload[m.start]? = some 43 := by
  have hstarts := all_eq_true.mp detectors_shapes.2.1 d hd
  have hkind := (mem_findings.mp h).2.1
  have haccepts := (findings_accepts h).2
  simp only [Bool.or_eq_true, Bool.and_eq_true, beq_iff_eq] at hstarts
  rcases hstarts with (hword | hemail) | ⟨_, hplus⟩
  . rcases haccepts.reads_startsIn hword with ⟨b, w, hreads, hb⟩
    have hget := hreads.getElem? (j := 0) (by simp)
    unfold wordAt at hstart
    rw [Nat.add_zero] at hget
    rw [hget] at hstart
    simp [hb] at hstart
  . exact .inl (hkind.trans hemail)
  . rcases haccepts.reads_startsIn hplus with ⟨b, w, hreads, hb⟩
    have hget := hreads.getElem? (j := 0) (by simp)
    rw [Nat.add_zero] at hget
    rw [hget]
    right
    simpa using hb

end

section

theorem getElem?_of_within {p : UInt8 → Bool} (haccepts : d.re.Accepts (.into payload m.start)
    (.into payload m.finish)) (hwithin : d.re.within p = true) {i : Nat} (hi : m.start ≤ i)
    (hi' : i < m.finish)
    : ∃ b, payload[i]? = some b ∧ p b = true := by
  rcases haccepts.reads_within hwithin with ⟨w, hreads, hall⟩
  have hpos : m.finish = m.start + w.length := hreads.pos
  have hget := hreads.getElem? (j := i - m.start) (by omega)
  rw [Nat.add_sub_cancel' hi] at hget
  have hmem := getElem_mem (l := w) (n := i - m.start) (by omega)
  rw [getElem?_eq_getElem (l := w) (by omega)] at hget
  exact ⟨_, hget, hall _ hmem⟩

theorem phone_inside {c c' : Cursor} (h : phonePattern.Accepts c c')
    : ∃ w, c.Reads (43 :: w) c' ∧ ∀ b ∈ w, (b != 43) = true := by
  rcases h with ⟨m, hplus, hrest⟩
  rw [accepts_lit] at hplus
  rcases hrest.reads_within (p := (· != 43)) (by decide +kernel) with ⟨w, hreads, hall⟩
  exact ⟨w, hplus.append hreads, hall⟩

theorem findings_inside (hd : d ∈ detectors) (h : m ∈ d.findings payload) {i : Nat}
    (hi : m.start < i) (hi' : i < m.finish) (hplus : payload[i]? = some 43)
    : m.kind = str "EMAIL" := by
  have hinside := all_eq_true.mp detectors_shapes.2.2.1 d hd
  have hkind := (mem_findings.mp h).2.1
  have haccepts := (findings_accepts h).2
  simp only [Bool.or_eq_true, beq_iff_eq] at hinside
  rcases hinside with (hwithin | hemail) | hphone
  . rcases getElem?_of_within haccepts hwithin (by omega) hi' with ⟨b, hb, hne⟩
    rw [hplus, some.injEq] at hb
    subst hb
    simp at hne
  . exact hkind.trans hemail
  . -- Its pattern has the sign in front only.
    rw [@detector_eq d ⟨str "PHONE", phonePattern, fun _ => true⟩ hd (by simp [detectors]) hphone]
      at haccepts
    rcases phone_inside haccepts with ⟨w, hreads, hall⟩
    have hpos : m.finish = m.start + (43 :: w).length := hreads.pos
    rw [length_cons] at hpos
    have hget := hreads.getElem? (j := i - m.start - 1 + 1) (by rw [length_cons]; omega)
    rw [show m.start + (i - m.start - 1 + 1) = i by omega, hplus, getElem?_cons_succ,
      getElem?_eq_getElem (by omega), some.injEq] at hget
    have := hall _ (getElem_mem (l := w) (n := i - m.start - 1) (by omega))
    rw [← hget] at this
    simp at this

end

section

theorem emailPattern_accepts_iff {c c' : Cursor}
    : emailPattern.Accepts c c'
        ↔
      c.atWordBoundary = true ∧ ∃ m, (∃ w : Str, w ≠ [] ∧ (∀ b ∈ w, isLocal b = true) ∧ c.Reads w m) ∧
        domain.Accepts m c' := by
  constructor
  . rintro ⟨_, ⟨rfl, hboundary⟩, m, hlocal, hrest⟩
    exact ⟨hboundary, m, accepts_plus_byte.mp hlocal, hrest⟩
  . rintro ⟨hboundary, m, hlocal, hrest⟩
    exact ⟨_, ⟨rfl, hboundary⟩, m, accepts_plus_byte.mpr hlocal, hrest⟩

def emailDetector : Detector := ⟨str "EMAIL", emailPattern, fun _ => true⟩

theorem mem_email_findings (hd : d ∈ detectors) (h : m ∈ d.findings payload)
    (hkind : m.kind = str "EMAIL")
    : m ∈ emailDetector.findings payload := by
  have hemail : d = emailDetector := by
    apply detector_eq hd (by simp [detectors, emailDetector])
    rw [← (mem_findings.mp h).2.1]
    exact hkind
  rw [hemail] at h
  exact h

theorem email_tail {e : Match} (h : e ∈ emailDetector.findings payload)
    : ∃ dot, dot + 3 ≤ e.finish ∧ payload[dot]? = some 46 ∧
        ∀ i, dot < i → i < e.finish → ∃ b, payload[i]? = some b ∧ isLetter b = true := by
  have haccepts : emailPattern.Accepts (.into payload e.start) (.into payload e.finish) :=
    (findings_accepts h).2
  rcases emailPattern_accepts_iff.mp haccepts with ⟨_, m, ⟨w, _, _, hlocal⟩, hdomain⟩
  rcases hdomain with ⟨m₁, hat, m₂, hname, m₃, hdot, m₄, htld, heq, _⟩
  rw [accepts_lit] at hat hdot
  rcases accepts_plus_byte.mp hname with ⟨name, _, _, hname⟩
  rcases accepts_rep_byte.mp htld with ⟨tld, htwo, _, hletters, htld⟩
  subst heq
  have hbefore := (hlocal.append hat).append hname
  have hm₂ := hbefore.into_eq
  generalize e.start + (w ++ [64] ++ name).length = dot at hm₂
  subst hm₂
  have hm₃ := hdot.into_eq
  rw [length_singleton] at hm₃
  subst hm₃
  have hpos : e.finish = dot + 1 + tld.length := htld.pos
  refine ⟨dot, by omega, hdot.getElem? (j := 0) (by simp), ?_⟩
  intro i hi hi'
  have hget := htld.getElem? (j := i - (dot + 1)) (by omega)
  rw [show dot + 1 + (i - (dot + 1)) = i by omega,
    getElem?_eq_getElem (l := tld) (by omega)] at hget
  exact ⟨_, hget, hletters _ (getElem_mem _)⟩

theorem isWordByte_of_isLetter {b : UInt8} (h : isLetter b = true) : isWordByte b = true := by
  grind [isLetter, isWordByte]

theorem isLocal_of_isWordByte {b : UInt8} (h : isWordByte b = true) : isLocal b = true :=
  forallByte_imp (p := isLocal) (q := isWordByte) (by decide +kernel) h

theorem ibanPattern_accepts {c c' : Cursor} (h : ibanPattern.Accepts c c')
    : c.atWordBoundary = true ∧ ∃ country check rest : Str, country.length = 2 ∧ check.length = 2 ∧
        (∀ b ∈ check, (!isLetter b) = true) ∧ c.Reads (country ++ check ++ rest) c' := by
  rcases h with ⟨_, ⟨rfl, hboundary⟩, m₁, hcountry, m₂, hcheck, m₃, hrest, rfl, _⟩
  rcases accepts_rep_byte.mp hcountry with ⟨country, hmin, hmax, _, hcountry⟩
  rcases accepts_rep_byte.mp hcheck with ⟨check, hmin', hmax', hdigits, hcheck⟩
  rcases accepts_rep_byte.mp hrest with ⟨rest, _, _, _, hrest⟩
  have hmax := hmax 2 rfl
  have hmax' := hmax' 2 rfl
  refine ⟨hboundary, country, check, rest, by omega, by omega, ?_,
    (hcountry.append hcheck).append hrest⟩
  intro b hb
  have hdigit := hdigits b hb
  grind [isLetter]

theorem eq_of_covers_email_end {e : Match} (he : e ∈ emailDetector.findings payload)
    (hd : d ∈ detectors) (h : m ∈ d.findings payload) (hstart : m.start < e.finish)
    (hfinish : e.finish ≤ m.finish)
    : m = e := by
  have hemail : emailDetector ∈ detectors := by simp [detectors, emailDetector]
  rcases email_tail he with ⟨dot, hdot, hget, hletters⟩
  rcases hletters (e.finish - 1) (by omega) (by omega) with ⟨last, hlast, hletter⟩
  have hend := findings_end hemail he
  have haccepts := (findings_accepts h).2
  have hd' := all_eq_true.mp detectors_shapes.2.2.2.1 d hd
  simp only [Bool.or_eq_true, beq_iff_eq] at hd'
  rcases hd' with (hwithin | hkind) | hkind
  . rcases getElem?_of_within haccepts hwithin (i := e.finish - 1) (by omega) (by omega)
      with ⟨b, hb, hnot⟩
    rw [hlast, some.injEq] at hb
    subst hb
    simp [hletter] at hnot
  . rw [detector_eq hd hemail hkind] at h
    rcases findings_apart h he with heq | hbefore | hafter
    . exact heq
    . have := (findings_accepts he).1
      omega
    . omega
  . -- An account number starts its word with two letters and a digit, here the word is all letters.
    exfalso
    rw [@detector_eq d ⟨str "IBAN", ibanPattern, validIBAN⟩ hd (by simp [detectors]) hkind]
      at haccepts
    rcases ibanPattern_accepts haccepts with
      ⟨hboundary, country, check, rest, hcountry, hcheck, hdigits, hreads⟩
    have hword : ∀ i, dot < i → i < e.finish → wordAt payload i = true := by
      intro i hi hi'
      rcases hletters i hi hi' with ⟨b, hb, hletter⟩
      unfold wordAt
      rw [hb]
      simpa using isWordByte_of_isLetter hletter
    have hdotStart : dot < m.start := by
      by_contra hle
      rcases getElem?_of_within (p := isWordByte) haccepts detectors_shapes.2.2.2.2 (i := dot) (by omega)
        (by omega) with ⟨b, hb, hbword⟩
      rw [hget, some.injEq] at hb
      subst hb
      revert hbword
      decide
    have hstart' : m.start = dot + 1 := by
      by_contra hne
      rw [Cursor.atWordBoundary_into, hword m.start hdotStart hstart,
        hword (m.start - 1) (by omega) (by omega)] at hboundary
      simp at hboundary
      omega
    have hpos : m.finish = m.start + (country ++ check ++ rest).length := hreads.pos
    have hthird := hreads.getElem? (j := 2) (by simp only [length_append]; omega)
    rw [append_assoc, getElem?_append_right (by omega), getElem?_append_left (by omega), hcountry,
      getElem?_eq_getElem (l := check) (by omega)] at hthird
    have hnot := hdigits _ (getElem_mem (l := check) (n := 2 - 2) (by omega))
    rw [length_append, length_append] at hpos
    by_cases hinside : m.start + 2 < e.finish
    . rcases hletters (m.start + 2) (by omega) hinside with ⟨b, hb, hletter⟩
      rw [hthird, some.injEq] at hb
      rw [hb, hletter] at hnot
      simp at hnot
    . rcases getElem?_of_within (p := isWordByte) haccepts detectors_shapes.2.2.2.2 (i := m.start + 2)
        (by omega) (by omega) with ⟨b, hb, hbword⟩
      have houtside : wordAt payload (m.start + 2) = false := by
        rw [show m.start + 2 = e.finish by omega]
        exact hend.2
      unfold wordAt at houtside
      rw [hb] at houtside
      simp [hbword] at houtside

theorem email_follows {c : Match} (hc : c ∈ emailDetector.findings payload)
    (hstart : wordAt payload c.start = false)
    : ∃ e ∈ emailDetector.findings payload, e.finish = c.start := by
  have hemail : emailDetector ∈ detectors := by simp [detectors, emailDetector]
  have haccepts : emailPattern.Accepts (.into payload c.start) (.into payload c.finish) :=
    (findings_accepts hc).2
  rcases emailPattern_accepts_iff.mp haccepts with ⟨hboundary, m, ⟨w, hne, hw, hlocal⟩, hdomain⟩
  rw [Cursor.atWordBoundary_into, hstart] at hboundary
  have hprev : c.start ≠ 0 ∧ wordAt payload (c.start - 1) = true := by simpa using hboundary
  rcases exists_word_start hprev.2 with ⟨j, hj, hword, hjboundary⟩
  have hle := findings_finish_le hc
  have hlt := (findings_accepts hc).1
  have hreads := @Cursor.reads_into payload j c.start (by omega) (by omega)
  have hlocal' : ∀ b ∈ (payload.take c.start).drop j ++ w, isLocal b = true := by
    intro b hb
    rcases mem_append.mp hb with hb | hb
    . rcases mem_iff_getElem?.mp hb with ⟨k, hk⟩
      have hklt := (List.getElem?_eq_some_iff.mp hk).1
      rw [length_drop, length_take] at hklt
      rw [getElem?_drop, getElem?_take_of_lt (by omega)] at hk
      have hbword := hword (j + k) (by omega) (by omega)
      unfold wordAt at hbword
      rw [hk] at hbword
      exact isLocal_of_isWordByte (by simpa using hbword)
    . exact hw b hb
  have hearlier : emailPattern.Accepts (.into payload j) (.into payload c.finish) :=
    emailPattern_accepts_iff.mpr
      ⟨hjboundary, m, ⟨_, by simp [hne], hlocal', hreads.append hlocal⟩, hdomain⟩
  rcases findAllIndex_covers (by decide) (by decide) hearlier with
    ⟨span, hspan, hle', hlt'⟩
  have he : (⟨str "EMAIL", span.1, span.2, (payload.take span.2).drop span.1⟩ : Match)
      ∈ emailDetector.findings payload := by
    rw [mem_findings]
    exact ⟨hspan, rfl, rfl, rfl⟩
  refine ⟨_, he, ?_⟩
  have hend := (findings_end hemail he).2
  dsimp only at hend ⊢
  rcases findings_apart he hc with heq | hbefore | hafter
  . have := congrArg Match.start heq
    dsimp only at this
    omega
  . dsimp only at hbefore
    by_contra hne'
    rw [hword span.2 (by omega) (by omega)] at hend
    simp at hend
  . dsimp only at hafter
    omega

end

end ModelGateway.Pii
