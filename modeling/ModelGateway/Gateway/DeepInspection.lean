import ModelGateway.Gateway.Protection
import ModelGateway.Pii.Coverage
import ModelGateway.Sidecar.Entities

namespace ModelGateway.Gateway.Pipeline

open List Rune

open Pii (DetectedEntity Piece)

variable (p : Pipeline) (ports : Ports) (registry : Sidecar.Registry)

def AsksSidecar : Prop :=
  ∀ n body entities, ports.ner n body = .ok entities →
    Sidecar.entities registry body = some entities

def HidesEntities (which : DetectedEntity → Prop) (n : Nat) (principal : Principal) (req : Request)
    (d : Deployment) (w : World) : Prop :=
  ∀ payload replacements, (p.protect ports n principal req d w).1 = .ok (payload, replacements) →
    payload = (Pii.pieces p.hmac p.pepper req.body .tokenize (p.detected ports n req)).flatMap
      (·.text req.body) ∧
    ∀ found, registry.recognize (Rune.text req.body) none = some found → ∀ e ∈ found, which e → ∀ i,
      Rune.offset (Rune.read req.body) e.start.toNat ≤ i →
      i < Rune.offset (Rune.read req.body) e.finish.toNat →
      ∀ start finish,
        .copied start finish ∈
          Pii.pieces p.hmac p.pepper req.body .tokenize (p.detected ports n req) →
        ¬ (start ≤ i ∧ i < finish)

structure Spotted (body : Str) (e : DetectedEntity) : Prop where
  seen : ∃ answer, registry.recognize (Sidecar.inspected (Rune.text body)) none = some answer ∧
    e ∈ answer
  legible : Rune.legible (Rune.read body) e.finish.toNat = true
  whole : ∀ a ∈ Pii.detect body, a.start ≤ e.start.toNat → e.start.toNat < a.finish →
    e.finish.toNat ≤ a.finish

variable {p ports registry}

section

variable {body : Str} {found : List DetectedEntity}

theorem entity_located (hfound : registry.recognize (Rune.text body) none = some found)
    {e : DetectedEntity} (he : e ∈ found) (hne : e.start < e.finish)
    (hlegible : Rune.legible (Rune.read body) e.finish.toNat = true)
    : Rune.offset (Rune.read body) e.start.toNat = e.start.toNat ∧
      Rune.offset (Rune.read body) e.finish.toNat = e.finish.toNat ∧
      ∀ es, e ∈ es → ⟨e.kind, e.start.toNat, e.finish.toNat, e.value⟩ ∈ Pii.toMatches body es := by
  rcases Sidecar.Registry.exists_span_of_mem hfound he with ⟨s, rfl⟩
  rcases s.entity_bounds _ hne with ⟨i, j, hij, hj, hstart, hfinish, hsplit⟩
  generalize s.entity (Rune.text body) = e at *
  unfold Rune.text at hstart hfinish hsplit hj
  rw [length_map] at hj
  rw [hfinish, Int.toNat_natCast] at hlegible
  have hraw := raw_eq_of_legible hj hlegible
  have hencode : ∀ k ≤ j, ((Rune.read body).take k).flatMap Rune.raw
      = Rune.encode (((Rune.read body).map Rune.char).take k) := by
    intro k hk
    rw [← map_take]
    apply flatMap_raw_eq_encode
    intro r hr
    apply hraw r
    exact (take_subset_take_left _ hk) hr
  -- The body starts with the encoding of everything up to the end of the entity.
  have hbody : body = Rune.encode (((Rune.read body).map Rune.char).take j) ++
      ((Rune.read body).drop j).flatMap Rune.raw := by
    rw [← hencode j (Nat.le_refl j), ← flatMap_append, take_append_drop, flatMap_raw_read]
  refine ⟨?_, ?_, ?_⟩
  . rw [hstart, Int.toNat_natCast, offset_encode (by omega), hencode i hij]
  . rw [hfinish, Int.toNat_natCast, offset_encode hj, hencode j (Nat.le_refl j)]
  . intro es hes
    have hwithin : ¬ (body.length : Int) < e.finish := by
      have := congrArg List.length hbody
      rw [length_append] at this
      omega
    have hslice : (body.take e.finish.toNat).drop e.start.toNat = e.value := by
      rw [hbody, hfinish, hstart, Int.toNat_natCast, Int.toNat_natCast, take_left, hsplit,
        drop_left]
    unfold Pii.toMatches
    rw [mem_filterMap]
    refine ⟨e, hes, ?_⟩
    rw [if_neg (by omega), if_neg (by simp [hslice])]

variable {es : List DetectedEntity}

theorem toMatches_disjoint (h : es.Pairwise (fun a b => a.finish.toNat ≤ b.start.toNat))
    : (Pii.toMatches body es).Pairwise (fun a b => a.finish ≤ b.start) := by
  unfold Pii.toMatches
  rw [pairwise_filterMap]
  apply h.imp
  intro a b hab m hm m' hm'
  split at hm
  . simp at hm
  . split at hm
    . simp at hm
    . split at hm'
      . simp at hm'
      . split at hm'
        . simp at hm'
        . cases hm
          cases hm'
          exact hab

theorem toMatches_locates {m : Pii.Match} (h : m ∈ Pii.toMatches body es)
    : m.Locates body ∧ m.start < m.finish := by
  rcases mem_filterMap.mp h with ⟨e, _, hm⟩
  split at hm
  . simp at hm
  . split at hm
    . simp at hm
    . next hslice =>
      cases hm
      refine ⟨⟨?_, ?_, ?_⟩, ?_⟩
      . dsimp only
        omega
      . dsimp only
        omega
      . exact (Classical.not_not.mp hslice).symm
      . dsimp only
        omega

theorem match_locates {m : Pii.Match} (h : m ∈ Pii.detect body ++ Pii.toMatches body es)
    : m.Locates body := by
  rcases mem_append.mp h with h | h
  . rw [Pii.detect_eq, Pii.withoutOverlaps_eq_select] at h
    exact Pii.found_locates (Pii.mem_sortByStart.mp (Intervals.select_sublist.subset h))
  . exact (toMatches_locates h).1

theorem covers_of_whole {deep : List Pii.Match} (hdeep : deep.Pairwise (fun a b => a.finish ≤ b.start))
    {m : Pii.Match} (hm : m ∈ deep) (hne : m.start < m.finish)
    (hwhole : ∀ a ∈ Pii.detect body, a.start ≤ m.start → m.start < a.finish → m.finish ≤ a.finish)
    {i : Nat} (hi : m.start ≤ i) (hi' : i < m.finish)
    : Intervals.Covers Pii.Match.start Pii.Match.finish
        (Pii.withoutOverlaps (Pii.detect body ++ deep)) i := by
  have hsorted := @Pii.pairwise_sortByStart (fun _ _ => True) (Pii.detect body ++ deep)
    (pairwise_of_forall (fun _ _ _ => trivial))
  rw [Pii.withoutOverlaps_eq_select]
  rcases Intervals.select_none_skips Pii.Match.start Pii.Match.finish hsorted
    (Pii.mem_sortByStart.mpr (mem_append_right _ hm)) with hkept | ⟨a, ha, hle, hlt⟩
  . exact ⟨m, hkept, hi, hi'⟩
  . have hmem := Pii.mem_sortByStart.mp (Intervals.select_sublist.subset ha)
    rcases mem_append.mp hmem with hdet | hmem
    . have := hwhole a hdet (by omega) hlt
      exact ⟨a, ha, by omega, by omega⟩
    . rcases Intervals.eq_or_related hdeep hmem hm with rfl | hbefore | hafter
      . exact ⟨a, ha, hi, hi'⟩
      . omega
      . omega

end

theorem entities_hidden {n : Nat} {principal : Principal} {req : Request} {d : Deployment} {w : World}
    (hsidecar : AsksSidecar ports registry)
    (htokenize : strategyFor principal.defaultClass d.trustTier = .tokenize)
    (hdeep : req.deepInspection = true)
    : HidesEntities p ports registry (Spotted registry req.body) n principal req d w := by
  intro payload replacements hprotect
  rcases p.protect_cases ports n principal req d w with ⟨_, _, ⟨err, h⟩ | ⟨hinspected, h⟩⟩
  . rw [h] at hprotect
    simp at hprotect
  . rw [h] at hprotect
    rcases hprotect with ⟨rfl, _⟩
    rcases (p.inspect_snd_eq_none_iff ports n req).mp (hinspected htokenize) hdeep with
      ⟨hner, entities, hentities⟩
    have hdetected : p.detected ports n req
        = Pii.withoutOverlaps (Pii.detect req.body ++ Pii.toMatches req.body entities) := by
      simp [detected, detected.deep, hdeep, hner, hentities]
    have hanswer := hsidecar n req.body entities hentities
    rw [Sidecar.entities_eq] at hanswer
    constructor
    . unfold transform
      rw [htokenize, Pii.transformMatches_payload (by simp), p.inspect_fst]
    . intro found hfound e he hspot i hi hi' start finish hcopied hbyte
      rcases hspot.seen with ⟨_, hsame, hseen⟩
      rw [hanswer, Option.some.injEq] at hsame
      subst hsame
      have hne : e.start < e.finish := by
        by_contra hge
        have heq : e.finish = e.start := by
          rcases Sidecar.Registry.exists_span_of_mem hfound he with ⟨s, rfl⟩
          have := s.entity_slice (Rune.text req.body)
          omega
        rw [heq] at hi'
        omega
      rcases entity_located hfound he hne hspot.legible with ⟨hstart, hfinish, hmem⟩
      rw [hstart] at hi
      rw [hfinish] at hi'
      have hm := hmem entities hseen
      have hordered := Pii.withoutOverlaps_ordered fun _ => @match_locates req.body entities _
      have hlt := Nat.lt_of_lt_of_le hi' (toMatches_locates hm).1.within
      have hcovers := covers_of_whole (toMatches_disjoint ((Sidecar.Registry.found_pairwise hanswer).imp And.right))
        hm (toMatches_locates hm).2 hspot.whole hi hi'
      rw [hdetected] at hcopied
      exact (Pii.copied_iff hordered (Nat.zero_le i) hlt).mp ⟨start, finish, hcopied, hbyte⟩ hcovers

end ModelGateway.Gateway.Pipeline

namespace ModelGateway.Gateway.Sample

def registry : Sidecar.Registry := .new (fun _ => false) (str "en")

def inspecting : Pipeline := { pipeline with ner := true }

def beside : Ports :=
  { calm with
    ner := fun _ body =>
      match Sidecar.entities registry body with
      | some entities => .ok entities
      | none => .error (.ofCode .unavailable []) }

theorem beside_asks : Pipeline.AsksSidecar beside registry := by
  intro n body entities h
  unfold beside at h
  dsimp only at h
  split at h
  . next hsome =>
    cases h
    exact hsome
  . simp at h

def inquiry (body : Str) : Request :=
  { request body with deepInspection := true }

def doctor : Str := str "\x7b\"m\":\" Dr. Smith\"\x7d"

def garbled : Str := str "\x7b\"m\":\"" ++ [0xff] ++ str " Dr. Smith\"\x7d"

theorem doctor_spotted : Pipeline.Spotted registry doctor ⟨str "PERSON", 11, 16, str "Smith"⟩ := by
  have hinspected : registry.recognize (Sidecar.inspected (Rune.text doctor)) none
      = some [⟨str "PERSON", 11, 16, str "Smith"⟩] := by
    decide +kernel
  have hdetect : Pii.detect doctor = [] := by decide +kernel
  refine ⟨⟨_, hinspected, by simp⟩, by decide +kernel, ?_⟩
  intro a ha
  rw [hdetect] at ha
  simp at ha

theorem doctor_hidden
    : Pipeline.Spotted registry doctor ⟨str "PERSON", 11, 16, str "Smith"⟩ ∧
      Pipeline.HidesEntities inspecting beside registry (Pipeline.Spotted registry doctor) 0
        (principal .restricted) (inquiry doctor) (deployment (str "d1") [] .external 100 0) .zero :=
  ⟨doctor_spotted, Pipeline.entities_hidden beside_asks (by decide) rfl⟩

theorem garbled_sent
    : ¬ Pipeline.HidesEntities inspecting beside registry (fun _ => True) 0 (principal .restricted)
        (inquiry garbled) (deployment (str "d1") [] .external 100 0) .zero := by
  intro h
  have hfull : registry.recognize (Rune.text garbled) none
      = some [⟨str "PERSON", 14, 19, str "Smith"⟩] := by
    decide +kernel
  have hentities : Sidecar.entities registry garbled
      = some [⟨str "PERSON", 14, 19, str "Smith"⟩] := by
    decide +kernel
  have hdetect : Pii.detect garbled = [] := by decide +kernel
  have hdropped : Pii.toMatches garbled [⟨str "PERSON", 14, 19, str "Smith"⟩] = [] := by
    decide +kernel
  have hinspect : inspecting.inspect beside 0 (inquiry garbled) = ([], none) := by
    have hbody : (inquiry garbled).body = garbled := rfl
    have hdeep : (inquiry garbled).deepInspection = true := rfl
    have hner : inspecting.ner = true := rfl
    rfl
  have hprotect : (inspecting.protect beside 0 (principal .restricted) (inquiry garbled)
      (deployment (str "d1") [] .external 100 0) .zero).1 = .ok (garbled, ∅) := by
    unfold Pipeline.protect
    rfl
  have hpieces : .copied 0 garbled.length ∈ Pii.pieces inspecting.hmac inspecting.pepper
      (inquiry garbled).body .tokenize (inspecting.detected beside 0 (inquiry garbled)) := by
    exact List.mem_singleton.mpr rfl
  apply (h _ _ hprotect).2 _ hfull _ (List.mem_singleton.mpr rfl) trivial 12 _ _ 0 garbled.length hpieces
  . decide +kernel
  . decide +kernel
  . decide +kernel

end ModelGateway.Gateway.Sample
