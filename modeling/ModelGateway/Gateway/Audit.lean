import ModelGateway.Gateway.Events
import ModelGateway.Gateway.Pipeline
import ModelGateway.Pii.Placeholders

namespace ModelGateway.Gateway

open List
open Option (isSome_none some)

def Classified (c : DataClass) : Prop :=
  c ≠ .unset ∧ c ≠ .publicData

theorem strategyFor_ne_hash (c : DataClass) (tier : TrustTier) : strategyFor c tier ≠ .hash := by
  unfold strategyFor
  split
  . simp
  . cases c <;> simp

namespace Pipeline

variable (p : Pipeline) (ports : Ports) (snap : Snapshot)

def strategyOf (prep : Prepared) (s : Sent) : Pii.Strategy :=
  strategyFor prep.principal.defaultClass s.call.deployment.trustTier

def foundFor (prep : Prepared) (s : Sent) : List Pii.Match :=
  (p.inspect ports s.tick prep.req).1

def replaced (prep : Prepared) (s : Sent) : Nat :=
  (p.transform ports s.tick prep.principal prep.req s.call.deployment).count

structure Audited (prep : Prepared) (s : Sent) (events : List Event) : Prop where
  emitted : Classified prep.principal.defaultClass ∨ 0 < p.replaced ports prep s →
    ∃ e, Event.audit e ∈ events
  counted : 0 < p.replaced ports prep s →
    ∃ e, Event.audit e ∈ events ∧ e.action = str "pii.redact" ∧ e.reason
        =
      str "redacted " ++ Str.ofNat (p.replaced ports prep s) ++ str " values before sending"

/-- Nothing was redacted, and a class of policy was there before, or values were tokenised. -/
structure AuditComplete (prep : Prepared) (s : Sent) : Prop where
  redacted : strategyOf prep s = .redact → p.foundFor ports prep s = []
  stamped : Classified prep.principal.defaultClass → Classified prep.authenticated.defaultClass ∨
      strategyOf prep s = .tokenize ∧ p.foundFor ports prep s ≠ []

theorem replaced_eq (prep : Prepared) (s : Sent)
    : p.replaced ports prep s
        =
      if strategyOf prep s = .none then 0 else (p.foundFor ports prep s).length := by
  unfold replaced transform strategyOf foundFor Pii.transformMatches
  split
  . rfl
  . split
    . next h => rw [h, length_nil]
    . rfl

theorem redactions_eq (prep : Prepared) (s : Sent)
    : (p.transform ports s.tick prep.principal prep.req s.call.deployment).replacements.keys.length
        =
      if strategyOf prep s = .tokenize then (p.foundFor ports prep s).length else 0 := by
  unfold transform strategyOf foundFor
  split
  . next h => rw [h, Pii.transformMatches_tokenize_keys_length]
  . next h =>
    rw [Pii.transformMatches_replacements_of_ne_tokenize h]
    rfl

section

variable {req : Request} {result : Result} {usage : UsageEvent}

theorem audit_mem_iff {redactions : Nat} {e : AuditEvent}
    : Event.audit e ∈ Event.usage usage
          :: ((auditEvent snap req result redactions none).map Event.audit).toList
        ↔
      auditEvent snap req result redactions none = some e := by
  simp

theorem audit_emitted_iff (redactions : Nat)
    : (∃ e, auditEvent snap req result redactions none = some e)
        ↔
      0 < redactions ∨ Classified result.principal.defaultClass := by
  unfold auditEvent auditable Classified
  by_cases hredactions : 0 < redactions
  . simp [hredactions]
  . by_cases hclass : result.principal.defaultClass ≠ .unset ∧
        result.principal.defaultClass ≠ .publicData
    . simp [hredactions, hclass]
    . simp [hredactions, hclass]

theorem audit_counted_iff (redactions count : Nat)
    : (∃ e, auditEvent snap req result redactions none = some e ∧ e.action = str "pii.redact" ∧
        e.reason = str "redacted " ++ Str.ofNat count ++ str " values before sending")
        ↔
      0 < redactions ∧ redactions = count := by
  have hname : req.requestMeta.endpoint.name ≠ str "pii.redact" := by
    cases req.requestMeta.endpoint <;> decide
  unfold auditEvent auditable
  by_cases hredactions : 0 < redactions
  . simp only [isSome_none, Bool.false_eq_true, if_false, hredactions, if_true,
      Option.map_some, some.injEq, true_and]
    constructor
    . rintro ⟨e, rfl, _, hreason⟩
      rw [append_cancel_right_eq, append_cancel_left_eq] at hreason
      apply Str.ofNat_inj hreason
    . rintro rfl
      exact ⟨_, rfl, rfl, rfl⟩
  . simp only [isSome_none, Bool.false_eq_true, if_false, hredactions, false_and, iff_false]
    rintro ⟨e, he, haction, _⟩
    rcases Option.map_eq_some_iff.mp he with ⟨⟨action, reason⟩, hauditable, rfl⟩
    split at hauditable
    . rw [some.injEq, Prod.mk.injEq] at hauditable
      apply hname
      rw [hauditable.1]
      exact haction
    . cases hauditable

end

theorem emitted_audited_iff {prep : Prepared} {s : Sent} {result : Result} {usage : UsageEvent}
    (hprincipal : result.principal = prep.authenticated)
    : p.Audited ports prep s
        (.usage usage :: ((auditEvent snap prep.req result (p.transform ports s.tick prep.principal
          prep.req s.call.deployment).replacements.keys.length none).map Event.audit).toList)
        ↔
      p.AuditComplete ports prep s := by
  have haudited : ∀ events, p.Audited ports prep s events ↔
      (Classified prep.principal.defaultClass ∨ 0 < p.replaced ports prep s →
        ∃ e, Event.audit e ∈ events) ∧
      (0 < p.replaced ports prep s → ∃ e, Event.audit e ∈ events ∧ e.action = str "pii.redact" ∧
          e.reason = str "redacted " ++ Str.ofNat (p.replaced ports prep s)
            ++ str " values before sending") :=
    fun _ => ⟨fun h => ⟨h.1, h.2⟩, fun h => ⟨h.1, h.2⟩⟩
  have hcomplete : p.AuditComplete ports prep s ↔
      (strategyOf prep s = .redact → p.foundFor ports prep s = []) ∧
      (Classified prep.principal.defaultClass → Classified prep.authenticated.defaultClass ∨
          strategyOf prep s = .tokenize ∧ p.foundFor ports prep s ≠ []) :=
    ⟨fun h => ⟨h.1, h.2⟩, fun h => ⟨h.1, h.2⟩⟩
  rw [haudited, hcomplete]
  simp only [audit_mem_iff, audit_emitted_iff, audit_counted_iff, hprincipal]
  rw [redactions_eq, replaced_eq, ← length_pos_iff, ← length_eq_zero_iff]
  have hhash : strategyOf prep s ≠ .hash := strategyFor_ne_hash _ _
  cases hstrategy : strategyOf prep s with
  | hash => exact absurd hstrategy hhash
  | none => simp
  | redact =>
    simp only [reduceCtorEq, if_false, Nat.lt_irrefl, false_or, false_and, or_false,
      imp_false, Nat.not_lt, Nat.le_zero, forall_const]
    constructor
    . rintro ⟨hemitted, hfound⟩
      exact ⟨hfound, fun hclass => hemitted (.inl hclass)⟩
    . rintro ⟨hfound, hstamped⟩
      refine ⟨?_, hfound⟩
      rintro (hclass | hpos)
      . exact hstamped hclass
      . omega
  | tokenize =>
    simp only [reduceCtorEq, if_false, if_true, true_and, and_true, imp_self]
    tauto

theorem audited_iff (req : Request) (w : World)
    : (∀ prep w' s, p.prepare ports snap req w = (.ok prep, w') →
        (p.handle ports snap req w).1.2 = none →
        (p.handle ports snap req w).2.sent.getLast? = some s →
        (p.Audited ports prep s ((p.handle ports snap req w).2.events.drop w.events.length)
          ↔
        p.AuditComplete ports prep s)) ∧
      (∀ prep w' s usage, p.prepare ports snap req w = (.ok prep, w') →
        (p.handleStream ports snap req w).1.2 = none →
        (p.handleStream ports snap req w).2.sent.getLast? = some s →
        (p.Audited ports prep s ((p.finish ports snap (p.handleStream ports snap req w).1.1 usage none
          (p.handleStream ports snap req w).2).2.events.drop w.events.length)
          ↔
        p.AuditComplete ports prep s)) := by
  constructor
  . intro prep w' s hprep hserved hlast
    rcases p.handle_cases ports snap req w with
      ⟨_, _, _, herr, _⟩ | ⟨_, _, _, _, _, herr, _⟩ | ⟨prep', w'', served, resp, hprep', hok, hout⟩
    . simp [hserved] at herr
    . simp [hserved] at herr
    . rw [hprep, Prod.mk.injEq, Except.ok.injEq] at hprep'
      rcases hprep' with ⟨rfl, rfl⟩
      rcases p.adapt_served ports false hok with ⟨_, n, _, credential, _, hcall, _, hmap⟩
      rw [hout] at hlast ⊢
      rw [settle_sent] at hlast
      change (p.adapt ports prep false w').state.1.sent.getLast? = some s at hlast
      rw [hcall, some.injEq] at hlast
      subst hlast
      rw [settle_usage]
      unfold emit
      rw [World.emit_events, adapt_events, p.prepared_events ports snap hprep, drop_left, hmap]
      apply emitted_audited_iff p ports snap rfl
  . intro prep w' s usage hprep hserved hlast
    rcases p.handleStream_cases ports snap req w with
      ⟨_, _, _, herr, _⟩ | ⟨_, _, _, _, _, herr, _⟩ | ⟨prep', w'', served, _, hprep', hok, hout⟩
    . simp [hserved] at herr
    . simp [hserved] at herr
    . rw [hprep, Prod.mk.injEq, Except.ok.injEq] at hprep'
      rcases hprep' with ⟨rfl, rfl⟩
      rcases p.adapt_served ports true hok with ⟨_, n, _, credential, _, hcall, _, hmap⟩
      rw [hout] at hlast ⊢
      change (p.adapt ports prep true w').state.1.sent.getLast? = some s at hlast
      rw [hcall, some.injEq] at hlast
      subst hlast
      generalize hr : StreamResult.mk _ _ _ _ _ _ _ _ _ = r
      have hfresh : r.finished = false := by rw [← hr]
      have hfinish : r.finish = some (prep.principal, prep.req, served,
          (p.adapt ports prep true w').state.2.keys.length) := by rw [← hr]
      have hauthenticated : r.principal = prep.authenticated := by rw [← hr]
      rw [p.finish_events_of_started ports snap hfresh hfinish]
      unfold emit
      rw [World.emit_events, adapt_events, p.prepared_events ports snap hprep, drop_left, hmap]
      apply emitted_audited_iff p ports snap hauthenticated

end Pipeline

namespace Sample

def Event.isAudit : Event → Bool
  | .usage _ => false
  | .audit _ => true

def classifying : Pipeline :=
  { pipeline with
    codec := {
      codec with
      unmarshal := fun _ =>
        .ok ⟨[], 1, [⟨str "classify", 1, [], [], [], [], [], 0, str "internal", 0, false, []⟩], 1⟩ } }

theorem redaction_unaudited
    : (snapshot outside (str "bundle") .unset .unset).Composed ∧ ∃ prep w' s,
        classifying.prepare echo (snapshot outside (str "bundle") .unset .unset)
          (request (str "a@b.co")) .zero = (.ok prep, w') ∧
        (classifying.handle echo (snapshot outside (str "bundle") .unset .unset)
          (request (str "a@b.co")) .zero).1.2 = none ∧
        (classifying.handle echo (snapshot outside (str "bundle") .unset .unset)
          (request (str "a@b.co")) .zero).2.sent.getLast? = some s ∧
        Classified prep.principal.defaultClass ∧
        classifying.replaced echo prep s = 1 ∧
        (classifying.handle echo (snapshot outside (str "bundle") .unset .unset)
          (request (str "a@b.co")) .zero).2.events.all (!Event.isAudit ·) = true := by
  refine ⟨snapshot_composed rfl rfl rfl,
    ⟨principal .unset, principal .internal, request (str "a@b.co"),
      [⟨deployment (str "d1") [] .external 100 0, 5 / 4, 1⟩]⟩, _,
    ⟨⟨deployment (str "d1") [] .external 100 0, (request []).requestMeta, str "[[EMAIL_1]]",
      ⟨str "ref", str "secret"⟩⟩, false, 1⟩, Prod.ext ?_ rfl, ?_, ?_, ?_, ?_, ?_⟩
  . decide +kernel
  . decide +kernel
  . decide +kernel
  . exact ⟨by decide, by decide⟩
  . decide +kernel
  . decide +kernel

end Sample

end ModelGateway.Gateway
