import ModelGateway.Control.BuilderLemmas
import ModelGateway.Snapshot.Holder
import ModelGateway.Snapshot.Source

/-!
This module contains the subscriber that fetches snapshots and the versions that it skips.
-/

namespace ModelGateway

open List Except Function
open Option (getD_some some)

open Wire

structure Subscriber where
  digest : Option Str
  applied : Nat
  unchanged : Nat
  failed : Nat
  rejected : Nat
  lastError : Option GoError

structure Feed where
  subscriber : Subscriber
  serving : Snapshot
  accepted : Option SnapshotMsg

namespace Feed

def new (initial : Snapshot) : Feed where
  subscriber := ⟨none, 0, 0, 0, 0, none⟩
  serving := initial
  accepted := none

variable (f : Format) (ed25519 : Str → Str → Str → Bool)

def refresh (s : Feed) (offer : Offer) : Feed :=
  match offer.fetch f ed25519 (s.subscriber.digest.getD []) with
  | .error err =>
    { s with subscriber :=
      { s.subscriber with failed := s.subscriber.failed + 1, lastError := some err } }
  | .ok ⟨some next, digest, false⟩ =>
    match checkMonotonic s.serving next with
    | .error err =>
      { s with subscriber :=
        { s.subscriber with rejected := s.subscriber.rejected + 1, lastError := some err } }
    | .ok _ => {
        subscriber :=
          { s.subscriber with
            digest := some digest, applied := s.subscriber.applied + 1, lastError := none }
        serving := next
        accepted := offer.message f ed25519
      }
  | .ok _ => { s with subscriber := { s.subscriber with unchanged := s.subscriber.unchanged + 1 } }

inductive Event where
  | refresh (offer : Offer)
  | replace (next : Snapshot)

def step (s : Feed) : Event → Option Feed
  | .refresh offer => some (s.refresh f ed25519 offer)
  | .replace next => some { s with serving := next }

def Skips (s : Feed) (offer : Offer) : Prop :=
  (s.refresh f ed25519 offer).subscriber.unchanged = s.subscriber.unchanged + 1

end Feed

section

variable {f : Format}

theorem digestOf_injective (hsha256 : Injective f.sha256) : Injective (digestOf f) := by
  intro b b' h
  unfold digestOf at h
  rw [append_cancel_left_eq] at h
  exact hsha256 (Pii.hexEncode_injective h)

theorem digestGlobal_of_verifyGlobal {g : GlobalLayerMsg} (h : verifyGlobal f g = .ok ())
    (hdigest : g.version.digest ≠ [])
    : digestGlobal f g = g.version.digest := by
  unfold verifyGlobal at h
  rw [if_neg hdigest, ite_error_eq_ok_iff, Decidable.not_not] at h
  exact h.1

theorem eq_of_verifyGlobal (hsha256 : Injective f.sha256) {g g' : GlobalLayerMsg}
    (h : verifyGlobal f g = .ok ()) (h' : verifyGlobal f g' = .ok ())
    (hdigest : g.version.digest ≠ []) (heq : g.version.digest = g'.version.digest)
    : g = g' := by
  have hcovered : digestGlobal f g = digestGlobal f g' := by
    rw [digestGlobal_of_verifyGlobal h hdigest, digestGlobal_of_verifyGlobal h' (heq ▸ hdigest), heq]
  have hcleared : g.withDigest [] = g'.withDigest [] :=
    f.globalLayer.marshal_injective (digestOf_injective hsha256 hcovered)
  have hstamp : ∀ m : GlobalLayerMsg, (m.withDigest []).withDigest m.version.digest = m := fun _ => rfl
  rw [← hstamp g, ← hstamp g', hcleared, heq]

end

section

variable {f : Format} {ed25519 : Str → Str → Str → Bool} {offer : Offer} {msg : SnapshotMsg}

theorem message_file_eq_some_iff {b : Str}
    : (Offer.file (.ok b)).message f ed25519 = some msg ↔ f.snapshot.unmarshal b = .ok msg ∧
        ∃ snap, decodeAndVerify f b = .ok (snap, msg.globalDigest) := by
  cases hdecode : decodeAndVerify f b with
  | error err => simp [Offer.message, hdecode]
  | ok r =>
    rcases r with ⟨snap, digest⟩
    rcases (decodeAndVerify_eq_ok_iff f b snap digest).mp hdecode with ⟨m, hm, _, _, _, rfl⟩
    simp only [Offer.message, hdecode, hm, Except.toOption, some.injEq, ok.injEq, Prod.mk.injEq]
    constructor
    . rintro rfl
      exact ⟨rfl, snap, rfl, rfl⟩
    . rintro ⟨rfl, _⟩
      rfl

variable {config : Control.Config}

theorem message_endpoint_eq_some_iff {broken : Option Str}
    : (Offer.endpoint config broken).message f ed25519 = some msg
        ↔
      config.build f ed25519 = .ok msg := by
  cases hbuild : config.build f ed25519 with
  | error err => simp [Offer.message, hbuild, Except.toOption]
  | ok m => simp [Offer.message, hbuild, Except.toOption]

theorem verifyGlobal_of_message (h : offer.message f ed25519 = some msg)
    : ∃ g, msg.globalLayer = some g ∧ verifyGlobal f g = .ok () := by
  cases offer with
  | file contents =>
    cases contents with
    | error err => simp [Offer.message] at h
    | ok b =>
      rcases message_file_eq_some_iff.mp h with ⟨hmsg, snap, hdecode⟩
      rcases (decodeAndVerify_eq_ok_iff f b snap _).mp hdecode with ⟨m, hm, hverify, _, hsnap, _⟩
      rw [hmsg] at hm
      cases hm
      cases hglobal : msg.globalLayer with
      | none => simp [decodeSnapshot, hglobal] at hsnap
      | some g =>
        rw [hglobal] at hverify
        exact ⟨g, rfl, hverify⟩
  | unreachable err => simp [Offer.message] at h
  | endpoint config broken =>
    rw [message_endpoint_eq_some_iff] at h
    unfold Control.Config.build at h
    rw [bind_eq_ok_iff] at h
    rcases h with ⟨⟨_, _⟩, _, hbuild⟩
    rcases Control.buildSnapshot_eq_ok f hbuild with ⟨layer, _, _, _, _, rfl⟩
    exact ⟨_, rfl, Control.verifyGlobal_sealLayer f layer⟩

theorem Control.statusOf_ne (err : Control.Error)
    : Control.statusOf err ≠ 304 ∧ Control.statusOf err ≠ 200 := by
  cases err with
  | invalidRequest message => simp [Control.statusOf]
  | notFound message => simp [Control.statusOf]
  | forbidden message => simp [Control.statusOf]
  | value message => simp [Control.statusOf]

theorem fetch_of_globalDigest (h : offer.message f ed25519 = some msg) (hne : msg.globalDigest ≠ [])
    : offer.fetch f ed25519 msg.globalDigest = .ok ⟨none, msg.globalDigest, true⟩ := by
  cases offer with
  | file contents =>
    cases contents with
    | error err => simp [Offer.message] at h
    | ok b =>
      rcases message_file_eq_some_iff.mp h with ⟨_, snap, hdecode⟩
      simp [Offer.fetch, FileSource.fetch, hdecode, hne]
  | unreachable err => simp [Offer.message] at h
  | endpoint config broken =>
    rw [message_endpoint_eq_some_iff] at h
    cases broken with
    | none => simp [Offer.fetch, Control.current, h, HTTPSource.fetch, hne]
    | some err => simp [Offer.fetch, Control.current, h, HTTPSource.fetch, hne]

variable {known : Str} {fetched : Fetched}

theorem HTTPSource.fetch_eq_ok {resp : Response} (h : HTTPSource.fetch f (.ok resp) known = .ok fetched)
    (hstatus : resp.status ≠ 304)
    : resp.status = 200 ∧ ((resp.digest = known ∧ known ≠ [] ∧ fetched = ⟨none, known, true⟩) ∨
          ∃ body snap digest, resp.body = .ok body ∧ decodeAndVerify f body = .ok (snap, digest) ∧
            fetched = ⟨some snap, digest, false⟩) := by
  simp only [HTTPSource.fetch] at h
  rw [if_neg hstatus, ite_error_eq_ok_iff, Decidable.not_not] at h
  refine ⟨h.1, ?_⟩
  have hok := h.2
  split at hok
  . next hknown =>
    rcases hknown with ⟨hne, heq⟩
    exact .inl ⟨heq, heq ▸ hne, (ok.inj hok).symm⟩
  . split at hok
    . simp at hok
    . next body hbody =>
      rw [ite_error_eq_ok_iff] at hok
      have hdecoded := hok.2
      split at hdecoded
      . simp at hdecoded
      . next snap digest hdecode =>
        exact .inr ⟨body, snap, digest, hbody, hdecode, (ok.inj hdecoded).symm⟩

def Fetched.Answers (fetched : Fetched) (known digest : Str) : Prop :=
  (digest = known ∧ known ≠ [] ∧ fetched = ⟨none, known, true⟩) ∨
    ∃ snap, fetched = ⟨some snap, digest, false⟩

theorem HTTPSource.fetch_current_eq_ok {body : Except Str Str}
    (hbody : ∀ b, body = .ok b → (Control.current f ed25519 config).body = .ok b)
    (h : HTTPSource.fetch f (.ok { Control.current f ed25519 config with body := body }) known
      = .ok fetched)
    : ∃ msg, config.build f ed25519 = .ok msg ∧ fetched.Answers known msg.globalDigest := by
  cases hbuild : config.build f ed25519 with
  | error err =>
    have hcurrent : Control.current f ed25519 config = ⟨Control.statusOf err, [], .ok []⟩ := by
      simp [Control.current, hbuild]
    rw [hcurrent] at h
    rcases HTTPSource.fetch_eq_ok h (Control.statusOf_ne err).1 with ⟨hstatus, _⟩
    exact absurd hstatus (Control.statusOf_ne err).2
  | ok msg =>
    have hcurrent : Control.current f ed25519 config
        = ⟨200, msg.globalDigest, .ok (f.snapshot.marshal msg)⟩ := by
      simp [Control.current, hbuild]
    rw [hcurrent] at h hbody
    refine ⟨msg, rfl, ?_⟩
    rcases (HTTPSource.fetch_eq_ok h (by simp)).2 with hknown | ⟨b, snap, digest, hb, hdecode, hfetched⟩
    . exact .inl hknown
    . have hb' := ok.inj (hbody b hb)
      rw [← hb'] at hdecode
      rcases (decodeAndVerify_eq_ok_iff f _ snap digest).mp hdecode with ⟨m, hm, _, _, _, rfl⟩
      rw [f.snapshot.unmarshal_marshal] at hm
      cases hm
      exact .inr ⟨snap, hfetched⟩

theorem fetch_eq_ok (h : offer.fetch f ed25519 known = .ok fetched)
    : ∃ msg, offer.message f ed25519 = some msg ∧ fetched.Answers known msg.globalDigest := by
  cases offer with
  | file contents =>
    cases contents with
    | error err => simp [Offer.fetch, FileSource.fetch] at h
    | ok b =>
      simp only [Offer.fetch, FileSource.fetch] at h
      split at h
      . simp at h
      . next snap digest hdecode =>
        rcases (decodeAndVerify_eq_ok_iff f b snap digest).mp hdecode with ⟨m, hm, _, _, _, rfl⟩
        refine ⟨m, message_file_eq_some_iff.mpr ⟨hm, snap, hdecode⟩, ?_⟩
        split at h
        . next hknown =>
          rcases hknown with ⟨hne, heq⟩
          rw [← heq]
          exact .inl ⟨rfl, hne, (ok.inj h).symm⟩
        . exact .inr ⟨snap, (ok.inj h).symm⟩
  | unreachable err => simp [Offer.fetch, HTTPSource.fetch] at h
  | endpoint config broken =>
    have hok : ∃ msg, config.build f ed25519 = .ok msg ∧ fetched.Answers known msg.globalDigest := by
      cases broken with
      | none => exact HTTPSource.fetch_current_eq_ok (fun _ hb => hb) h
      | some err => exact HTTPSource.fetch_current_eq_ok (by simp) h
    rcases hok with ⟨msg, hbuild, hfetched⟩
    exact ⟨msg, message_endpoint_eq_some_iff.mpr hbuild, hfetched⟩

end

namespace Feed

variable {f : Format} {ed25519 : Str → Str → Str → Bool}

structure Tracks (f : Format) (s : Feed) : Prop where
  digest : s.subscriber.digest = s.accepted.map (·.globalDigest)
  verified : ∀ msg, s.accepted = some msg →
    ∃ g, msg.globalLayer = some g ∧ verifyGlobal f g = .ok ()

theorem refresh_keeps_or_accepts (s : Feed) (offer : Offer)
    : ((s.refresh f ed25519 offer).subscriber.digest = s.subscriber.digest ∧
          (s.refresh f ed25519 offer).accepted = s.accepted) ∨
        ∃ msg, offer.message f ed25519 = some msg ∧
          (s.refresh f ed25519 offer).subscriber.digest = some msg.globalDigest ∧
          (s.refresh f ed25519 offer).accepted = some msg := by
  unfold refresh
  split
  . exact .inl ⟨rfl, rfl⟩
  . next next digest hfetch =>
    split
    . exact .inl ⟨rfl, rfl⟩
    . rcases fetch_eq_ok hfetch with ⟨msg, hmsg, hknown | ⟨snap, hfetched⟩⟩
      . simp at hknown
      . cases hfetched
        exact .inr ⟨msg, hmsg, rfl, hmsg⟩
  . exact .inl ⟨rfl, rfl⟩

theorem Tracks.step {s s' : Feed} (h : s.Tracks f) {e : Event} (hstep : s.step f ed25519 e = some s')
    : s'.Tracks f := by
  cases e with
  | refresh offer =>
    rw [← some.inj hstep]
    rcases refresh_keeps_or_accepts s offer with ⟨hdigest, haccepted⟩ | ⟨msg, hmsg, hdigest, haccepted⟩
    . exact ⟨by rw [hdigest, haccepted, h.digest], by rw [haccepted]; exact h.verified⟩
    . refine ⟨by rw [hdigest, haccepted]; rfl, ?_⟩
      intro msg' hmsg'
      rw [haccepted] at hmsg'
      cases hmsg'
      exact verifyGlobal_of_message hmsg
  | replace next =>
    rw [← some.inj hstep]
    exact ⟨h.digest, h.verified⟩

theorem tracks_of_reaches {initial : Snapshot} {s : Feed}
    (h : TransitionSystem.Reaches (step f ed25519) (new initial) s)
    : s.Tracks f := by
  apply h.invariant (Tracks f)
  . intro s e s' hs hstep
    exact hs.step hstep
  . exact ⟨rfl, by simp [new]⟩

theorem skips_iff (s : Feed) (offer : Offer)
    : s.Skips f ed25519 offer ↔ ∃ msg, offer.message f ed25519 = some msg ∧ msg.globalDigest ≠ [] ∧
        s.subscriber.digest = some msg.globalDigest := by
  unfold Skips
  constructor
  . intro h
    unfold refresh at h
    split at h
    . simp at h
    . split at h
      . simp at h
      . simp at h
    . next fetched hother hfetch =>
      rcases fetch_eq_ok hfetch with ⟨msg, hmsg, ⟨hdigest, hne, _⟩ | ⟨snap, rfl⟩⟩
      . cases hknown : s.subscriber.digest with
        | none => simp [hknown] at hne
        | some known =>
          rw [hknown, getD_some] at hdigest hne
          exact ⟨msg, hmsg, hdigest ▸ hne, by rw [hdigest]⟩
      . exact absurd rfl (hother snap msg.globalDigest)
  . rintro ⟨msg, hmsg, hne, hknown⟩
    have hfetch := fetch_of_globalDigest hmsg hne
    unfold refresh
    rw [hknown, getD_some, hfetch]

def TenantsFollow (f : Format) (ed25519 : Str → Str → Str → Bool) (s : Feed) (offer : Offer) : Prop :=
  ∀ msg last, offer.message f ed25519 = some msg → s.accepted = some last → msg.globalDigest ≠ [] →
    msg.globalDigest = last.globalDigest → msg.tenants = last.tenants

theorem unchanged_identical_iff (hsha256 : Injective f.sha256) {initial : Snapshot} {s : Feed}
    (hreach : TransitionSystem.Reaches (step f ed25519) (new initial) s) (offer : Offer)
    : (s.Skips f ed25519 offer → ∃ msg, offer.message f ed25519 = some msg ∧ s.accepted = some msg)
        ↔
      s.TenantsFollow f ed25519 offer := by
  have htracks := tracks_of_reaches hreach
  rw [skips_iff]
  constructor
  . intro hidentical msg last hmsg hlast hne heq
    have hknown : s.subscriber.digest = some msg.globalDigest := by
      rw [htracks.digest, hlast, heq]
      rfl
    rcases hidentical ⟨msg, hmsg, hne, hknown⟩ with ⟨msg', hmsg', haccepted⟩
    rw [hmsg] at hmsg'
    rw [hlast] at haccepted
    cases hmsg'
    cases haccepted
    rfl
  . rintro hfollow ⟨msg, hmsg, hne, hknown⟩
    rw [htracks.digest, Option.map_eq_some_iff] at hknown
    rcases hknown with ⟨last, hlast, heq⟩
    have htenants := hfollow msg last hmsg hlast hne heq.symm
    rcases verifyGlobal_of_message hmsg with ⟨g, hg, hverify⟩
    rcases htracks.verified last hlast with ⟨g', hg', hverify'⟩
    have hglobal : g = g' := by
      apply eq_of_verifyGlobal hsha256 hverify hverify'
      . simpa [SnapshotMsg.globalDigest, hg] using hne
      . simpa [SnapshotMsg.globalDigest, hg, hg'] using heq.symm
    have hsame : msg = last := by
      rcases msg with ⟨_, _⟩
      rcases last with ⟨_, _⟩
      simp only at hg hg' htenants
      rw [hg, hg', hglobal, htenants]
    exact ⟨msg, hmsg, hsame ▸ hlast⟩

theorem checkMonotonic_self (s : Snapshot) : checkMonotonic s s = .ok () := by
  unfold checkMonotonic
  rw [if_neg (Nat.lt_irrefl _), List.forM_eq_ok_iff]
  intro tenant _
  cases s.tenantVersion tenant with
  | none => rfl
  | some v => simp

namespace Sample

open Control (sealSnapshot)

def globalLayer : GlobalLayerMsg :=
  ⟨⟨1, []⟩, 0, [], [], Finmap.insert (str "t") (str "t") ∅, [], [], [], none⟩

def tenantLayer (number : Nat) : TenantLayerMsg :=
  ⟨str "t", ⟨number, []⟩, 0, [], [], [], [], [], [], 0, [], none⟩

def anySignature (_ _ _ : Str) : Bool := true

section

variable (f : Format) (number : Nat)

def message : SnapshotMsg :=
  sealSnapshot f globalLayer [tenantLayer number]

def offer : Offer :=
  .file (.ok (f.snapshot.marshal (message f number)))

variable {f number}

theorem message_accepted (h : number ≠ 0)
    : ∃ snap digest, decodeAndVerify f (f.snapshot.marshal (message f number)) = .ok (snap, digest) := by
  unfold message
  rw [Control.sealed_acceptable_iff]
  constructor
  . exact ⟨Nat.one_ne_zero, forall_mem_nil _, nodup_nil, forall_mem_nil _, nodup_nil⟩
  . rw [forall_mem_map, forall_mem_singleton]
    refine ⟨?_, h, forall_mem_nil _, forall_mem_nil _, ?_, forall_mem_nil _, nodup_nil⟩
    . change str "t" ≠ []
      decide
    . intro lookup keyID hlookup
      exact absurd (mem_of_lookup_decodeKeys hlookup) not_mem_nil
  . simp
  . rw [forall_mem_map, forall_mem_singleton]
    exact ⟨str "t", Finmap.lookup_insert _⟩

theorem message_offer (h : number ≠ 0) : (offer f number).message f anySignature = some (message f number) := by
  rcases message_accepted h with ⟨snap, digest, hdecode⟩
  rcases (decodeAndVerify_eq_ok_iff _ _ snap digest).mp hdecode with ⟨m, hm, _, _, _, rfl⟩
  rw [f.snapshot.unmarshal_marshal] at hm
  cases hm
  exact message_file_eq_some_iff.mpr ⟨f.snapshot.unmarshal_marshal _, snap, hdecode⟩

theorem message_globalDigest_ne : (message f number).globalDigest ≠ [] := by
  intro h
  have hpre : str "sha256:" = [] := (append_eq_nil_iff.mp h).1
  revert hpre
  decide

theorem polled
    : ∃ initial s, TransitionSystem.Reaches (step f anySignature) (new initial) s ∧
        s.accepted = some (message f 1) := by
  rcases @message_accepted f 1 Nat.one_ne_zero with ⟨snap, digest, hdecode⟩
  have hfetch : (offer f 1).fetch f anySignature [] = .ok ⟨some snap, digest, false⟩ := by
    simp [offer, Offer.fetch, FileSource.fetch, hdecode]
  refine ⟨snap, _, .single ⟨.refresh (offer f 1), rfl⟩, ?_⟩
  have hmonotonic : checkMonotonic (new snap).serving snap = .ok () := checkMonotonic_self snap
  have hknown : (new snap).subscriber.digest.getD [] = [] := rfl
  simp only [refresh, hknown, hfetch, hmonotonic]
  exact message_offer Nat.one_ne_zero

theorem skips_offer {initial : Snapshot} {s : Feed}
    (hreach : TransitionSystem.Reaches (step f anySignature) (new initial) s)
    (haccepted : s.accepted = some (message f 1)) (h : number ≠ 0)
    : s.Skips f anySignature (offer f number) := by
  rw [skips_iff, (tracks_of_reaches hreach).digest, haccepted]
  exact ⟨_, message_offer h, message_globalDigest_ne, rfl⟩

end

end Sample

open Sample
open Wire.Sample (format)

theorem unchanged_identical_repeated
    : ∃ initial s, TransitionSystem.Reaches (step format anySignature) (new initial) s ∧
        s.Skips format anySignature (offer format 1) ∧
        ∃ msg, (offer format 1).message format anySignature = some msg ∧ s.accepted = some msg := by
  rcases @polled format with ⟨initial, s, hreach, haccepted⟩
  have hmsg := @message_offer format 1 Nat.one_ne_zero
  have hskips := skips_offer hreach haccepted Nat.one_ne_zero
  refine ⟨initial, s, hreach, hskips, ?_⟩
  apply (unchanged_identical_iff Wire.Sample.sha256_injective hreach (offer format 1)).mpr
  . intro msg last hmsg' hlast _ _
    rw [hmsg] at hmsg'
    rw [haccepted] at hlast
    cases hmsg'
    cases hlast
    rfl
  . exact hskips

theorem tenant_change_skipped
    : ∃ initial s, TransitionSystem.Reaches (step format anySignature) (new initial) s ∧
        s.Skips format anySignature (offer format 2) ∧
        ∃ msg last, (offer format 2).message format anySignature = some msg ∧
          s.accepted = some last ∧ msg ≠ last := by
  rcases @polled format with ⟨initial, s, hreach, haccepted⟩
  refine ⟨initial, s, hreach, skips_offer hreach haccepted (by decide), message format 2, message format 1,
    message_offer (by decide), haccepted, ?_⟩
  intro h
  have hnumbers : [2] = [1] := congrArg (fun msg => msg.tenants.map (·.version.number)) h
  simp at hnumbers

end Feed

end ModelGateway
