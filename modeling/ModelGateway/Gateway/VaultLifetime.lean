import ModelGateway.Gateway.PipelineLemmas
import ModelGateway.Gateway.Pipeline

/-!
This module contains the lifetime of the vault's entries: which ones a request puts there, and when it takes
all of them out again.
-/

namespace ModelGateway.Gateway.Pipeline

open List Pii

variable (p : Pipeline) (ports : Ports) (snap : Snapshot)

structure Reliable : Prop where
  set : ∀ n key, ports.storeSet n key = none
  delete : ∀ n key, ports.storeDelete n key = false

section

variable (principal : Principal) (req : Request) (stream : Bool)

def protection (n : Nat) (d : Deployment) : Except GoError (Str × Pii.Replacements) :=
  match strategyFor principal.defaultClass d.trustTier, (p.inspect ports n req).2 with
  | .tokenize, some err =>
    .error (.wrap .unavailable (str "deep inspection was required and is unavailable") false err)
  | _, _ =>
    .ok ((p.transform ports n principal req d).payload,
      (p.transform ports n principal req d).replacements)

def outcome (n : Nat) (d : Deployment) : Except GoError (Reply stream) :=
  match ports.resolve n d.credentialRef with
  | .error err => .error err
  | .ok credential =>
    match p.protection ports principal req n d with
    | .error err => .error err
    | .ok (body, _) => ports.answer n ⟨d, req.requestMeta, body, credential⟩ stream

def issued (n : Nat) (d : Deployment) : Pii.Replacements :=
  match ports.resolve n d.credentialRef with
  | .error _ => ∅
  | .ok _ =>
    if p.vault ∧ strategyFor principal.defaultClass d.trustTier = .tokenize
        ∧ (p.inspect ports n req).2 = none then
      (p.transform ports n principal req d).replacements
    else
      ∅

def tries (n : Nat) (candidates : List Router.Candidate) (breakers : Router.Breakers)
    : Router.Execution (List (Deployment × Nat)) (Reply stream) :=
  p.router.execute (ports.situation n) candidates req.requestMeta.deadline
    (fun _ d made =>
      (p.outcome ports principal req stream (n + made.length) d, made ++ [(d, n + made.length)]))
    breakers []

end

def Covered (prep : Prepared) (stream : Bool) (w : World) : Prop :=
  ∀ a ∈ (p.tries ports prep.principal prep.req stream w.tick prep.candidates w.breakers).state,
    ∀ placeholder ∈ (p.issued ports prep.principal prep.req a.2 a.1).keys, ∃ served reply n,
        (p.tries ports prep.principal prep.req stream w.tick prep.candidates w.breakers).result
          =
        .ok (served, reply) ∧
        (p.tries ports prep.principal prep.req stream w.tick prep.candidates
          w.breakers).state.getLast? = some (served, n) ∧
        placeholder ∈ (p.issued ports prep.principal prep.req n served).keys

section

variable (principal : Principal) (req : Request)

structure Vaulted (out : Pii.Replacements) (w w' : World) : Prop where
  stored : w'.stored = w.stored ++ Pii.vaultKeys principal.tenant req.requestMeta.requestID out
  store : ∀ key, (w'.store.lookup key).isSome
      ↔
    key ∈ Pii.vaultKeys principal.tenant req.requestMeta.requestID out ∨ (w.store.lookup key).isSome
  tick : w'.tick = w.tick

theorem Vaulted.refl (w : World) : Vaulted principal req ∅ w w :=
  ⟨by simp [Pii.vaultKeys], by simp [Pii.vaultKeys], rfl⟩

variable (hports : Reliable ports)

include hports

theorem keep_of_reliable (n : Nat) (strategy : Pii.Strategy) (found : List Pii.Match) (w : World)
    : (p.keep ports n principal req strategy
          (Pii.transformMatches p.hmac p.pepper req.body found strategy) w).1
        =
      .ok ((Pii.transformMatches p.hmac p.pepper req.body found strategy).payload,
        (Pii.transformMatches p.hmac p.pepper req.body found strategy).replacements) ∧
      Vaulted principal req
        (if strategy = .tokenize ∧ p.vault then
          (Pii.transformMatches p.hmac p.pepper req.body found strategy).replacements
        else ∅) w
        (p.keep ports n principal req strategy
          (Pii.transformMatches p.hmac p.pepper req.body found strategy) w).2 := by
  unfold keep
  split
  . next hcount =>
    rw [transformMatches_of_count_eq_zero hcount, ite_self]
    exact ⟨rfl, .refl principal req w⟩
  . split
    . rcases vaultPut_of_never_fails (hports.set n) principal.tenant req.requestMeta.requestID
        (Pii.transformMatches p.hmac p.pepper req.body found strategy).replacements w.store with
        ⟨store, hput, hstore⟩
      rw [hput]
      exact ⟨rfl, rfl, hstore, rfl⟩
    . exact ⟨rfl, .refl principal req w⟩

theorem protect_of_reliable (n : Nat) (d : Deployment) (w : World)
    : (p.protect ports n principal req d w).1 = p.protection ports principal req n d ∧
      Vaulted principal req
        (if p.vault ∧ strategyFor principal.defaultClass d.trustTier = .tokenize
            ∧ (p.inspect ports n req).2 = none then
          (p.transform ports n principal req d).replacements
        else ∅) w
        (p.protect ports n principal req d w).2 := by
  unfold protect protection transform
  dsimp only
  generalize strategyFor principal.defaultClass d.trustTier = strategy
  split
  . next hnone =>
    subst hnone
    refine ⟨?_, ?_⟩
    . simp
    . simpa using Vaulted.refl principal req w
  . next hsome =>
    have hkeep := p.keep_of_reliable ports principal req hports n strategy
      (p.inspect ports n req).1 w
    generalize (p.inspect ports n req).2 = deepErr
    cases deepErr with
    | none =>
      refine ⟨?_, ?_⟩
      . rw [hkeep.1]
        cases strategy <;> rfl
      . simpa [and_comm] using hkeep.2
    | some err =>
      dsimp only
      split
      . next htokenize =>
        subst htokenize
        refine ⟨rfl, ?_⟩
        simpa using Vaulted.refl principal req w
      . next htokenize =>
        refine ⟨?_, ?_⟩
        . rw [hkeep.1]
          cases strategy with
          | tokenize => exact absurd rfl htokenize
          | none => rfl
          | redact => rfl
          | hash => rfl
        . simpa [htokenize] using hkeep.2

theorem attempt_of_reliable (stream : Bool) (provider : Router.Provider)
    (d : Deployment) (w : World) (out : Pii.Replacements)
    : (p.attempt ports principal req stream provider d (w, out)).1
        =
      p.outcome ports principal req stream w.tick d ∧
      Vaulted principal req (p.issued ports principal req w.tick d) w.advance
        (p.attempt ports principal req stream provider d (w, out)).2.1 := by
  unfold attempt outcome issued
  dsimp only
  cases ports.resolve w.tick d.credentialRef with
  | error err => exact ⟨rfl, .refl principal req w.advance⟩
  | ok credential =>
    rcases p.protect_of_reliable ports principal req hports w.tick d w.advance with
      ⟨hanswer, hvault⟩
    rw [← hanswer]
    generalize p.protect ports w.tick principal req d w.advance = res at hvault
    rcases res with ⟨err | ⟨body, _⟩, w'⟩
    . exact ⟨rfl, hvault⟩
    . exact ⟨rfl, hvault.stored, hvault.store, hvault.tick⟩

omit hports

theorem attempt_out {stream : Bool} {provider : Router.Provider} {d : Deployment} {w : World}
    {out : Pii.Replacements} {reply : Reply stream}
    (h : (p.attempt ports principal req stream provider d (w, out)).1 = .ok reply)
    : (p.attempt ports principal req stream provider d (w, out)).2.2
        =
      (p.transform ports w.tick principal req d).replacements := by
  rcases p.attempt_cases ports principal req stream provider d w out with
    ⟨_, _, ⟨err, hattempt⟩ | ⟨_, _, _, _, hattempt⟩⟩
  . rw [hattempt] at h
    simp at h
  . rw [hattempt]

theorem issued_of_outcome {stream : Bool} {n : Nat} {d : Deployment} {reply : Reply stream}
    (hvault : p.vault = true) (h : p.outcome ports principal req stream n d = .ok reply)
    : p.issued ports principal req n d = (p.transform ports n principal req d).replacements := by
  unfold outcome at h
  unfold issued
  split at h
  . simp at h
  . by_cases htokenize : strategyFor principal.defaultClass d.trustTier = .tokenize
    . cases hdeep : (p.inspect ports n req).2 with
      | none => rw [if_pos ⟨hvault, htokenize, rfl⟩]
      | some err =>
        unfold protection at h
        rw [htokenize, hdeep] at h
        simp at h
    . rw [if_neg fun h => htokenize h.2.1]
      unfold transform
      rw [transformMatches_replacements_of_ne_tokenize htokenize]

theorem issued_of_no_vault (hvault : p.vault = false) (n : Nat) (d : Deployment)
    : p.issued ports principal req n d = ∅ := by
  unfold issued
  split
  . rfl
  . simp [hvault]

end

section

variable (prep : Prepared)

def keysOf (made : List (Deployment × Nat)) : List Str :=
  made.flatMap fun a =>
    Pii.vaultKeys prep.principal.tenant prep.req.requestMeta.requestID
      (p.issued ports prep.principal prep.req a.2 a.1)

theorem mem_keysOf {made : List (Deployment × Nat)} {a : Deployment × Nat} (ha : a ∈ made) {issued : Str}
    (h : issued ∈ (p.issued ports prep.principal prep.req a.2 a.1).keys)
    : Pii.vaultKey prep.principal.tenant prep.req.requestMeta.requestID issued ∈ p.keysOf ports prep made :=
  mem_flatMap.mpr ⟨a, ha, mem_vaultKeys.mpr ⟨issued, h, rfl⟩⟩

structure Logged (stream : Bool) (w₀ : World) (s : World × Pii.Replacements)
    (made : List (Deployment × Nat)) : Prop where
  tick : s.1.tick = w₀.tick + made.length
  stored : s.1.stored = w₀.stored ++ p.keysOf ports prep made
  kept : ∀ key ∈ p.keysOf ports prep made, (s.1.store.lookup key).isSome
  out : ∀ last reply, made.getLast? = some last →
    p.outcome ports prep.principal prep.req stream last.2 last.1 = .ok reply →
      s.2 = (p.transform ports last.2 prep.principal prep.req last.1).replacements

theorem attempt_logged (hports : Reliable ports) (stream : Bool) (w₀ : World)
    (provider : Router.Provider) (d : Deployment) (s : World × Pii.Replacements)
    (made : List (Deployment × Nat)) (h : p.Logged ports prep stream w₀ s made)
    : (p.attempt ports prep.principal prep.req stream provider d s).1
        =
      p.outcome ports prep.principal prep.req stream (w₀.tick + made.length) d ∧
      p.Logged ports prep stream w₀ (p.attempt ports prep.principal prep.req stream provider d s).2
        (made ++ [(d, w₀.tick + made.length)]) := by
  rcases s with ⟨w, out⟩
  rcases h with ⟨htick, hstored, hkept, _⟩
  rcases p.attempt_of_reliable ports prep.principal prep.req hports stream provider d w out with
    ⟨hanswer, hvault⟩
  rw [← htick]
  have hkeys : p.keysOf ports prep (made ++ [(d, w.tick)]) = p.keysOf ports prep made ++
      Pii.vaultKeys prep.principal.tenant prep.req.requestMeta.requestID
        (p.issued ports prep.principal prep.req w.tick d) := by
    simp [keysOf]
  refine ⟨hanswer, ?_, ?_, ?_, ?_⟩
  . rw [hvault.tick, World.advance_tick, htick, length_append, length_singleton]
    omega
  . rw [hvault.stored, World.advance_stored, hstored, hkeys, append_assoc]
  . intro key hkey
    rw [hkeys, mem_append] at hkey
    rw [hvault.store key]
    rcases hkey with hkey | hkey
    . exact .inr (hkept key hkey)
    . exact .inl hkey
  . intro last reply hlast hok
    rw [getLast?_concat, Option.some.injEq] at hlast
    subst hlast
    apply p.attempt_out ports prep.principal prep.req (hanswer.trans hok)

theorem adapt_logged (hports : Reliable ports) (stream : Bool) (w : World)
    : (p.adapt ports prep stream w).result
        =
      (p.tries ports prep.principal prep.req stream w.tick prep.candidates w.breakers).result ∧
      p.Logged ports prep stream w (p.adapt ports prep stream w).state
        (p.tries ports prep.principal prep.req stream w.tick prep.candidates w.breakers).state := by
  have hinit : p.Logged ports prep stream w (w, ∅) [] :=
    ⟨by simp, by simp [keysOf], by simp [keysOf], by simp⟩
  have hrel : (p.adapt ports prep stream w).Related (p.Logged ports prep stream w)
      (p.tries ports prep.principal prep.req stream w.tick prep.candidates w.breakers) :=
    Router.execute_related (p.attempt_logged ports prep hports stream w) hinit
  exact ⟨hrel.result, hrel.state⟩

theorem tries_served {stream : Bool} {w : World} {served : Deployment} {reply : Reply stream}
    (h : (p.tries ports prep.principal prep.req stream w.tick prep.candidates w.breakers).result
      = .ok (served, reply))
    : ∃ n, (p.tries ports prep.principal prep.req stream w.tick prep.candidates
          w.breakers).state.getLast? = some (served, n) ∧
        p.outcome ports prep.principal prep.req stream n served = .ok reply := by
  rcases Router.execute_served (fun _ => True) (fun _ _ _ _ _ => trivial) trivial h with
    ⟨_, made, _, _, hcall⟩
  rw [Prod.mk.injEq] at hcall
  refine ⟨w.tick + made.length, ?_, hcall.1⟩
  unfold tries
  rw [← hcall.2, getLast?_concat]

end

section

def Forgotten (w w' : World) : Prop :=
  ∃ new, w'.stored = w.stored ++ new ∧ ∀ key ∈ new, w'.store.lookup key = none

theorem forget_stored (principal : Principal) (req : Request) (out : Pii.Replacements) (w : World)
    : (p.forget ports principal req out w).stored = w.stored := by
  unfold forget
  split <;> rfl

theorem forget_lookup (hports : Reliable ports) (principal : Principal) (req : Request)
    (out : Pii.Replacements) (w : World) (key : Str)
    : (p.forget ports principal req out w).store.lookup key
        =
      if p.vault = true ∧ key ∈ Pii.vaultKeys principal.tenant req.requestMeta.requestID out then
        none
      else
        w.store.lookup key := by
  unfold forget
  split
  . next h =>
    simp only [vaultForget_lookup (hports.delete w.tick), h.1, true_and]
  . next h =>
    rw [if_neg]
    rintro ⟨hvault, hkey⟩
    rw [not_and, not_not] at h
    rcases mem_vaultKeys.mp hkey with ⟨_, hissued, _⟩
    rw [AList.keys, h hvault] at hissued
    simp at hissued

theorem settle_vault (prep : Prepared) (served : Deployment) (resp : ProviderResponse)
    (out : Pii.Replacements) (w : World)
    : (p.settle ports snap prep served resp out w).2.stored = w.stored ∧
      (p.settle ports snap prep served resp out w).2.store
        =
      (p.forget ports prep.principal prep.req out w).store := by
  unfold settle mirror emit
  split
  . exact ⟨p.forget_stored ports prep.principal prep.req out w, rfl⟩
  . exact ⟨p.forget_stored ports prep.principal prep.req out w, rfl⟩

variable {prep : Prepared} {stream : Bool} {w : World} {w' : World}

theorem forgotten_iff_of_failed (hports : Reliable ports) {err : GoError}
    (herr : (p.adapt ports prep stream w).result = .error err)
    (hstored : w'.stored = (p.adapt ports prep stream w).state.1.stored)
    (hstore : w'.store = (p.adapt ports prep stream w).state.1.store)
    : Forgotten w w' ↔ p.Covered ports prep stream w := by
  rcases p.adapt_logged ports prep hports stream w with ⟨hresult, hlog⟩
  rw [herr] at hresult
  constructor
  . rintro ⟨new, hnew, hgone⟩ a ha placeholder hplaceholder
    have hnew' := append_cancel_left (hnew.symm.trans (hstored.trans hlog.stored))
    -- a key that was set is still there
    have hkey := p.mem_keysOf ports prep ha hplaceholder
    have hsome := hlog.kept _ hkey
    rw [← hstore, hgone _ (hnew' ▸ hkey)] at hsome
    simp at hsome
  . intro hcovered
    refine ⟨_, hstored.trans hlog.stored, ?_⟩
    intro key hkey
    rcases mem_flatMap.mp hkey with ⟨a, ha, hkey⟩
    rcases mem_vaultKeys.mp hkey with ⟨placeholder, hplaceholder, _⟩
    rcases hcovered a ha placeholder hplaceholder with ⟨_, _, n, hserved, _⟩
    rw [← hresult] at hserved
    simp at hserved

theorem forgotten_iff_of_served (hports : Reliable ports) {served : Deployment} {reply : Reply stream}
    (hok : (p.adapt ports prep stream w).result = .ok (served, reply))
    (hstored : w'.stored = (p.adapt ports prep stream w).state.1.stored) (hstore : w'.store
      =
    (p.forget ports prep.principal prep.req (p.adapt ports prep stream w).state.2
      (adapted (p.adapt ports prep stream w))).store)
    : Forgotten w w' ↔ p.Covered ports prep stream w := by
  rcases p.adapt_logged ports prep hports stream w with ⟨hresult, hlog⟩
  rw [hok] at hresult
  rcases p.tries_served ports prep hresult.symm with ⟨n, hlast, houtcome⟩
  have hout := hlog.out _ _ hlast houtcome
  -- before the map was forgotten, every key that was set was there
  have hlookup : ∀ key ∈ p.keysOf ports prep
      (p.tries ports prep.principal prep.req stream w.tick prep.candidates w.breakers).state,
      w'.store.lookup key = none ↔ p.vault = true ∧
        key ∈ Pii.vaultKeys prep.principal.tenant prep.req.requestMeta.requestID
          (p.adapt ports prep stream w).state.2 := by
    intro key hkey
    rw [hstore, p.forget_lookup ports hports]
    have hsome := hlog.kept key hkey
    split
    . next h => simp [h]
    . next h =>
      refine ⟨fun hnone => ?_, fun h' => absurd h' h⟩
      dsimp only [adapted] at hnone
      rw [hnone] at hsome
      simp at hsome
  constructor
  . rintro ⟨new, hnew, hgone⟩ a ha placeholder hplaceholder
    have hnew' := append_cancel_left (hnew.symm.trans (hstored.trans hlog.stored))
    have hkey := p.mem_keysOf ports prep ha hplaceholder
    rcases (hlookup _ hkey).mp (hgone _ (hnew' ▸ hkey)) with ⟨hvault, hmem⟩
    rcases mem_vaultKeys.mp hmem with ⟨_, hmem', heq⟩
    rw [vaultKey_inj] at heq
    subst heq
    refine ⟨served, reply, n, hresult.symm, hlast, ?_⟩
    rw [p.issued_of_outcome ports prep.principal prep.req hvault houtcome, ← hout]
    exact hmem'
  . intro hcovered
    refine ⟨_, hstored.trans hlog.stored, ?_⟩
    intro key hkey
    rw [hlookup key hkey]
    rcases mem_flatMap.mp hkey with ⟨a, ha, hmem⟩
    rcases mem_vaultKeys.mp hmem with ⟨placeholder, hplaceholder, heq⟩
    have hvault : p.vault = true := by
      by_contra hno
      rw [Bool.not_eq_true] at hno
      rw [p.issued_of_no_vault ports prep.principal prep.req hno] at hplaceholder
      simp at hplaceholder
    rcases hcovered a ha placeholder hplaceholder with ⟨_, _, n', hserved, hlast', hmem'⟩
    rw [hlast, Option.some.injEq, Prod.mk.injEq] at hlast'
    rw [← hlast'.1, ← hlast'.2] at hmem'
    rw [p.issued_of_outcome ports prep.principal prep.req hvault houtcome, ← hout] at hmem'
    exact ⟨hvault, mem_vaultKeys.mpr ⟨placeholder, hmem', heq⟩⟩

def streamed (req : Request) (usage : TokenUsage) (err : Option GoError) (w : World) : World :=
  match (p.handleStream ports snap req w).1.2 with
  | some _ => (p.handleStream ports snap req w).2
  | none =>
    (p.finish ports snap (p.handleStream ports snap req w).1.1 usage err
      (p.handleStream ports snap req w).2).2

variable {req : Request}

theorem forgotten_of_refused {w w'' : World} {refusal : Refusal}
    (hprep : p.prepare ports snap req w = (.error refusal, w')) (hsettled : Settled w' w'')
    : Forgotten w w'' := by
  rcases p.prepare_world ports snap hprep with ⟨_, _, _, hw, _⟩
  rcases hsettled with ⟨_, _, hw'⟩
  subst hw
  subst hw'
  exact ⟨[], by simp, by simp⟩

theorem forgotten_prepared {w w'' : World} {prep : Prepared}
    (hprep : p.prepare ports snap req w = (.ok prep, w'))
    : Forgotten w w'' ↔ Forgotten w' w'' := by
  rcases p.prepare_world ports snap hprep with ⟨_, _, _, hw, _⟩
  subst hw
  rfl

theorem handle_forgotten_iff (hports : Reliable ports) (req : Request) (w : World)
    : Forgotten w (p.handle ports snap req w).2
        ↔
      ∀ prep w', p.prepare ports snap req w = (.ok prep, w') → p.Covered ports prep false w' := by
  rcases p.handle_cases ports snap req w with
    ⟨_, w', hprep, _, hsettled⟩ | ⟨prep, w', err, hprep, herr, _, _, _, hout⟩
      | ⟨prep, w', served, resp, hprep, hok, hout⟩
  . simp [hprep, p.forgotten_of_refused ports snap hprep hsettled]
  . rw [p.forgotten_prepared ports snap hprep]
    rw [p.forgotten_iff_of_failed ports hports herr (by rw [hout]; rfl) (by rw [hout]; rfl)]
    simp [hprep]
  . have hvault := p.settle_vault ports snap prep served resp (p.adapt ports prep false w').state.2
      (adapted (p.adapt ports prep false w'))
    rw [p.forgotten_prepared ports snap hprep]
    rw [p.forgotten_iff_of_served ports hports hok (by rw [hout]; exact hvault.1)
      (by rw [hout]; exact hvault.2)]
    simp [hprep]

theorem finish_vault {r : StreamResult} (hfinished : r.finished = false) {principal : Principal}
    {out : Pii.Replacements}
    (hforget : r.forget = if p.vault ∧ out.entries ≠ [] then some (principal, req, out) else none)
    (usage : TokenUsage) (err : Option GoError) (w : World)
    : (p.finish ports snap r usage err w).2.stored = w.stored ∧
      (p.finish ports snap r usage err w).2.store = (p.forget ports principal req out w).store := by
  have hw : p.forgetStream ports r w = p.forget ports principal req out w := by
    unfold forgetStream
    rw [hforget]
    by_cases h : p.vault ∧ out.entries ≠ []
    . rw [if_pos h]
    . rw [if_neg h, forget, if_neg h]
  unfold finish
  rw [if_neg (by simp [hfinished]), hw]
  cases r.releaseLimit with
  | none =>
    cases r.finish with
    | none => exact ⟨p.forget_stored ports principal req out w, rfl⟩
    | some f => exact ⟨p.forget_stored ports principal req out w, rfl⟩
  | some held =>
    cases r.finish with
    | none => exact ⟨p.forget_stored ports principal req out w, rfl⟩
    | some f => exact ⟨p.forget_stored ports principal req out w, rfl⟩

theorem streamed_forgotten_iff (hports : Reliable ports) (req : Request) (w : World)
    (usage : TokenUsage) (err : Option GoError)
    : Forgotten w (p.streamed ports snap req usage err w)
        ↔
      ∀ prep w', p.prepare ports snap req w = (.ok prep, w') → p.Covered ports prep true w' := by
  unfold streamed
  rcases p.handleStream_cases ports snap req w with
    ⟨_, w', hprep, herr, hsettled⟩ | ⟨prep, w', _, hprep, hfailed, herr, _, _, hout⟩
      | ⟨prep, w', served, cursor, hprep, hok, hout⟩
  . rw [herr]
    simp [hprep, p.forgotten_of_refused ports snap hprep hsettled]
  . rw [herr, p.forgotten_prepared ports snap hprep]
    rw [p.forgotten_iff_of_failed ports hports hfailed (by rw [hout]; rfl) (by rw [hout]; rfl)]
    simp [hprep]
  . rw [hout, p.forgotten_prepared ports snap hprep]
    refine (p.forgotten_iff_of_served ports hports hok
      (p.finish_vault ports snap rfl rfl usage err (adapted (p.adapt ports prep true w'))).1
      (p.finish_vault ports snap rfl rfl usage err (adapted (p.adapt ports prep true w'))).2).trans ?_
    simp [hprep]

end

theorem originals_forgotten_iff (hports : Reliable ports) (req : Request) (w : World)
    (usage : TokenUsage) (err : Option GoError)
    : (Forgotten w (p.handle ports snap req w).2
        ↔
      ∀ prep w', p.prepare ports snap req w = (.ok prep, w') → p.Covered ports prep false w') ∧
      (Forgotten w (p.streamed ports snap req usage err w)
        ↔
      ∀ prep w', p.prepare ports snap req w = (.ok prep, w') → p.Covered ports prep true w') :=
  ⟨p.handle_forgotten_iff ports snap hports req w,
    p.streamed_forgotten_iff ports snap hports req w usage err⟩

open Sample

theorem originals_forgotten_iff_sample
    : Reliable calm ∧ ∀ prep w', pipeline.prepare calm
          (snapshot outside [] .restricted .unset)
          (request (str "a@b.co")) .zero = (.ok prep, w') →
        pipeline.Covered calm prep false w' := by
  have hports : Reliable calm := ⟨fun _ _ => rfl, fun _ _ => rfl⟩
  refine ⟨hports, (originals_forgotten_iff pipeline calm _ hports _ _ .zero none).1.mp ?_⟩
  refine ⟨[Pii.vaultKey (str "acme") (str "r1") (str "[[EMAIL_1]]")], by decide +kernel, ?_⟩
  intro key hkey
  rw [mem_singleton] at hkey
  subst hkey
  decide +kernel

theorem originals_kept_after_failure
    : (snapshot outside [] .restricted .unset).Composed ∧ Reliable down ∧
      ¬Forgotten .zero (pipeline.handle down
        (snapshot outside [] .restricted .unset)
        (request (str "a@b.co")) .zero).2 := by
  refine ⟨snapshot_composed rfl rfl rfl, ⟨fun _ _ => rfl, fun _ _ => rfl⟩, ?_⟩
  rintro ⟨new, hnew, hgone⟩
  have hstored : new = [Pii.vaultKey (str "acme") (str "r1") (str "[[EMAIL_1]]")] := by
    refine Eq.trans hnew.symm ?_
    decide +kernel
  have hnone := hgone _ (by rw [hstored]; exact mem_singleton_self _)
  revert hnone
  decide +kernel

end ModelGateway.Gateway.Pipeline
