import ModelGateway.Pii.Detect

namespace ModelGateway.Pii

open List

inductive Strategy where
  | none
  | redact
  | hash
  | tokenize
  deriving DecidableEq, Repr

abbrev Replacements := GoMap Str Str

structure Result where
  payload : Str
  replacements : Replacements
  count : Nat

def placeholderOpen : Str := str "[["

def placeholderClose : Str := str "]]"

def placeholder (kind : Str) (n : Nat) : Str :=
  placeholderOpen ++ kind ++ str "_" ++ Str.ofNat n ++ placeholderClose

def hexEncode (s : Str) : Str :=
  s.flatMap fun b => [Str.quoteByte.hexDigit (b / 16), Str.quoteByte.hexDigit (b % 16)]

def hashValue (hmac : Str → Str → Str) (pepper : Str) (m : Match) : Str :=
  placeholderOpen ++ m.kind ++ str "_" ++ (hexEncode (hmac pepper m.value)).take 12
    ++ placeholderClose

structure TransformState where
  out : Str
  replacements : Replacements
  counters : GoMap Str Nat
  last : Nat

def transformStep (hmac : Str → Str → Str) (pepper payload : Str) (strategy : Strategy)
    (st : TransformState) (m : Match) : TransformState :=
  let out := st.out ++ (payload.take m.start).drop st.last
  match strategy with
  | .hash => { st with out := out ++ hashValue hmac pepper m, last := m.finish }
  | .none => { st with out := out ++ m.value, last := m.finish }
  | .redact => numbered out false
  | .tokenize => numbered out true
where
  numbered (out : Str) (keep : Bool) : TransformState :=
    let n := (st.counters.lookup m.kind).getD 0 + 1
    let issued := placeholder m.kind n
    {
      out := out ++ issued
      replacements := if keep then st.replacements.insert issued m.value else st.replacements
      counters := st.counters.insert m.kind n
      last := m.finish
    }

def transformMatches (hmac : Str → Str → Str) (pepper payload : Str) (matches_ : List Match)
    (strategy : Strategy) : Result :=
  if strategy = .none then
    ⟨payload, ∅, 0⟩
  else if matches_ = [] then
    ⟨payload, ∅, 0⟩
  else
    let st := matches_.foldl (transformStep hmac pepper payload strategy) ⟨[], ∅, ∅, 0⟩
    ⟨st.out ++ payload.drop st.last, st.replacements, matches_.length⟩

def restore (payload : Str) (replacements : Replacements) : Str :=
  if replacements.entries = [] then
    payload
  else
    placeholderPattern.replaceAllFunc payload fun found =>
      match replacements.lookup found with
      | some original => original
      | none => found

def vaultKey (tenant requestID issued : Str) : Str :=
  str "pii:" ++ tenant ++ str ":" ++ requestID ++ str ":" ++ issued

def vaultKeys (tenant requestID : Str) (replacements : Replacements) : List Str :=
  replacements.keys.map (vaultKey tenant requestID)

def vaultPut (setFails : Str → Option GoError) (tenant requestID : Str)
    (replacements : Replacements) (store : GoMap Str Str)
    : Option GoError × GoMap Str Str × List Str :=
  go replacements.entries store []
where
  go : List (Sigma fun _ : Str => Str) → GoMap Str Str → List Str
      → Option GoError × GoMap Str Str × List Str
    | [], store, stored => (none, store, stored)
    | ⟨issued, original⟩ :: rest, store, stored =>
      let key := vaultKey tenant requestID issued
      match setFails key with
      | some err =>
        (some (.wrap .unavailable (str "storing tokenised values") false err), store, stored)
      | none => go rest (store.insert key original) (stored ++ [key])

def vaultForget (deleteFails : Str → Bool) (tenant requestID : Str)
    (replacements : Replacements) (store : GoMap Str Str) : GoMap Str Str :=
  (vaultKeys tenant requestID replacements).foldl
    (fun store key => if deleteFails key then store else store.erase key) store

section

variable {hmac : Str → Str → Str} {pepper payload : Str}

@[simp]
theorem transformMatches_none (ms : List Match)
    : transformMatches hmac pepper payload ms .none = ⟨payload, ∅, 0⟩ := by
  simp [transformMatches]

variable {ms : List Match} {strategy : Strategy}

theorem transformMatches_count_eq_zero_iff
    : (transformMatches hmac pepper payload ms strategy).count = 0 ↔ strategy = .none ∨ ms = [] := by
  unfold transformMatches
  split
  . next h => simp [h]
  . next h =>
    split
    . next h' => simp [h']
    . next h' => simp [h, h']

theorem transformMatches_of_count_eq_zero
    (h : (transformMatches hmac pepper payload ms strategy).count = 0)
    : transformMatches hmac pepper payload ms strategy = ⟨payload, ∅, 0⟩ := by
  rw [transformMatches_count_eq_zero_iff] at h
  unfold transformMatches
  rcases h with h | h
  . rw [if_pos h]
  . simp [h]

theorem transformMatches_replacements_of_ne_tokenize (h : strategy ≠ .tokenize)
    : (transformMatches hmac pepper payload ms strategy).replacements = ∅ := by
  unfold transformMatches
  split
  . rfl
  . split
    . rfl
    . suffices ∀ st : TransformState, st.replacements = ∅ →
          (ms.foldl (transformStep hmac pepper payload strategy) st).replacements = ∅ from this _ rfl
      induction ms with
      | nil => exact fun st hst => hst
      | cons m ms ih =>
        intro st hst
        by_cases hms : ms = []
        . cases strategy <;> simp_all [transformStep, transformStep.numbered]
        . apply ih hms
          cases strategy <;> simp_all [transformStep, transformStep.numbered]

variable {tenant requestID : Str}

theorem vaultKey_inj {a b : Str}
    : vaultKey tenant requestID a = vaultKey tenant requestID b ↔ a = b := by
  simp [vaultKey]

theorem mem_vaultKeys {key : Str} {replacements : Replacements}
    : key ∈ vaultKeys tenant requestID replacements
        ↔
      ∃ issued ∈ replacements.keys, vaultKey tenant requestID issued = key := by
  simp [vaultKeys]

variable {setFails : Str → Option GoError}

theorem vaultPut.go_of_never_fails (h : ∀ key, setFails key = none)
    (entries : List (Sigma fun _ : Str => Str)) (store : GoMap Str Str) (stored : List Str)
    : (go setFails tenant requestID entries store stored).1 = none ∧
      (go setFails tenant requestID entries store stored).2.2
        =
      stored ++ entries.keys.map (vaultKey tenant requestID) ∧
      ∀ key, ((go setFails tenant requestID entries store stored).2.1.lookup key).isSome
          ↔
        key ∈ entries.keys.map (vaultKey tenant requestID) ∨ (store.lookup key).isSome := by
  induction entries generalizing store stored with
  | nil => simp [go]
  | cons entry rest ih =>
    rcases entry with ⟨issued, original⟩
    rcases ih (store.insert (vaultKey tenant requestID issued) original)
      (stored ++ [vaultKey tenant requestID issued]) with ⟨hnone, hstored, hstore⟩
    unfold go
    simp only [h]
    refine ⟨hnone, ?_, ?_⟩
    . rw [hstored]
      simp
    . intro key
      rw [hstore key, AList.lookup_isSome, AList.mem_insert, AList.lookup_isSome]
      simp only [keys_cons, map_cons, mem_cons]
      tauto

theorem vaultPut_of_never_fails (h : ∀ key, setFails key = none) (tenant requestID : Str)
    (replacements : Replacements) (store : GoMap Str Str)
    : ∃ store', vaultPut setFails tenant requestID replacements store
        =
      (none, store', vaultKeys tenant requestID replacements) ∧
      ∀ key, (store'.lookup key).isSome
          ↔
        key ∈ vaultKeys tenant requestID replacements ∨ (store.lookup key).isSome := by
  rcases vaultPut.go_of_never_fails h replacements.entries store [] with ⟨hnone, hstored, hstore⟩
  refine ⟨_, Prod.ext hnone (Prod.ext rfl ?_), hstore⟩
  exact hstored

theorem vaultForget_lookup {deleteFails : Str → Bool} (h : ∀ key, deleteFails key = false)
    (tenant requestID : Str) (replacements : Replacements) (store : GoMap Str Str) (key : Str)
    : (vaultForget deleteFails tenant requestID replacements store).lookup key
        =
      if key ∈ vaultKeys tenant requestID replacements then none else store.lookup key := by
  unfold vaultForget
  simp only [h, Bool.false_eq_true, if_false]
  generalize vaultKeys tenant requestID replacements = keys
  induction keys generalizing store with
  | nil => simp
  | cons k ks ih =>
    rw [foldl_cons, ih]
    by_cases hks : key ∈ ks
    . simp [hks]
    . by_cases hk : key = k
      . subst hk
        simp [hks]
      . simp [hks, hk, AList.lookup_erase_ne]

end

theorem hexDigit_inj {m n : UInt8} (hm : m < 16) (hn : n < 16)
    (h : Str.quoteByte.hexDigit m = Str.quoteByte.hexDigit n)
    : m = n := by
  unfold Str.quoteByte.hexDigit at h
  split at h <;> split at h <;> grind

theorem nibbles_lt (b : UInt8) : b / 16 < 16 ∧ b % 16 < 16 := by
  simp only [UInt8.lt_iff_toNat_lt, UInt8.toNat_div, UInt8.toNat_mod, UInt8.reduceToNat]
  have := b.toNat_lt
  omega

theorem nibbles_inj {b b' : UInt8} (hdiv : b / 16 = b' / 16) (hmod : b % 16 = b' % 16) : b = b' := by
  rw [← UInt8.toNat_inj] at *
  simp only [UInt8.toNat_div, UInt8.toNat_mod, UInt8.reduceToNat] at *
  omega

theorem hexEncode_injective : Function.Injective hexEncode := by
  intro s
  induction s with
  | nil =>
    intro t h
    cases t with
    | nil => rfl
    | cons b t => simp [hexEncode] at h
  | cons b s ih =>
    intro t h
    cases t with
    | nil => simp [hexEncode] at h
    | cons b' t =>
      unfold hexEncode at h
      simp only [flatMap_cons, cons_append, nil_append, List.cons.injEq] at h
      rcases h with ⟨hdiv, hmod, hrest⟩
      have hb := nibbles_lt b
      have hb' := nibbles_lt b'
      rw [nibbles_inj (hexDigit_inj hb.1 hb'.1 hdiv) (hexDigit_inj hb.2 hb'.2 hmod)]
      rw [ih hrest]

theorem not_mem_hexEncode {c : UInt8} (hc : ∀ n < 16, Str.quoteByte.hexDigit n ≠ c) (s : Str)
    : c ∉ hexEncode s := by
  intro h
  unfold hexEncode at h
  rw [mem_flatMap] at h
  rcases h with ⟨b, _, hb⟩
  have hlt := nibbles_lt b
  simp only [mem_cons, not_mem_nil, or_false] at hb
  rcases hb with hb | hb
  . apply hc _ hlt.1 hb.symm
  . apply hc _ hlt.2 hb.symm

end ModelGateway.Pii
