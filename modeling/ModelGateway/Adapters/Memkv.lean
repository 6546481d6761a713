import ModelGateway.Pii.Placeholders

/-!
This module contains the store that a worker keeps in its own process, and the decimal text that its
counters are held in.
-/

namespace ModelGateway.Memkv

open List

def formatInt (v : Int) : Str :=
  if v < 0 then 0x2d :: Str.ofNat v.natAbs else Str.ofNat v.natAbs

def parseUint (n : Nat) : Str → Except Str Nat
  | [] => .ok n
  | b :: s =>
    if b < 0x30 ∨ 0x39 < b then
      .error (str "invalid syntax")
    else if 2 ^ 64 ≤ n * 10 + (b - 0x30).toNat then
      .error (str "value out of range")
    else
      parseUint (n * 10 + (b - 0x30).toNat) s

def parseInt (s : Str) : Except GoError Int :=
  let numError (reason : Str) : Except GoError Int :=
    .error (.foreign (str "strconv.ParseInt: parsing " ++ Str.quote s ++ str ": " ++ reason))
  let neg := s.head? == some 0x2d
  let digits := if neg || s.head? == some 0x2b then s.drop 1 else s
  if digits = [] then
    numError (str "invalid syntax")
  else
    match parseUint 0 digits with
    | .error reason => numError reason
    | .ok un =>
      if (if neg then 2 ^ 63 < un else 2 ^ 63 ≤ un) then
        numError (str "value out of range")
      else
        .ok (if neg then -un else un)

theorem parseUint_append (s t : Str) (n : Nat)
    : parseUint n (s ++ t) = (parseUint n s).bind fun m => parseUint m t := by
  induction s generalizing n with
  | nil => rfl
  | cons b s ih =>
    simp only [cons_append, parseUint]
    split
    . rfl
    . split
      . rfl
      . exact ih _

theorem ofNat_digit
    : ∀ d < 10, Str.ofNat d = [UInt8.ofNat (0x30 + d)] ∧
        ¬ (UInt8.ofNat (0x30 + d) < 0x30 ∨ 0x39 < UInt8.ofNat (0x30 + d)) ∧
        (UInt8.ofNat (0x30 + d) - 0x30).toNat = d := by
  decide +kernel

theorem ofNat_concat {n : Nat} (hn : 10 ≤ n) : Str.ofNat n = Str.ofNat (n / 10) ++ Str.ofNat (n % 10) := by
  rw [Str.ofNat_eq, Str.ofNat_eq, Str.ofNat_eq, ← flatMap_append,
    Nat.toDigits_of_base_le (by omega) hn, Nat.toDigits_of_lt_base (n := n % 10) (by omega)]

theorem parseUint_ofNat (n : Nat) (hn : n < 2 ^ 64) : parseUint 0 (Str.ofNat n) = .ok n := by
  have hdigit : ∀ d < 10, ∀ m, m * 10 + d < 2 ^ 64 → parseUint m (Str.ofNat d) = .ok (m * 10 + d) := by
    intro d hd m hm
    rcases ofNat_digit d hd with ⟨htext, hb, hvalue⟩
    rw [htext, parseUint, if_neg hb, hvalue, if_neg (by omega)]
    rfl
  -- The text grows at its end, so that the last digit is split off.
  induction n using Nat.strong_induction_on with
  | _ n ih =>
    by_cases hlt : n < 10
    . simpa using hdigit n hlt 0 (by omega)
    . rw [ofNat_concat (by omega), parseUint_append, ih _ (by omega) (by omega)]
      change parseUint (n / 10) _ = _
      rw [hdigit _ (by omega) _ (by omega), Nat.div_add_mod']

theorem exists_ofNat_eq_cons (n : Nat) : ∃ b s, Str.ofNat n = b :: s ∧ b ≠ 0x2d ∧ b ≠ 0x2b := by
  cases h : Str.ofNat n with
  | nil =>
    have hdigits := Nat.length_toDigits_pos (b := 10) (n := n)
    rw [Str.ofNat_eq, flatMap_eq_nil_iff] at h
    exact absurd (h _ (getElem_mem hdigits)) String.utf8EncodeChar_ne_nil
  | cons b s =>
    have hdigit := Str.isDigit_of_mem_ofNat (n := n) (b := b) (by rw [h]; exact mem_cons_self)
    refine ⟨b, s, rfl, ?_, ?_⟩
    . rintro rfl
      exact absurd hdigit.1 (by decide)
    . rintro rfl
      exact absurd hdigit.1 (by decide)

@[simp]
theorem parseInt_formatInt (n : Int) : parseInt (formatInt (int64 n)) = .ok (int64 n) := by
  have hle : -2 ^ 63 ≤ int64 n := Int.le_bmod (by decide)
  have hlt : int64 n < 2 ^ 63 := Int.bmod_lt (by decide)
  generalize int64 n = v at *
  rcases exists_ofNat_eq_cons v.natAbs with ⟨b, s, htext, hminus, hplus⟩
  have hun := parseUint_ofNat v.natAbs (by omega)
  rw [htext] at hun
  unfold formatInt parseInt
  rw [htext]
  split
  . next hneg =>
    simp only [head?_cons, beq_self_eq_true, Bool.true_or, if_true, drop_one, tail_cons, reduceCtorEq, hun]
    rw [if_neg (by simp), if_neg (by omega)]
    congr
    omega
  . next hneg =>
    have hdigit : ∀ c, b ≠ c → ((b :: s).head? == some c) = false := by simp
    simp only [hdigit _ hminus, hdigit _ hplus, Bool.or_self, Bool.false_eq_true, if_false, reduceCtorEq, hun]
    rw [if_neg (by omega)]
    congr
    omega

structure Entry where
  value : Str
  expiresAt : Int

def Entry.expired (e : Entry) (now : Int) : Bool :=
  -- an expiry of zero is `time.Time{}`
  e.expiresAt ≠ 0 && e.expiresAt < now

abbrev Store := GoMap Str Entry

inductive Op where
  | get (key : Str)
  | set (key value : Str) (ttl : Int)
  | incr (key : Str) (delta ttl : Int)
  | delete (key : Str)

inductive Answer where
  | value (found : Option Str)
  | total (answer : Except GoError Int)
  | done

inductive Event where
  | op (now : Int) (op : Op)
  | sweep (now : Int)

namespace Event

def now : Event → Int
  | .op now _ | .sweep now => now

def isOp : Event → Bool
  | .op _ _ => true
  | .sweep _ => false

def deltas (key : Str) : Event → List Int
  | .op _ (.incr key' delta _) => if key' = key then [delta] else []
  | _ => []

def Within (key : Str) (deadline : Int) (e : Event) : Prop :=
  e.now ≤ deadline ∧
    match e with
    | .op now (.incr key' _ ttl) => key' = key → deadline ≤ now + ttl
    | .op _ (.set key' _ _) | .op _ (.delete key') => key' ≠ key
    | _ => True

end Event

namespace Store

def live (s : Store) (now : Int) (key : Str) : Option Entry :=
  (s.lookup key).filter fun e => !e.expired now

def sweep (s : Store) (now : Int) : Store × Nat :=
  s.entries.foldl (fun (s, removed) e =>
    if e.2.expired now then (s.erase e.1, removed + 1) else (s, removed)) (s, 0)

section

variable (parseInt : Str → Except GoError Int) (formatInt : Int → Str)

def incr (s : Store) (now : Int) (key : Str) (delta ttl : Int) : Store × Except GoError Int :=
  let counter : Except GoError (Int × Int) :=
    match s.live now key with
    | some e => (parseInt e.value).map (·, e.expiresAt)
    | none => .ok (0, now + ttl)
  match counter with
  | .error err =>
    (s, .error (.wrap .internal (str "counter holds a non-numeric value") false err))
  | .ok (current, expiresAt) =>
    let total := int64 (current + delta)
    (s.insert key ⟨formatInt total, expiresAt⟩, .ok total)

def step (s : Store) (now : Int) : Op → Store × Answer
  | .get key => (s, .value ((s.live now key).map (·.value)))
  | .set key value ttl => (s.insert key ⟨value, now + ttl⟩, .done)
  | .incr key delta ttl => (s.incr parseInt formatInt now key delta ttl).map id .total
  | .delete key => (s.erase key, .done)

def answers (s : Store) : List Event → List Answer
  | [] => []
  | .op now op :: es =>
    let (s, answer) := s.step parseInt formatInt now op
    answer :: s.answers es
  | .sweep now :: es => (s.sweep now).1.answers es

end

variable {s s' : Store} {now : Int}

theorem live_insert (s : Store) (now : Int) (key key' : Str) (e : Entry)
    : live (s.insert key e) now key' = if key' = key then some e |>.filter (!·.expired now) else s.live now key' := by
  unfold live
  split
  . next h => rw [h, AList.lookup_insert]
  . next h => rw [AList.lookup_insert_ne h]

@[simp]
theorem live_erase (s : Store) (now : Int) (key key' : Str)
    : live (s.erase key) now key' = if key' = key then none else s.live now key' := by
  unfold live
  split
  . next h =>
    rw [h, AList.lookup_erase]
    rfl
  . next h => rw [AList.lookup_erase_ne h]

def Agree (now : Int) (s s' : Store) : Prop :=
  ∀ key, s.live now key = s'.live now key

theorem Agree.insert (h : Agree now s s') (key : Str) (e : Entry)
    : Agree now (s.insert key e) (s'.insert key e) := by
  intro key'
  rw [live_insert, live_insert, h key']

theorem Agree.later {later : Int} (h : Agree now s s') (hle : now ≤ later) : Agree later s s' := by
  intro key
  have hlater : ∀ s : Store, s.live later key = (s.live now key).filter fun e => !e.expired later := by
    intro s
    unfold live
    rw [Option.filter_filter]
    congr
    funext e
    simp only [Entry.expired]
    grind
  rw [hlater, hlater, h key]

theorem lookup_sweep (s : Store) (now : Int) (key : Str)
    : (s.sweep now).1.lookup key = s.lookup key ∨
      (s.sweep now).1.lookup key = none ∧ s.live now key = none := by
  unfold sweep
  apply foldlRecOn (motive := fun acc : Store × Nat =>
    acc.1.lookup key = s.lookup key ∨ acc.1.lookup key = none ∧ s.live now key = none)
  . exact .inl rfl
  . rintro ⟨swept, removed⟩ hacc e he
    dsimp only
    split
    . next hexpired =>
      by_cases hkey : key = e.1
      . right
        unfold live
        rw [hkey, AList.lookup_erase, AList.mem_lookup_iff.mpr he]
        simp [Option.filter, hexpired]
      . rw [AList.lookup_erase_ne hkey]
        exact hacc
    . exact hacc

theorem agree_sweep (s : Store) (now : Int) : Agree now (s.sweep now).1 s := by
  intro key
  rcases lookup_sweep s now key with hkept | ⟨hgone, hdead⟩
  . unfold live
    rw [hkept]
  . rw [hdead]
    unfold live
    rw [hgone]
    rfl

section

variable (parseInt : Str → Except GoError Int) (formatInt : Int → Str)

theorem Agree.step (h : Agree now s s') (op : Op)
    : (s.step parseInt formatInt now op).2 = (s'.step parseInt formatInt now op).2 ∧
      Agree now (s.step parseInt formatInt now op).1 (s'.step parseInt formatInt now op).1 := by
  cases op with
  | get key => exact ⟨by simp [Store.step, h key], h⟩
  | set key value ttl => exact ⟨rfl, h.insert key _⟩
  | incr key delta ttl =>
    simp only [Store.step, incr, h key]
    split
    . exact ⟨rfl, h⟩
    . exact ⟨rfl, h.insert key _⟩
  | delete key =>
    refine ⟨rfl, ?_⟩
    intro key'
    simp only [Store.step, live_erase, h key']

theorem Agree.answers (h : Agree now s s') {es : List Event} (hnow : ∀ e ∈ es, now ≤ e.now)
    (hclock : es.Pairwise (·.now ≤ ·.now))
    : s.answers parseInt formatInt es = s'.answers parseInt formatInt (es.filter (·.isOp)) := by
  induction es generalizing now s s' with
  | nil => rfl
  | cons e es ih =>
    rw [pairwise_cons] at hclock
    replace h := h.later (hnow e mem_cons_self)
    cases e with
    | op later op =>
      rcases h.step parseInt formatInt op with ⟨hanswer, hstep⟩
      exact congrArg₂ cons hanswer (ih hstep hclock.1 hclock.2)
    | sweep later => exact ih (fun key => (agree_sweep s later key).trans (h key)) hclock.1 hclock.2

/-- With a clock that does not go back, `Sweep` only frees memory. -/
theorem sweep_unobserved (s : Store) {es : List Event} (hclock : es.Pairwise (·.now ≤ ·.now))
    : s.answers parseInt formatInt es = s.answers parseInt formatInt (es.filter (·.isOp)) := by
  cases es with
  | nil => rfl
  | cons first es =>
    have h : Agree first.now s s := fun _ => rfl
    apply h.answers parseInt formatInt _ hclock
    rw [forall_mem_cons]
    exact ⟨le_rfl, (pairwise_cons.mp hclock).1⟩

end

theorem sweep_unobserved_expired
    : let es : List Event := [.op 1 (.incr [] 1 1), .sweep 3, .op 3 (.incr [] 2 1)]
      answers parseInt formatInt ∅ es = answers parseInt formatInt ∅ (es.filter (·.isOp)) :=
  sweep_unobserved parseInt formatInt ∅ (by decide)

def next (s : Store) : Event → Store
  | .op now op => (s.step parseInt formatInt now op).1
  | .sweep now => (s.sweep now).1

def Counts (deadline : Int) (s : Store) (key : Str) (deltas : List Int) : Prop :=
  if deltas = [] then
    s.lookup key = none
  else
    ∃ e, s.lookup key = some e ∧ e.value = formatInt (int64 deltas.sum) ∧ deadline ≤ e.expiresAt

section

variable {deadline : Int} {key : Str} {deltas : List Int}

theorem Counts.live (h : Counts deadline s key deltas) (hnow : now ≤ deadline)
    : s.live now key = s.lookup key := by
  unfold Counts at h
  split at h
  . simp [Store.live, h]
  . rcases h with ⟨e, he, _, hexpires⟩
    have hlive : e.expired now = false := by
      simp [Entry.expired]
      omega
    simp [Store.live, he, Option.filter, hlive]

theorem Counts.incr (h : Counts deadline s key deltas) (hnow : now ≤ deadline)
    (delta : Int) {ttl : Int} (httl : deadline ≤ now + ttl)
    : (s.incr parseInt formatInt now key delta ttl).2 = .ok (int64 (deltas.sum + delta)) ∧
      Counts deadline (s.incr parseInt formatInt now key delta ttl).1 key
        (deltas ++ [delta]) := by
  unfold Store.incr
  rw [h.live hnow]
  unfold Counts at h
  split at h
  . next hnil =>
    simp [h, hnil, Counts, httl]
  . rcases h with ⟨e, he, hvalue, hexpires⟩
    have hsum : int64 (int64 deltas.sum + delta) = int64 (deltas.sum + delta) := Int.bmod_add_bmod ..
    simp [he, hvalue, Except.map, Counts, hexpires, hsum]

theorem Counts.next (h : Counts deadline s key deltas) {e : Event}
    (he : e.Within key deadline)
    : Counts deadline (s.next e) key (deltas ++ e.deltas key) := by
  have hother : ∀ s' : Store, s'.lookup key = s.lookup key →
      Counts deadline s' key (deltas ++ []) := by
    intro s' hs'
    rw [append_nil]
    unfold Counts
    rw [hs']
    exact h
  rcases he with ⟨hnow, he⟩
  cases e with
  | sweep now =>
    apply hother
    rcases lookup_sweep s now key with hkept | ⟨hgone, hdead⟩
    . exact hkept
    . exact hgone.trans (hdead.symm.trans (h.live hnow))
  | op now op =>
    cases op with
    | get _ => exact hother s rfl
    | set key' _ _ => exact hother _ (AList.lookup_insert_ne (Ne.symm he))
    | delete key' => exact hother _ (AList.lookup_erase_ne (Ne.symm he))
    | incr key' delta ttl =>
      by_cases hkey : key' = key
      . subst hkey
        rw [Event.deltas, if_pos rfl]
        exact (h.incr hnow delta (he rfl)).2
      . rw [Event.deltas, if_neg hkey]
        apply hother
        simp only [Store.next, Store.step, Store.incr]
        split
        . rfl
        . exact AList.lookup_insert_ne (Ne.symm hkey)

theorem incr_total (hs : s.lookup key = none) {es : List Event}
    (hes : ∀ e ∈ es, e.Within key deadline) (hnow : now ≤ deadline) (delta : Int) {ttl : Int}
    (httl : deadline ≤ now + ttl)
    : ((es.foldl next s).incr parseInt formatInt now key delta ttl).2
        =
      .ok (int64 ((es.flatMap (·.deltas key)).sum + delta)) := by
  have h : Counts deadline (es.foldl Store.next s) key
      (es.flatMap (·.deltas key)) := by
    induction es using reverseRecOn with
    | nil => simpa [Counts] using hs
    | append_singleton es e ih =>
      rw [forall_mem_append, forall_mem_singleton] at hes
      rw [foldl_concat, flatMap_append, flatMap_singleton]
      exact (ih hes.1).next hes.2
  exact (h.incr hnow delta httl).1

end

theorem incr_total_swept
    : let es : List Event := [.op 1 (.incr [] 12 9), .sweep 3, .op 3 (.set [0] [] 1), .op 3 (.incr [] (-20) 9)]
      ((es.foldl next ∅).incr parseInt formatInt 4 [] 3 9).2 = .ok (-5) := by
  intro es
  have hes : ∀ e ∈ es, e.Within [] 5 := by simp [es, Event.Within, Event.now]
  exact incr_total rfl hes (by decide) 3 (by decide)

end Store

end ModelGateway.Memkv
