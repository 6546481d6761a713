import ModelGateway.Lib.JsonTokens

/-!
This module contains the grammar of JSON texts, as a reader that takes one token after the other.
-/

namespace Json

open List
open Option (bind_eq_some_iff map_eq_some_iff some)

variable {σ τ : Type}

inductive Frame (σ : Type) where
  | array (index : Nat)
  | object (name : Option σ)
  deriving DecidableEq, Repr

inductive Next where
  | value
  | valueOrClose
  | name
  | nameOrClose
  | colon
  | separator
  deriving DecidableEq, Repr

def Next.awaitsValue : Next → Bool
  | value | valueOrClose => true
  | _ => false

def Next.awaitsName : Next → Bool
  | name | nameOrClose => true
  | _ => false

structure Reader (σ : Type) where
  stack : List (Frame σ)
  next : Next
  deriving DecidableEq, Repr

namespace Reader

def start : Reader σ :=
  ⟨[], .value⟩

def done (r : Reader σ) : Bool :=
  r.stack.isEmpty && r.next == .separator

def step (r : Reader σ) (t : Token σ) : Option (Reader σ) :=
  match t with
  | .scalar _ => if r.next.awaitsValue then some { r with next := .separator } else none
  | .string s =>
    if r.next.awaitsValue then some { r with next := .separator }
    else if r.next.awaitsName then
      match r.stack with
      | .object _ :: outer => some ⟨.object (some s) :: outer, .colon⟩
      | _ => none
    else none
  | .mark .openArray =>
    if r.next.awaitsValue then some ⟨.array 0 :: r.stack, .valueOrClose⟩ else none
  | .mark .openObject =>
    if r.next.awaitsValue then some ⟨.object none :: r.stack, .nameOrClose⟩ else none
  | .mark .closeArray =>
    match r.stack with
    | .array _ :: outer =>
      if r.next = .valueOrClose ∨ r.next = .separator then some ⟨outer, .separator⟩ else none
    | _ => none
  | .mark .closeObject =>
    match r.stack with
    | .object _ :: outer =>
      if r.next = .nameOrClose ∨ r.next = .separator then some ⟨outer, .separator⟩ else none
    | _ => none
  | .mark .colon => if r.next = .colon then some { r with next := .value } else none
  | .mark .comma =>
    if r.next = .separator then
      match r.stack with
      | .array index :: outer => some ⟨.array (index + 1) :: outer, .value⟩
      | .object _ :: outer => some ⟨.object none :: outer, .name⟩
      | [] => none
    else none

def collect (pick : Reader σ → Bool) : Reader σ → List (Token σ) → List σ
  | _, [] => []
  | r, t :: ts =>
    match r.step t with
    | none => []
    | some r' =>
      match t with
      | .string s => if pick r then s :: collect pick r' ts else collect pick r' ts
      | _ => collect pick r' ts

def value : Reader σ → List (Token σ) → Option (List (Token σ) × List (Token σ))
  | _, [] => none
  | r, t :: ts =>
    match r.step t with
    | none => none
    | some r' => if r'.done then some ([t], ts) else (value r' ts).map fun (v, rest) => (t :: v, rest)

end Reader

def isDocument (ts : List (Token σ)) : Bool :=
  (ts.foldlM Reader.step .start).any Reader.done

def complete (bytes : List UInt8) : Bool :=
  (lex bytes).any isDocument

def members : Nat → List (Token σ) → Option (List (σ × List (Token σ)))
  | 0, _ => none
  | fuel + 1, ts =>
    match ts with
    | .string name :: .mark .colon :: ts =>
      (Reader.start.value ts).bind fun (v, rest) =>
        match rest with
        | [.mark .closeObject] => some [(name, v)]
        | .mark .comma :: rest => (members fuel rest).map ((name, v) :: ·)
        | _ => none
    | _ => none

def object : List (Token σ) → Option (List (σ × List (Token σ)))
  | [.mark .openObject, .mark .closeObject] => some []
  | .mark .openObject :: ts => members ts.length ts
  | _ => none

def membersTokens : List (σ × List (Token σ)) → List (Token σ)
  | [] => [.mark .closeObject]
  | [(name, v)] => .string name :: .mark .colon :: (v ++ [.mark .closeObject])
  | (name, v) :: member :: rest =>
    .string name :: .mark .colon :: (v ++ .mark .comma :: membersTokens (member :: rest))

def objectTokens (ms : List (σ × List (Token σ))) : List (Token σ) :=
  .mark .openObject :: membersTokens ms

section

variable {r : Reader σ} {ts v rest : List (Token σ)}

theorem Reader.value_eq_some (h : r.value ts = some (v, rest))
    : ts = v ++ rest ∧ v ≠ [] ∧ ∀ rest', r.value (v ++ rest') = some (v, rest') := by
  induction ts generalizing r v with
  | nil => simp [value] at h
  | cons t ts ih =>
    unfold value at h
    split at h
    . simp at h
    . next r' hr' =>
      split at h
      . next hdone =>
        cases h
        refine ⟨rfl, by simp, ?_⟩
        intro rest'
        rw [singleton_append, value, hr']
        dsimp only
        rw [if_pos hdone]
      . next hdone =>
        rcases map_eq_some_iff.mp h with ⟨⟨v', rest'⟩, hv', heq⟩
        cases heq
        rcases ih hv' with ⟨rfl, _, happend⟩
        refine ⟨rfl, by simp, ?_⟩
        intro rest'
        rw [cons_append, value, hr']
        dsimp only
        rw [if_neg hdone, happend]
        rfl

def IsValue (v : List (Token σ)) : Prop :=
  Reader.start.value v = some (v, [])

theorem IsValue.of_value (h : Reader.start.value ts = some (v, rest)) : IsValue v := by
  have := (Reader.value_eq_some h).2.2 []
  rwa [append_nil] at this

theorem IsValue.value_append (h : IsValue v) (rest : List (Token σ))
    : Reader.start.value (v ++ rest) = some (v, rest) :=
  (Reader.value_eq_some h).2.2 rest

variable {ms : List (σ × List (Token σ))}

theorem isValue_of_mem_members {fuel : Nat} (h : members fuel ts = some ms)
    : ∀ m ∈ ms, IsValue m.2 := by
  induction fuel generalizing ts ms with
  | zero => simp [members] at h
  | succ fuel ih =>
    unfold members at h
    split at h
    . rcases bind_eq_some_iff.mp h with ⟨⟨v, rest⟩, hv, h⟩
      dsimp only at h
      split at h
      . cases h
        simpa using IsValue.of_value hv
      . rcases map_eq_some_iff.mp h with ⟨ms', hms', rfl⟩
        simp only [mem_cons, forall_eq_or_imp]
        exact ⟨.of_value hv, ih hms'⟩
      . simp at h
    . simp at h

theorem isValue_of_mem_object (h : object ts = some ms) : ∀ m ∈ ms, IsValue m.2 := by
  unfold object at h
  split at h
  . cases h
    simp
  . exact isValue_of_mem_members h
  . simp at h

theorem mem_of_mem_members {fuel : Nat} (h : members fuel ts = some ms)
    : ∀ m ∈ ms, ∀ t ∈ m.2, t ∈ ts := by
  induction fuel generalizing ts ms with
  | zero => simp [members] at h
  | succ fuel ih =>
    unfold members at h
    split at h
    . next name ts =>
      rcases bind_eq_some_iff.mp h with ⟨⟨v, rest⟩, hv, hrest⟩
      rcases Reader.value_eq_some hv with ⟨rfl, _⟩
      dsimp only at hrest
      split at hrest
      . cases hrest
        simp_all
      . rcases map_eq_some_iff.mp hrest with ⟨ms', hms', rfl⟩
        rw [forall_mem_cons]
        constructor
        . intro t ht
          simp [ht]
        . intro m hm t ht
          simp [ih hms' m hm t ht]
      . simp at hrest
    . simp at h

theorem mem_of_mem_object (h : object ts = some ms) : ∀ m ∈ ms, ∀ t ∈ m.2, t ∈ ts := by
  unfold object at h
  split at h
  . cases h
    simp
  . intro m hm t ht
    exact mem_cons_of_mem _ (mem_of_mem_members h m hm t ht)
  . simp at h

theorem members_membersTokens {fuel : Nat} (hne : ms ≠ [])
    (h : ∀ m ∈ ms, IsValue m.2) (hfuel : ms.length ≤ fuel)
    : members fuel (membersTokens ms) = some ms := by
  induction fuel generalizing ms with
  | zero => simp_all
  | succ fuel ih =>
    match ms with
    | [] => contradiction
    | [(name, v)] =>
      have hv : IsValue v := h (name, v) (by simp)
      rw [membersTokens, members]
      rw [hv.value_append]
      rfl
    | (name, v) :: member :: rest =>
      have hv : IsValue v := h (name, v) (by simp)
      rw [membersTokens, members]
      rw [hv.value_append, Option.bind_some]
      dsimp only
      rw [ih (by simp) (fun m hm => h m (mem_cons_of_mem _ hm)) (by simpa using hfuel)]
      rfl

theorem length_le_membersTokens (ms : List (σ × List (Token σ)))
    : ms.length < (membersTokens ms).length := by
  match ms with
  | [] => simp [membersTokens]
  | [(name, v)] => simp [membersTokens]
  | (name, v) :: member :: rest =>
    have := length_le_membersTokens (member :: rest)
    simp only [membersTokens, length_cons, length_append] at *
    omega

theorem object_objectTokens (h : ∀ m ∈ ms, IsValue m.2) : object (objectTokens ms) = some ms := by
  by_cases hne : ms = []
  . subst hne
    rfl
  . have hlength := length_le_membersTokens ms
    have hread := members_membersTokens hne h (Nat.le_of_lt hlength)
    have htwo : membersTokens ms ≠ [.mark .closeObject] := by
      match ms with
      | [] => contradiction
      | [(name, v)] => simp [membersTokens]
      | (name, v) :: member :: rest => simp [membersTokens]
    unfold objectTokens object
    split
    . next heq =>
      rw [List.cons.injEq] at heq
      exact absurd heq.2 htwo
    . next ts _ heq =>
      rw [List.cons.injEq] at heq
      rw [← heq.2]
      exact hread
    . next hnot => exact absurd rfl (hnot _)

end

section

theorem Lexes.getLast?_eq {bytes : List UInt8} {ts : List (Token (List Glyph))} (h : Lexes bytes ts)
    (hlast : bytes.getLast? = some 91)
    : ts.getLast? = some (.mark .openArray) := by
  have hcons : ∀ {rest : List UInt8} {us : List (Token (List Glyph))} {t : Token (List Glyph)},
      rest.getLast? = some 91 →
      (rest.getLast? = some 91 → us.getLast? = some (.mark .openArray)) →
      (t :: us).getLast? = some (.mark .openArray) := by
    intro rest us t hrest ih
    rw [getLast?_cons, ih hrest]
    rfl
  induction h with
  | nil => simp at hlast
  | @space b rest ts hb h ih =>
    cases rest with
    | nil =>
      rw [getLast?_singleton, some.injEq] at hlast
      subst hlast
      exact absurd hb (by decide)
    | cons x rest => exact ih (by rwa [getLast?_cons_cons] at hlast)
  | @mark m rest ts h ih =>
    cases rest with
    | nil =>
      have hts : ts = [] := by
        have := lex_eq_some_iff.mpr h
        simpa [lex, lexFrom] using this.symm
      subst hts
      cases m <;> first | rfl | simp [Mark.byte] at hlast
    | cons x rest => exact hcons (by rwa [getLast?_cons_cons] at hlast) ih
  | @string gs hgs rest ts h ih =>
    cases rest with
    | nil =>
      rw [← cons_append, getLast?_concat] at hlast
      simp at hlast
    | cons x rest =>
      apply hcons _ ih
      rw [← hlast, ← cons_append, ← singleton_append (x := 34) (l := x :: rest),
        ← append_assoc, getLast?_append_of_ne_nil _ (by simp)]
  | @scalar word hword rest hrest ts h ih =>
    cases rest with
    | nil =>
      rw [append_nil] at hlast
      rw [isScalar, Bool.and_eq_true, all_eq_true] at hword
      have := hword.1 91 (mem_of_getLast? hlast)
      exact absurd this (by decide)
    | cons x rest =>
      apply hcons _ ih
      rw [← hlast, getLast?_append_of_ne_nil _ (by simp)]

theorem getLast?_of_complete {bytes : List UInt8} (h : complete bytes = true)
    : bytes.getLast? ≠ some 91 := by
  intro hlast
  unfold complete at h
  rw [Option.any_eq_true] at h
  rcases h with ⟨ts, hts, h⟩
  rcases getLast?_eq_some_iff.mp ((lex_eq_some_iff.mp hts).getLast?_eq hlast) with ⟨_, rfl⟩
  unfold isDocument at h
  rw [foldlM_append, Option.any_eq_true] at h
  rcases h with ⟨r, hr, hdone⟩
  rcases bind_eq_some_iff.mp hr with ⟨r', _, hr'⟩
  rcases bind_eq_some_iff.mp hr' with ⟨r'', hstep, heq⟩
  cases heq
  unfold Reader.step at hstep
  dsimp only at hstep
  split at hstep
  . cases hstep
    simp [Reader.done] at hdone
  . simp at hstep

end

section

def Frame.map (f : σ → τ) : Frame σ → Frame τ
  | array index => array index
  | object name => object (name.map f)

def Reader.map (f : σ → τ) (r : Reader σ) : Reader τ :=
  ⟨r.stack.map (Frame.map f), r.next⟩

@[simp]
theorem Reader.done_map (f : σ → τ) (r : Reader σ) : (r.map f).done = r.done := by
  simp [done, map]

@[simp]
theorem Reader.step_map (f : σ → τ) (r : Reader σ) (t : Token σ)
    : (r.map f).step (t.map f) = (r.step t).map (Reader.map f) := by
  rcases r with ⟨stack, next⟩
  cases t with
  | mark m =>
    cases m <;> rcases stack with _ | ⟨_ | _, outer⟩ <;> cases next <;> rfl
  | scalar word => cases next <;> rfl
  | string s => rcases stack with _ | ⟨_ | _, outer⟩ <;> cases next <;> rfl

variable {r : Reader σ}

theorem Reader.value_map (f : σ → τ) {ts v rest : List (Token σ)} (h : r.value ts = some (v, rest))
    : (r.map f).value (ts.map (Token.map f))
        =
      some (v.map (Token.map f), rest.map (Token.map f)) := by
  induction ts generalizing r v with
  | nil => simp [value] at h
  | cons t ts ih =>
    unfold value at h
    rw [map_cons, value, step_map]
    split at h
    . simp at h
    . next r' hr' =>
      rw [hr', Option.map_some]
      dsimp only
      rw [done_map]
      split at h
      . next hdone =>
        cases h
        rw [if_pos hdone]
        rfl
      . next hdone =>
        rcases map_eq_some_iff.mp h with ⟨⟨v', _⟩, hv', heq⟩
        cases heq
        rw [if_neg hdone, ih hv']
        rfl

theorem IsValue.map {v : List (Token σ)} (h : IsValue v) (f : σ → τ)
    : IsValue (v.map (Token.map f)) :=
  Reader.value_map f h

theorem Reader.step_congr (f : σ → σ) {t : Token σ}
    (h : r.next.awaitsName = true → ∀ s, t = .string s → f s = s)
    : r.step (t.map f) = r.step t := by
  cases t with
  | mark m => rfl
  | scalar word => rfl
  | string s =>
    unfold step Token.map
    dsimp only
    split
    . rfl
    . split
      . next hname => rw [h hname s rfl]
      . rfl

theorem Reader.step_eq_none (f : σ → σ) {t : Token σ} (h : r.step t = none)
    : r.step (t.map f) = none := by
  cases t with
  | mark m => exact h
  | scalar word => exact h
  | string s =>
    rcases r with ⟨_ | ⟨_ | _, outer⟩, next⟩ <;> cases next <;> first | rfl | cases h

def names (r : Reader σ) (ts : List (Token σ)) : List σ :=
  r.collect (·.next.awaitsName) ts

variable {ts : List (Token σ)}

theorem names_cons {r r' : Reader σ} {t : Token σ} (hr' : r.step t = some r')
    {f : σ → σ} (h : ∀ s ∈ names r (t :: ts), f s = s)
    : (r.next.awaitsName = true → ∀ s, t = .string s → f s = s) ∧ ∀ s ∈ names r' ts, f s = s := by
  unfold names Reader.collect at h
  rw [hr'] at h
  constructor
  . rintro hname s rfl
    dsimp only at h
    rw [if_pos hname] at h
    exact h s (by simp)
  . intro s hs
    apply h
    cases t with
    | mark m => exact hs
    | scalar word => exact hs
    | string s' =>
      dsimp only
      split
      . exact mem_cons_of_mem _ hs
      . exact hs

theorem foldlM_step_map {f : σ → σ} (h : ∀ s ∈ names r ts, f s = s)
    : (ts.map (Token.map f)).foldlM Reader.step r = ts.foldlM Reader.step r := by
  induction ts generalizing r with
  | nil => rfl
  | cons t ts ih =>
    rw [map_cons, foldlM_cons, foldlM_cons]
    cases hr' : r.step t with
    | none =>
      rw [Reader.step_eq_none f hr']
      rfl
    | some r' =>
      rcases names_cons hr' h with ⟨hname, hrest⟩
      rw [Reader.step_congr f hname, hr']
      exact ih hrest

theorem collect_map {f : σ → σ} (pick : Reader σ → Bool) (h : ∀ s ∈ names r ts, f s = s)
    : r.collect pick (ts.map (Token.map f)) = (r.collect pick ts).map f := by
  induction ts generalizing r with
  | nil => rfl
  | cons t ts ih =>
    rw [map_cons]
    unfold Reader.collect
    cases hr' : r.step t with
    | none =>
      rw [Reader.step_eq_none f hr']
      rfl
    | some r' =>
      rcases names_cons hr' h with ⟨hname, hrest⟩
      rw [Reader.step_congr f hname, hr']
      dsimp only
      rw [ih hrest]
      cases t with
      | mark m => rfl
      | scalar word => rfl
      | string s =>
        dsimp only [Token.map]
        split <;> rfl

end

end Json
