import Mathlib.Data.List.Basic

/-!
This module contains a backtracking matcher for patterns over characters.
-/

inductive Pattern where
  | char (accepts : Char → Bool)
  | seq (p q : Pattern)
  | alt (p q : Pattern)
  | rep (p : Pattern) (min : Nat) (max : Option Nat)
  | group (p : Pattern)
  | wordBoundary
  | ahead (p : Pattern)
  | atEnd

namespace Pattern

structure Place where
  prev : Option Char
  rest : List Char
  pos : Nat
  captured : Option (Nat × Nat)

def Place.next (c : Place) : Option (Char × Place) :=
  match c.rest with
  | [] => none
  | x :: rest => some (x, { c with prev := some x, rest, pos := c.pos + 1 })

def iterate (step : Place → (Place → Option Place) → Option Place) (k : Place → Option Place)
    : (fuel min : Nat) → (max : Option Nat) → Place → Option Place
  | 0, min, _, c => if min = 0 then k c else none
  | fuel + 1, min, max, c =>
    let stop := if min = 0 then k c else none
    if max = some 0 then
      stop
    else
      match step c (fun c' => iterate step k fuel (min - 1) (max.map (· - 1)) c') with
      | some found => some found
      | none => stop

def run (isWord : Char → Bool) (p : Pattern) (c : Place) (k : Place → Option Place) : Option Place :=
  match p with
  | .char accepts =>
    match c.next with
    | none => none
    | some (x, c') => if accepts x then k c' else none
  | .seq p q => p.run isWord c (fun c' => q.run isWord c' k)
  | .alt p q =>
    match p.run isWord c k with
    | some found => some found
    | none => q.run isWord c k
  | .rep p min max => iterate (fun c' k' => p.run isWord c' k') k c.rest.length min max c
  | .group p => p.run isWord c (fun c' => k { c' with captured := some (c.pos, c'.pos) })
  | .wordBoundary => if c.prev.any isWord != c.rest.head?.any isWord then k c else none
  | .ahead p => if (p.run isWord c some).isSome then k c else none
  -- The end, or a line feed at the end.
  | .atEnd => if c.rest = [] ∨ c.rest = ['\n'] then k c else none

def finditer (isWord : Char → Bool) (p : Pattern) (text : List Char) : List (Nat × Nat) :=
  go text.length ⟨none, text, 0, none⟩ 0
where
  -- `until_` is the end of the last match, before which no match may start.
  go : Nat → Place → Nat → List (Nat × Nat)
    | 0, _, _ => []
    | fuel + 1, c, until_ =>
      match c.next with
      | none => []
      | some (_, c') =>
        if c.pos < until_ then
          go fuel c' until_
        else
          match p.run isWord c some with
          | some found =>
            if c.pos < found.pos then
              found.captured.getD (c.pos, found.pos) :: go fuel c' found.pos
            else
              go fuel c' until_
          | none => go fuel c' until_

/- The building blocks patterns are written with. -/

def lit (x : Char) : Pattern := .char (· == x)
def opt (p : Pattern) : Pattern := .rep p 0 (some 1)
def star (p : Pattern) : Pattern := .rep p 0 none
def plus (p : Pattern) : Pattern := .rep p 1 none
def between (p : Pattern) (min max : Nat) : Pattern := .rep p min (some max)

def cat (p : Pattern) : List Pattern → Pattern
  | [] => p
  | q :: qs => .seq p (cat q qs)

def oneOf (p : Pattern) : List Pattern → Pattern
  | [] => p
  | q :: qs => .alt p (oneOf q qs)

def word (x : Char) (xs : List Char) : Pattern :=
  cat (lit x) (xs.map lit)

end Pattern
