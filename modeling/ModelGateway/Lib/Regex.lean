import Mathlib.Data.List.Basic

/-!
This module contains a backtracking matcher for regular expressions over bytes.
-/

inductive Regex where
  | byte (accepts : UInt8 → Bool)
  | seq (r s : Regex)
  | rep (r : Regex) (min : Nat) (max : Option Nat)
  | wordBoundary

namespace Regex

structure Cursor where
  prev : Option UInt8
  rest : List UInt8
  pos : Nat

def Cursor.start (text : List UInt8) : Cursor :=
  ⟨none, text, 0⟩

def Cursor.next (c : Cursor) : Option (UInt8 × Cursor) :=
  match c.rest with
  | [] => none
  | b :: rest => some (b, ⟨some b, rest, c.pos + 1⟩)

def isWordByte (b : UInt8) : Bool :=
  (48 ≤ b && b ≤ 57) || (65 ≤ b && b ≤ 90) || (97 ≤ b && b ≤ 122) || b == 95

def Cursor.atWordBoundary (c : Cursor) : Bool :=
  c.prev.any isWordByte != c.rest.head?.any isWordByte

/-- At least `min` and at most `max` greedy iterations, each of which consumes a byte of the fuel. -/
def iterate (step : Cursor → (Cursor → Option Nat) → Option Nat) (k : Cursor → Option Nat)
    : (fuel min : Nat) → (max : Option Nat) → Cursor → Option Nat
  | 0, min, _, c => if min = 0 then k c else none
  | fuel + 1, min, max, c =>
    let stop := if min = 0 then k c else none
    if max = some 0 then
      stop
    else
      match step c (fun c' => iterate step k fuel (min - 1) (max.map (· - 1)) c') with
      | some finish => some finish
      | none => stop

def run (r : Regex) (c : Cursor) (k : Cursor → Option Nat) : Option Nat :=
  match r with
  | .byte accepts =>
    match c.next with
    | none => none
    | some (b, c') => if accepts b then k c' else none
  | .seq r s => r.run c (fun c' => s.run c' k)
  | .rep r min max => iterate (fun c' k' => r.run c' k') k c.rest.length min max c
  | .wordBoundary => if c.atWordBoundary then k c else none

def matchAt (r : Regex) (c : Cursor) : Option Nat :=
  r.run c (fun c' => some c'.pos)

def findAllIndex (r : Regex) (text : List UInt8) : List (Nat × Nat) :=
  go text.length (.start text) 0
where
  -- `until_` is the end of the last match, before which no match may start.
  go : Nat → Cursor → Nat → List (Nat × Nat)
    | 0, _, _ => []
    | fuel + 1, c, until_ =>
      match c.next with
      | none => []
      | some (_, c') =>
        if c.pos < until_ then
          go fuel c' until_
        else
          match r.matchAt c with
          | some finish =>
            if c.pos < finish then
              (c.pos, finish) :: go fuel c' finish
            else
              go fuel c' until_
          | none => go fuel c' until_

def replaceAllFunc (r : Regex) (text : List UInt8) (f : List UInt8 → List UInt8) : List UInt8 :=
  go (r.findAllIndex text) 0
where
  go : List (Nat × Nat) → Nat → List UInt8
    | [], last => text.drop last
    | (start, finish) :: spans, last =>
      (text.take start).drop last ++ f ((text.take finish).drop start) ++ go spans finish

/- The building blocks patterns are written with. -/

def lit (b : UInt8) : Regex := .byte (· == b)
def digit : Regex := .byte (fun b => 48 ≤ b && b ≤ 57)
def opt (r : Regex) : Regex := .rep r 0 (some 1)
def plus (r : Regex) : Regex := .rep r 1 none
def between (r : Regex) (min max : Nat) : Regex := .rep r min (some max)
def atLeast (r : Regex) (min : Nat) : Regex := .rep r min none

def cat (r : Regex) : List Regex → Regex
  | [] => r
  | s :: rs => .seq r (cat s rs)

end Regex
