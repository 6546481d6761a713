import ModelGateway.Core.Basic
import ModelGateway.Lib.Regex

namespace ModelGateway.Pii

structure Match where
  kind : Str
  start : Nat
  finish : Nat
  value : Str
  deriving DecidableEq, Repr

def insertByStart (m : Match) : List Match → List Match
  | [] => [m]
  | x :: xs => if m.start < x.start then m :: x :: xs else x :: insertByStart m xs

def sortByStart (matches_ : List Match) : List Match :=
  matches_.foldl (fun sorted m => insertByStart m sorted) []

def withoutOverlaps (matches_ : List Match) : List Match :=
  if matches_.length < 2 then
    matches_
  else
    keep (sortByStart matches_) none
where
  -- `last` is the end of the match kept last. The source starts from -1.
  keep : List Match → Option Nat → List Match
    | [], _ => []
    | m :: ms, last =>
      if last.any (m.start < ·) then keep ms last else m :: keep ms (some m.finish)

def digitsOf (s : Str) : Str :=
  s.filter (fun b => 48 ≤ b && b ≤ 57)

def luhn (digits : Str) : Bool :=
  if digits.length < 12 then
    false
  else
    sum digits.reverse false % 10 = 0
where
  sum : Str → Bool → Nat
    | [], _ => 0
    | b :: rest, double =>
      let n := b.toNat - 48
      let n := if double then (if n * 2 > 9 then n * 2 - 9 else n * 2) else n
      n + sum rest (!double)

def validIBAN (s : Str) : Bool :=
  if s.length < 15 ∨ 34 < s.length then
    false
  else
    match (s.drop 4 ++ s.take 4).foldlM step 0 with
    | some remainder => remainder = 1
    | none => false
where
  step (remainder : Nat) (b : UInt8) : Option Nat :=
    if 48 ≤ b ∧ b ≤ 57 then
      some ((remainder * 10 + (b.toNat - 48)) % 97)
    else if 65 ≤ b ∧ b ≤ 90 then
      some ((remainder * 100 + (b.toNat - 65 + 10)) % 97)
    else
      none

def split (sep : UInt8) : Str → List Str
  | [] => [[]]
  | b :: rest =>
    if b = sep then
      [] :: split sep rest
    else
      match split sep rest with
      | [] => [[b]]
      | part :: parts => (b :: part) :: parts

def validIPv4 (s : Str) : Bool :=
  let parts := split 46 s
  parts.length = 4 && parts.all validPart
where
  validPart (part : Str) : Bool :=
    if 1 < part.length ∧ part.head? = some 48 then
      false
    else
      part.foldl (fun n b => n * 10 + (b.toNat - 48)) 0 ≤ 255

structure Detector where
  kind : Str
  re : Regex
  validate : Str → Bool

section

open Regex

private def upper (b : UInt8) : Bool := 65 ≤ b && b ≤ 90
private def letter (b : UInt8) : Bool := upper b || (97 ≤ b && b ≤ 122)
private def alnum (b : UInt8) : Bool := letter b || (48 ≤ b && b ≤ 57)
private def oneOf (s : String) (b : UInt8) : Bool := (str s).contains b
private def spaceOrDash (b : UInt8) : Bool := oneOf "\t\n\r -" b || b == 12

def emailPattern : Regex :=
  -- `\b[A-Za-z0-9._%+\-]+@[A-Za-z0-9.\-]+\.[A-Za-z]{2,}\b`
  cat .wordBoundary [
    plus (.byte (fun b => alnum b || oneOf "._%+-" b)),
    lit 64,
    plus (.byte (fun b => alnum b || oneOf ".-" b)),
    lit 46,
    atLeast (.byte letter) 2,
    .wordBoundary]

def emiratesIDPattern : Regex :=
  -- `\b784-?\d{4}-?\d{7}-?\d\b`
  cat .wordBoundary [
    lit 55, lit 56, lit 52,
    opt (lit 45),
    between digit 4 4,
    opt (lit 45),
    between digit 7 7,
    opt (lit 45),
    digit,
    .wordBoundary]

def cardPattern : Regex :=
  -- `\b(?:\d[ -]?){12,18}\d\b`
  cat .wordBoundary [
    between (.seq digit (opt (.byte (oneOf " -")))) 12 18,
    digit,
    .wordBoundary]

def ibanPattern : Regex :=
  -- `\b[A-Z]{2}\d{2}[A-Z0-9]{10,30}\b`
  cat .wordBoundary [
    between (.byte upper) 2 2,
    between digit 2 2,
    between (.byte (fun b => upper b || (48 ≤ b && b ≤ 57))) 10 30,
    .wordBoundary]

def phonePattern : Regex :=
  -- `\+\d{1,3}[\s\-]?\(?\d{1,4}\)?[\s\-]?\d{3,4}[\s\-]?\d{3,4}\b`
  cat (lit 43) [
    between digit 1 3,
    opt (.byte spaceOrDash),
    opt (lit 40),
    between digit 1 4,
    opt (lit 41),
    opt (.byte spaceOrDash),
    between digit 3 4,
    opt (.byte spaceOrDash),
    between digit 3 4,
    .wordBoundary]

def ipPattern : Regex :=
  -- `\b\d{1,3}\.\d{1,3}\.\d{1,3}\.\d{1,3}\b`
  cat .wordBoundary [
    between digit 1 3,
    lit 46,
    between digit 1 3,
    lit 46,
    between digit 1 3,
    lit 46,
    between digit 1 3,
    .wordBoundary]

def placeholderPattern : Regex :=
  -- `\[\[[A-Z_]+_\d+\]\]`
  cat (lit 91) [
    lit 91,
    plus (.byte (fun b => upper b || b == 95)),
    lit 95,
    plus digit,
    lit 93,
    lit 93]

end

def detectors : List Detector := [
  ⟨str "EMAIL", emailPattern, fun _ => true⟩,
  ⟨str "EMIRATES_ID", emiratesIDPattern, fun s => luhn (digitsOf s)⟩,
  ⟨str "CARD", cardPattern, fun s => luhn (digitsOf s)⟩,
  ⟨str "IBAN", ibanPattern, validIBAN⟩,
  ⟨str "PHONE", phonePattern, fun _ => true⟩,
  ⟨str "IP", ipPattern, validIPv4⟩]

def Detector.findings (d : Detector) (text : Str) : List Match :=
  (d.re.findAllIndex text).filterMap fun span =>
    let value := (text.take span.2).drop span.1
    if d.validate value then some ⟨d.kind, span.1, span.2, value⟩ else none

def detect (payload : Str) : List Match :=
  withoutOverlaps (detectors.flatMap (·.findings payload))

def detectAll (answers : List (Except GoError (List Match))) : List Match × List GoError :=
  (withoutOverlaps (answers.flatMap found), answers.filterMap failed)
where
  found : Except GoError (List Match) → List Match
    | .ok found => found
    | .error _ => []
  failed : Except GoError (List Match) → Option GoError
    | .ok _ => none
    | .error err => some err

structure DetectedEntity where
  kind : Str
  start : Int
  finish : Int
  value : Str
  deriving DecidableEq, Repr

def toMatches (payload : Str) (entities : List DetectedEntity) : List Match :=
  entities.filterMap fun e =>
    if e.start < 0 ∨ (payload.length : Int) < e.finish ∨ e.finish ≤ e.start then
      none
    else if (payload.take e.finish.toNat).drop e.start.toNat ≠ e.value then
      none
    else
      some ⟨e.kind, e.start.toNat, e.finish.toNat, e.value⟩

example : detect (str "hi a@b.co") = [⟨str "EMAIL", 3, 9, str "a@b.co"⟩] := by decide

end ModelGateway.Pii
