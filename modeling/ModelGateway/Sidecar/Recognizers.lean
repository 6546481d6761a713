import ModelGateway.Lib.Intervals
import ModelGateway.Lib.Pattern
import ModelGateway.Lib.Runes
import ModelGateway.Pii.Detect

namespace ModelGateway.Sidecar

open Pii (DetectedEntity)

structure Span where
  kind : Str
  first : Nat
  last : Nat

structure Recognizer where
  language : Str
  find : List Char → List Span

def Span.entity (text : List Char) (s : Span) : DetectedEntity :=
  let value := Rune.encode ((text.take s.last).drop s.first)
  let start := (Rune.encode (text.take s.first)).length
  ⟨s.kind, start, start + value.length, value⟩

def Recognizer.recognize (r : Recognizer) (text : List Char) : List DetectedEntity :=
  (r.find text).map (·.entity text)

def isWord (unicode : Char → Bool) (c : Char) : Bool :=
  c.isAlphanum || c == '_' || (127 < c.toNat && unicode c)

structure PatternRecognizer where
  language : Str
  patterns : List (Str × Pattern)

def PatternRecognizer.recognizer (isWord : Char → Bool) (r : PatternRecognizer) : Recognizer where
  language := r.language
  find text := r.patterns.flatMap fun (kind, pattern) =>
    (pattern.finditer isWord text).map fun (first, last) => ⟨kind, first, last⟩

section

open Pattern

def isSpace (c : Char) : Bool :=
  let n := c.toNat
  (9 ≤ n && n ≤ 13) || (0x1c ≤ n && n ≤ 0x20) || n == 0x85 || n == 0xa0 || n == 0x1680 ||
    (0x2000 ≤ n && n ≤ 0x200a) || n == 0x2028 || n == 0x2029 || n == 0x202f || n == 0x205f ||
    n == 0x3000

def spaces : Pattern := plus (.char isSpace)

def upper : Pattern := .char fun c => 'A' ≤ c && c ≤ 'Z'

def capitalised : Pattern :=
  .seq upper (plus (.char fun c => 'a' ≤ c && c ≤ 'z'))

def literal (s : String) : Pattern :=
  match s.toList with
  | [] => .rep (.char fun _ => true) 0 (some 0)
  | x :: xs => word x xs

def person : Pattern :=
  -- `\b(?:Mr|Mrs|Ms|Dr|Prof)\.?\s+([A-Z][a-z]+(?:\s+[A-Z][a-z]+){0,2})`
  cat .wordBoundary [
    oneOf (literal "Mr") [literal "Mrs", literal "Ms", literal "Dr", literal "Prof"],
    opt (lit '.'),
    spaces,
    .group (.seq capitalised (between (.seq spaces capitalised) 0 2))]

def companyWord : Pattern :=
  .seq upper (star (.char fun c => ('A' ≤ c && c ≤ 'Z') || ('a' ≤ c && c ≤ 'z') || c == '&' ||
    c == '.' || c == '-'))

def organization : Pattern :=
  -- `\b([A-Z][A-Za-z&.\-]*(?:\s+[A-Z][A-Za-z&.\-]*)*\s+(?:Inc|Ltd|...|Company)\.?)`
  .seq .wordBoundary (.group (cat companyWord [
    star (.seq spaces companyWord),
    spaces,
    oneOf (literal "Inc") [literal "Ltd", literal "LLC", literal "GmbH", literal "PLC",
      literal "Corp", literal "Corporation", literal "Company"],
    opt (lit '.')]))

def location : Pattern :=
  -- `\b(?:in|at|from|to)\s+([A-Z][a-z]+(?:\s+[A-Z][a-z]+)?)(?=[\s,.]|$)`
  cat .wordBoundary [
    oneOf (literal "in") [literal "at", literal "from", literal "to"],
    spaces,
    .group (.seq capitalised (opt (.seq spaces capitalised))),
    .ahead (.alt (.char fun c => isSpace c || c == ',' || c == '.') .atEnd)]

def arabicWord : Pattern :=
  plus (.char fun c => 'ء' ≤ c && c ≤ 'ي')

def arabicPerson : Pattern :=
  cat (oneOf (literal "السيد") [literal "السيدة", literal "الدكتور", literal "الدكتورة",
      literal "الأستاذ"]) [
    spaces,
    .group (.seq arabicWord (between (.seq spaces arabicWord) 0 2))]

def arabicOrganization : Pattern :=
  .group (cat (oneOf (literal "شركة") [literal "مؤسسة", literal "مجموعة"]) [
    spaces,
    arabicWord,
    between (.seq spaces arabicWord) 0 2])

end

def english : PatternRecognizer :=
  ⟨str "en", [(str "PERSON", person), (str "ORGANIZATION", organization), (str "LOCATION", location)]⟩

def arabic : PatternRecognizer :=
  ⟨str "ar", [(str "PERSON", arabicPerson), (str "ORGANIZATION", arabicOrganization)]⟩

structure Registry where
  default : Str
  byLanguage : List (Str × List Recognizer)

namespace Registry

def register (r : Registry) (recognizer : Recognizer) : Registry :=
  if r.byLanguage.any (·.1 == recognizer.language) then
    { r with byLanguage := r.byLanguage.map fun (language, group) =>
        if language = recognizer.language then (language, group ++ [recognizer])
        else (language, group) }
  else
    { r with byLanguage := r.byLanguage ++ [(recognizer.language, [recognizer])] }

def new (unicode : Char → Bool) (default : Str) : Registry :=
  ((⟨default, []⟩ : Registry).register (english.recognizer (isWord unicode))).register
    (arabic.recognizer (isWord unicode))

def group (r : Registry) (language : Str) : Option (List Recognizer) :=
  (r.byLanguage.find? (·.1 == language)).map (·.2)

def recognizers (r : Registry) : Option Str → Option (List Recognizer)
  | none => some (r.byLanguage.flatMap (·.2))
  | some language =>
    match r.group language with
    | some (x :: xs) => some (x :: xs)
    | _ => r.group r.default

def insertOrdered (e : DetectedEntity) : List DetectedEntity → List DetectedEntity
  | [] => [e]
  | x :: xs =>
    if e.start < x.start ∨ e.start = x.start ∧ x.finish - x.start < e.finish - e.start then
      e :: x :: xs
    else
      x :: insertOrdered e xs

def ordered (entities : List DetectedEntity) : List DetectedEntity :=
  entities.foldl (fun sorted e => insertOrdered e sorted) []

def deduplicate (entities : List DetectedEntity) : List DetectedEntity :=
  Intervals.select (·.start.toNat) (·.finish.toNat) (ordered entities) none

def recognize (r : Registry) (text : List Char) (language : Option Str)
    : Option (List DetectedEntity) :=
  (r.recognizers language).map fun recognizers =>
    deduplicate (recognizers.flatMap (·.recognize text))

end Registry

def maxTextBytes : Nat := 256 * 1024

structure DetectResponse where
  entities : List DetectedEntity
  truncated : Bool

def inspected (text : List Char) : List Char :=
  let encoded := Rune.encode text
  if maxTextBytes < encoded.length then Rune.decodeIgnore (encoded.take maxTextBytes) else text

def detect (registry : Registry) (text : List Char) (language : Option Str)
    : Option DetectResponse :=
  (registry.recognize (inspected text) language).map fun entities =>
    ⟨entities, maxTextBytes < (Rune.encode text).length⟩

def entities (registry : Registry) (payload : Str) : Option (List DetectedEntity) :=
  (detect registry (Rune.text payload) none).map (·.entities)

theorem entities_eq (registry : Registry) (payload : Str)
    : entities registry payload = registry.recognize (inspected (Rune.text payload)) none := by
  unfold entities detect
  cases registry.recognize (inspected (Rune.text payload)) none <;> rfl

end ModelGateway.Sidecar
