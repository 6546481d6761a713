import ModelGateway.Core.Basic
import ModelGateway.Lib.AddressText
import ModelGateway.Lib.Split

/-!
This module contains the parsers of Go's `net/netip` that a worker reads a network with.
-/

namespace ModelGateway.Netip

open AddressText

def parseAddrError (input msg at_ : Str) : Str :=
  str "ParseAddr(" ++ input.quote ++ str "): " ++ msg
    ++ if at_ = [] then [] else str " (at " ++ at_.quote ++ str ")"

def parsePrefixError (input msg : Str) : Str :=
  str "netip.ParsePrefix(" ++ input.quote ++ str "): " ++ msg

def parseIPv4Fields (input s : Str) : Except Str (List Nat) :=
  go 0 0 [] s
where
  go (val digLen : Nat) (fields : List Nat) : Str → Except Str (List Nat)
    | [] =>
      if fields.length < 3 then
        .error (parseAddrError input (str "IPv4 address too short") [])
      else
        .ok (fields ++ [val])
    | c :: rest =>
      match digit? c with
      | some d =>
        if digLen = 1 ∧ val = 0 then
          .error (parseAddrError input (str "IPv4 field has octet with leading zero") [])
        else if 255 < val * 10 + d then
          .error (parseAddrError input (str "IPv4 field has value >255") [])
        else
          go (val * 10 + d) (digLen + 1) fields rest
      | none =>
        if c = 46 then
          if digLen = 0 ∨ rest = [] then
            .error (parseAddrError input (str "IPv4 field must have at least one digit") (c :: rest))
          else if fields.length = 3 then
            .error (parseAddrError input (str "IPv4 address too long") [])
          else
            go 0 0 (fields ++ [val]) rest
        else
          .error (parseAddrError input (str "unexpected character") (c :: rest))

def parseIPv4 (s : Str) : Except Str Addr := do
  let fields ← parseIPv4Fields s s
  return .v4 (BitVec.ofNat 32 (value 256 fields))

def scanHex (input s : Str) : Except Str (Nat × Nat × Str) :=
  go 0 0 s
where
  go (off acc : Nat) : Str → Except Str (Nat × Nat × Str)
    | [] => .ok (off, acc, [])
    | c :: rest =>
      match hexDigit? c with
      | none => .ok (off, acc, c :: rest)
      | some d =>
        if 3 < off then
          .error (parseAddrError input (str "each group must have 4 or fewer digits") s)
        else if 65535 < acc * 16 + d then
          .error (parseAddrError input (str "IPv6 field has value >=2^16") s)
        else
          go (off + 1) (acc * 16 + d) rest

/-- The loop over the groups, of which `room` are left. The ellipsis is the number before it. -/
def parseGroups (input : Str)
    : Nat → Option Nat → List Nat → Str → Except Str (Option Nat × List Nat × Str)
  | 0, ellipsis, fields, s => .ok (ellipsis, fields, s)
  | room + 1, ellipsis, fields, s => do
    let (off, acc, rest) ← scanHex input s
    if off = 0 then
      .error <| parseAddrError input
        (str "each colon-separated field must have at least one digit") s
    else if rest.head? = some 46 then
      if ellipsis = none ∧ fields.length ≠ 6 then
        .error <| parseAddrError input
          (str "embedded IPv4 address must replace the final 2 fields of the address") s
      else if 8 < fields.length + 2 then
        .error <| parseAddrError input
          (str "too many hex fields to fit an embedded IPv4 at the end of the address") s
      else do
        let quad ← parseIPv4Fields input s
        .ok (ellipsis, fields ++ [value 256 (quad.take 2), value 256 (quad.drop 2)], [])
    else
      let fields := fields ++ [acc]
      match rest with
      | [] => .ok (ellipsis, fields, [])
      | c :: more =>
        if c ≠ 58 then
          .error (parseAddrError input (str "unexpected character, want colon") rest)
        else
          match more with
          | [] =>
            .error (parseAddrError input (str "colon must be followed by more characters") rest)
          | 58 :: more' =>
            if ellipsis.isSome then
              .error (parseAddrError input (str "multiple :: in address") more)
            else if more' = [] then
              .ok (some fields.length, fields, [])
            else
              parseGroups input room (some fields.length) fields more'
          | _ => parseGroups input room ellipsis fields more

def expandEllipsis (input : Str) : Option Nat × List Nat × Str → Except Str Nat
  | (ellipsis, fields, s) =>
    if s ≠ [] then
      .error (parseAddrError input (str "trailing garbage after address") s)
    else if fields.length < 8 then
      match ellipsis with
      | none => .error (parseAddrError input (str "address string too short") [])
      | some e =>
        .ok (value 65536
          (fields.take e ++ List.replicate (8 - fields.length) 0 ++ fields.drop e))
    else if ellipsis.isSome then
      .error <| parseAddrError input
        (str "the :: must expand to at least one field of zeros") []
    else
      .ok (value 65536 fields)

def parseIPv6Fields (input s : Str) : Except Str Nat :=
  match s with
  | [58, 58] => .ok 0
  | 58 :: 58 :: rest => parseGroups input 8 (some 0) [] rest >>= expandEllipsis input
  | _ => parseGroups input 8 none [] s >>= expandEllipsis input

def parseIPv6 (s : Str) : Except Str Addr :=
  match List.cut 37 s with
  | none => do
    let n ← parseIPv6Fields s s
    return .v6 (BitVec.ofNat 128 n) []
  | some (_, []) => .error (parseAddrError s (str "zone must be a non-empty string") [])
  | some (t, zone) => do
    let n ← parseIPv6Fields s t
    return .v6 (BitVec.ofNat 128 n) zone

def parseAddr (s : Str) : Except Str Addr :=
  match s.find? fun c => c = 46 || c = 58 || c = 37 with
  | some 46 => parseIPv4 s
  | some 58 => parseIPv6 s
  | some _ => .error (parseAddrError s (str "missing IPv6 address") [])
  | none => .error (parseAddrError s (str "unable to parse IP") [])

def cutLastSlash (s : Str) : Option (Str × Str) :=
  (List.cut 47 s.reverse).map fun (bits, addr) => (addr.reverse, bits.reverse)

def atoi (s : Str) : Option Nat :=
  if s = [] then
    none
  else
    match s.mapM digit? with
    | none => none
    | some ds => if value 10 ds < 2 ^ 63 then some (value 10 ds) else none

def parseBits (s bitsStr : Str) (ip : Addr) (maxBits : Nat) : Except Str Prefix :=
  let badBits := parsePrefixError s (str "bad bits after slash: " ++ bitsStr.quote)
  if 1 < bitsStr.length ∧ bitsStr.head?.all fun c => c < 49 ∨ 57 < c then
    .error badBits
  else
    match atoi bitsStr with
    | none => .error badBits
    | some bits =>
      if maxBits < bits then
        .error (parsePrefixError s (str "prefix length out of range"))
      else
        .ok ⟨ip, bits⟩

def parsePrefix (s : Str) : Except Str Prefix :=
  match cutLastSlash s with
  | none => .error (parsePrefixError s (str "no '/'"))
  | some (addr, bitsStr) =>
    match parseAddr addr with
    | .error err => .error (parsePrefixError s err)
    | .ok (.v4 ip) => parseBits s bitsStr (.v4 ip) 32
    | .ok (.v6 ip []) => parseBits s bitsStr (.v6 ip []) 128
    | .ok (.v6 _ _) => .error (parsePrefixError s (str "IPv6 zones cannot be present in a prefix"))

example : parsePrefix (str "10.1.0.0/16") = .ok ⟨.v4 0x0a010000, 16⟩ := by
  decide +kernel

example : parsePrefix (str "2001:db8::1.2.3.4/32")
    = .ok ⟨.v6 0x20010db8000000000000000001020304 [], 32⟩ := by
  decide +kernel

example : (parsePrefix (str "10.0.0.0/08")).toOption = none := by
  decide +kernel

end ModelGateway.Netip
