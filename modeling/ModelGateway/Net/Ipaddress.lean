import ModelGateway.Core.Basic
import ModelGateway.Lib.AddressText
import ModelGateway.Lib.Split

/-!
This module contains the part of Python's `ipaddress` that the control plane reads a network with.
-/

namespace ModelGateway.Ipaddress

open AddressText

def parseOctet (octetStr : Str) : Option Nat :=
  if octetStr = [] then
    none
  else
    match octetStr.mapM digit? with
    | none => none
    | some ds =>
      if 3 < octetStr.length then none
      else if octetStr ≠ [48] ∧ octetStr.head? = some 48 then none
      else if 255 < value 10 ds then none
      else some (value 10 ds)

def ipv4IntFromString (ipStr : Str) : Option Nat :=
  if ipStr = [] then
    none
  else
    let octets := ipStr.splitOn 46
    if octets.length ≠ 4 then
      none
    else
      (octets.mapM parseOctet).map (value 256)

def ipv4Address (addrStr : Str) : Option Nat :=
  if addrStr.contains 47 then none else ipv4IntFromString addrStr

def parseHextet (hextetStr : Str) : Option Nat :=
  match hextetStr.mapM hexDigit? with
  | none => none
  | some ds =>
    if 4 < hextetStr.length then none
    -- `int` of an empty text
    else if hextetStr = [] then none
    else some (value 16 ds)

def hexText (n : Nat) : Str :=
  if n = 0 then
    [48]
  else
    (Nat.digits 16 n).reverse.map fun d => Str.quoteByte.hexDigit (UInt8.ofNat d)

def embedQuad (parts : List Str) : Option (List Str) :=
  match parts.getLast? with
  | none => some parts
  | some last =>
    if last.contains 46 then
      (ipv4Address last).map fun ipv4Int =>
        parts.dropLast ++ [hexText (ipv4Int / 65536 % 65536), hexText (ipv4Int % 65536)]
    else
      some parts

def skipIndex (parts : List Str) : Option (Option Nat) :=
  (List.range' 1 (parts.length - 2)).foldlM
    (fun skip i =>
      if parts[i]? = some [] then
        if skip.isSome then none else some (some i)
      else
        some skip)
    none

def joinHextets (hi : List Str) (partsSkipped : Nat) (lo : List Str) : Option Nat := do
  let hi ← hi.mapM parseHextet
  let lo ← lo.mapM parseHextet
  return value 65536 (hi ++ List.replicate partsSkipped 0 ++ lo)

def coverEndpoint (endpoint : Option Str) (parts : Nat) : Option Nat :=
  if endpoint = some [] then
    if parts - 1 ≠ 0 then none else some (parts - 1)
  else
    some parts

def ipv6IntFromParts (parts : List Str) : Option Nat := do
  match ← skipIndex parts with
  | some skip =>
    let partsHi ← coverEndpoint parts.head? skip
    let partsLo ← coverEndpoint parts.getLast? (parts.length - skip - 1)
    let partsSkipped := 8 - (partsHi + partsLo)
    if partsSkipped < 1 then
      none
    else
      joinHextets (parts.take partsHi) partsSkipped (parts.drop (parts.length - partsLo))
  | none =>
    if parts.length ≠ 8 then none
    else if parts.head? = some [] then none
    else if parts.getLast? = some [] then none
    else joinHextets parts 0 []

def ipv6IntFromString (ipStr : Str) : Option Nat :=
  if ipStr = [] then
    none
  else
    let parts := ipStr.splitOn 58
    if parts.length < 3 then
      none
    else do
      let parts ← embedQuad parts
      if 9 < parts.length then none else ipv6IntFromParts parts

def ipv6Address (addrStr : Str) : Option Nat :=
  if addrStr.contains 47 then
    none
  else
    match List.cut 37 addrStr with
    | none => ipv6IntFromString addrStr
    | some (addr, scope) =>
      if scope = [] ∨ scope.contains 37 then none else ipv6IntFromString addr

def maxStrDigits : Nat := 4300

def prefixFromPrefixString (maxPrefixlen : Nat) (prefixlenStr : Str) : Option Nat :=
  if prefixlenStr = [] then
    none
  else
    match prefixlenStr.mapM digit? with
    | none => none
    | some ds =>
      if maxStrDigits < prefixlenStr.length then none
      else if value 10 ds ≤ maxPrefixlen then some (value 10 ds)
      else none

def countRighthandZeroBits : Nat → Nat → Nat
  | _, 0 => 0
  | number, bits + 1 =>
    if number % 2 = 1 then 0 else 1 + countRighthandZeroBits (number / 2) bits

def prefixFromIpInt (ipInt : Nat) : Option Nat :=
  let trailingZeroes := countRighthandZeroBits ipInt 32
  let prefixlen := 32 - trailingZeroes
  if ipInt >>> trailingZeroes ≠ 2 ^ prefixlen - 1 then none else some prefixlen

def prefixFromIpString (ipStr : Str) : Option Nat := do
  let ipInt ← ipv4IntFromString ipStr
  prefixFromIpInt ipInt <|> prefixFromIpInt (ipInt ^^^ (2 ^ 32 - 1))

inductive Network where
  | v4 (networkAddress : BitVec 32) (prefixlen : Nat)
  | v6 (networkAddress : BitVec 128) (prefixlen : Nat)
  deriving DecidableEq, Repr

def netmask (w prefixlen : Nat) : BitVec w :=
  BitVec.allOnes w ^^^ (BitVec.allOnes w >>> prefixlen)

def mkV4 (address prefixlen : Nat) : Network :=
  .v4 (BitVec.ofNat 32 address &&& netmask 32 prefixlen) prefixlen

def mkV6 (address prefixlen : Nat) : Network :=
  .v6 (BitVec.ofNat 128 address &&& netmask 128 prefixlen) prefixlen

def ipv4Network (address : Str) : Option Network :=
  match address.splitOn 47 with
  | [addr] => (ipv4Address addr).map (mkV4 · 32)
  | [addr, mask] => do
    let address ← ipv4Address addr
    let prefixlen ← prefixFromPrefixString 32 mask <|> prefixFromIpString mask
    return mkV4 address prefixlen
  | _ => none

def ipv6Network (address : Str) : Option Network :=
  match address.splitOn 47 with
  | [addr] => (ipv6Address addr).map (mkV6 · 128)
  | [addr, mask] => do
    let address ← ipv6Address addr
    let prefixlen ← prefixFromPrefixString 128 mask
    return mkV6 address prefixlen
  | _ => none

def ipNetwork (address : Str) : Option Network :=
  ipv4Network address <|> ipv6Network address

def Network.contains (net : Network) (ip : Addr) : Bool :=
  match net, ip with
  | .v4 networkAddress prefixlen, .v4 a => a &&& netmask 32 prefixlen == networkAddress
  | .v6 networkAddress prefixlen, .v6 a _ => a &&& netmask 128 prefixlen == networkAddress
  | _, _ => false

example : ipNetwork (str "10.1.2.3/255.255.0.0") = some (.v4 0x0a010000 16) := by
  decide +kernel

example : ipNetwork (str "::ffff:1.2.3.4/0120") = some (.v6 0x00000000000000000000ffff01020300 120) := by
  decide +kernel

example : ipNetwork (str "1::2::3") = none := by
  decide +kernel

end ModelGateway.Ipaddress
