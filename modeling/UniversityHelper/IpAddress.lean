import UniversityHelper.PythonText

/-! The addresses of Python's `ipaddress`: `ip_address` of a text, and the kinds of addresses. -/
namespace UniversityHelper

def hexValue (c : Char) : Option ℕ :=
  if '0' ≤ c ∧ c ≤ '9' then some (c.toNat - '0'.toNat)
  else if 'a' ≤ c ∧ c ≤ 'f' then some (c.toNat - 'a'.toNat + 10)
  else if 'A' ≤ c ∧ c ≤ 'F' then some (c.toNat - 'A'.toNat + 10)
  else none

/-- `int(text, base)` on digits of the base; `none` without a digit or with anything else. -/
def parseDigits (base : ℕ) (text : String) : Option ℕ :=
  if text = "" then none
  else text.toList.foldlM (fun n c => ((hexValue c).filter (· < base)).map (n * base + ·)) 0

/-- `_parse_octet`. -/
def parseOctet (text : String) : Option ℕ :=
  if 3 < text.length ∨ (text ≠ "0" ∧ text.toList.head? = some '0') then none
  else (parseDigits 10 text).filter (· ≤ 255)

def parseIPv4 (text : String) : Option ℕ :=
  let octets := splitText text '.'
  if octets.length ≠ 4 then none
  else octets.foldlM (fun ip octet => (parseOctet octet).map (ip * 256 + ·)) 0

/-- `_parse_hextet`. -/
def parseHextet (text : String) : Option ℕ :=
  if 4 < text.length then none else parseDigits 16 text

def hexText (n : ℕ) : String := String.ofList (Nat.toDigits 16 n)

/-- A last part in dotted form is replaced by two hextets. -/
def expandIPv4 (parts : List String) : Option (List String) :=
  match parts.getLast? with
  | none => none
  | some last =>
    if contains last "." = false then some parts
    else (parseIPv4 last).map fun ip =>
      parts.dropLast ++ [hexText (ip / 65536), hexText (ip % 65536)]

def joinHextets (parts : List String) : Option ℕ :=
  parts.foldlM (fun ip part => (parseHextet part).map (ip * 65536 + ·)) 0

/-- The parts on one side of `::`, where an empty part at the end must stand alone. -/
def endParts (outer : Option String) (parts : List String) : Option (List String) :=
  if outer = some "" then (if parts.length = 1 then some [] else none) else some parts

/-- `IPv6Address._ip_int_from_string`. -/
def parseHextets (text : String) : Option ℕ :=
  let parts := splitText text ':'
  if parts.length < 3 then none
  else
    (expandIPv4 parts).bind fun parts =>
      if 9 < parts.length then none
      else
        match (List.range parts.length).filter fun i =>
            0 < i ∧ i + 1 < parts.length ∧ parts[i]? = some "" with
        | [] => if parts.length ≠ 8 then none else joinHextets parts
        | [skip] =>
          (endParts parts.head? (parts.take skip)).bind fun high =>
            (endParts parts.getLast? (parts.drop (skip + 1))).bind fun low =>
              if 8 ≤ high.length + low.length then none
              else joinHextets (high ++ List.replicate (8 - (high.length + low.length)) "0" ++ low)
        | _ => none

/-- An address of version 6 may have a scope after `%`. -/
def parseIPv6 (text : String) : Option ℕ :=
  if contains text "/" = true then none
  else
    match splitText text '%' with
    | [address] => parseHextets address
    | [address, scope] => if scope = "" then none else parseHextets address
    | _ => none

inductive IpAddress
  | v4 (ip : ℕ)
  | v6 (ip : ℕ)
  deriving DecidableEq, Repr

/-- `ip_address`; `none` stands for its `ValueError`. -/
def ipAddress (text : String) : Option IpAddress :=
  ((parseIPv4 text).map .v4).or ((parseIPv6 text).map .v6)

/-- A network: its first address and the length of its prefix. -/
abbrev Network := ℕ × ℕ

def inNetwork (bits ip : ℕ) (network : Network) : Bool :=
  ip / 2 ^ (bits - network.2) = network.1 / 2 ^ (bits - network.2)

def dotted (a b c d : ℕ) : ℕ := ((a * 256 + b) * 256 + c) * 256 + d

/-- An address from its first four hextets, with the others zero. -/
def hextets (a b c d : ℕ) : ℕ := (((a * 65536 + b) * 65536 + c) * 65536 + d) * 2 ^ 64

def privateNetworksV4 : List Network :=
  [(dotted 0 0 0 0, 8), (dotted 10 0 0 0, 8), (dotted 127 0 0 0, 8), (dotted 169 254 0 0, 16),
    (dotted 172 16 0 0, 12), (dotted 192 0 0 0, 24), (dotted 192 0 0 170, 31),
    (dotted 192 0 2 0, 24), (dotted 192 168 0 0, 16), (dotted 198 18 0 0, 15),
    (dotted 198 51 100 0, 24), (dotted 203 0 113 0, 24), (dotted 240 0 0 0, 4),
    (dotted 255 255 255 255, 32)]

def publicExceptionsV4 : List Network := [(dotted 192 0 0 9, 32), (dotted 192 0 0 10, 32)]

def privateNetworksV6 : List Network :=
  [(1, 128), (0, 128), (0xFFFF * 2 ^ 32, 96), (hextets 0x64 0xFF9B 1 0, 48),
    (hextets 0x100 0 0 0, 64), (hextets 0x2001 0 0 0, 23), (hextets 0x2001 0xDB8 0 0, 32),
    (hextets 0x2002 0 0 0, 16), (hextets 0xFC00 0 0 0, 7), (hextets 0xFE80 0 0 0, 10)]

def publicExceptionsV6 : List Network :=
  [(hextets 0x2001 1 0 0 + 1, 128), (hextets 0x2001 1 0 0 + 2, 128), (hextets 0x2001 3 0 0, 32),
    (hextets 0x2001 4 0x112 0, 48), (hextets 0x2001 0x20 0 0, 28), (hextets 0x2001 0x30 0 0, 28)]

def isPrivateV4 (ip : ℕ) : Bool :=
  privateNetworksV4.any (inNetwork 32 ip) && !publicExceptionsV4.any (inNetwork 32 ip)

namespace IpAddress

def isPrivate : IpAddress → Bool
  | v4 ip => isPrivateV4 ip
  | v6 ip =>
    -- an address that is mapped from version 4 is as private as the one it is mapped from
    if ip / 2 ^ 32 = 0xFFFF then isPrivateV4 (ip % 2 ^ 32)
    else privateNetworksV6.any (inNetwork 128 ip) && !publicExceptionsV6.any (inNetwork 128 ip)

def isLoopback : IpAddress → Bool
  | v4 ip => inNetwork 32 ip (dotted 127 0 0 0, 8)
  | v6 ip => ip = 1

def isLinkLocal : IpAddress → Bool
  | v4 ip => inNetwork 32 ip (dotted 169 254 0 0, 16)
  | v6 ip => inNetwork 128 ip (hextets 0xFE80 0 0 0, 10)

end IpAddress

example : ipAddress "192.168.0.1" = some (.v4 (dotted 192 168 0 1)) := by decide
example : ipAddress "2001:db8::1" = some (.v6 (hextets 0x2001 0xDB8 0 0 + 1)) := by decide

end UniversityHelper
