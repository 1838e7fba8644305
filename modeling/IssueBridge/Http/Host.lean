import IssueBridge.Json.Printer
import IssueBridge.Text.Cut
import IssueBridge.Text.Percent
import IssueBridge.Text.Punycode

/-!
# Hosts

The host of an address in its normal form: a domain in lower-case ASCII, an IPv4 address as four
numbers, or an IPv6 address in brackets.
-/

namespace IssueBridge.Http.Host

/-! ## Domains -/

/-- Characters that are left out of a domain. -/
def isIgnored (n : Nat) : Bool :=
  n == 0xAD || n == 0x34F || n == 0x200B || n == 0x2060 || n == 0x2064 || n == 0xFEFF ||
    (0x180B ≤ n && n ≤ 0x180F) || (0xFE00 ≤ n && n ≤ 0xFE0F)

/-- Characters that make a domain invalid. -/
def isRefused (n : Nat) : Bool :=
  (0x80 ≤ n && n ≤ 0xA0) || n == 0x1680 || (0x2000 ≤ n && n ≤ 0x200F) ||
    (0x2028 ≤ n && n ≤ 0x202F) || (0x205F ≤ n && n ≤ 0x206F) || n == 0x3000 ||
    (0xE000 ≤ n && n ≤ 0xF8FF) || (0xFDD0 ≤ n && n ≤ 0xFDEF) || (0xFFF0 ≤ n && n ≤ 0xFFFF) ||
    0xE0000 ≤ n || n % 0x10000 ≥ 0xFFFE

/-- The dots that separate labels. -/
def isDot (n : Nat) : Bool :=
  n == 0x2E || n == 0x3002 || n == 0xFF0E || n == 0xFF61

/-- The lower-case form of a letter of the Latin, Greek and Cyrillic alphabets. -/
def lower (n : Nat) : Nat :=
  if 0x41 ≤ n ∧ n ≤ 0x5A then n + 32
  else if (0xC0 ≤ n ∧ n ≤ 0xDE) ∧ n ≠ 0xD7 then n + 32
  else if (0x100 ≤ n ∧ n ≤ 0x137) ∨ (0x14A ≤ n ∧ n ≤ 0x177) then n + (n + 1) % 2
  else if 0x139 ≤ n ∧ n ≤ 0x148 then n + n % 2
  else if 0x391 ≤ n ∧ n ≤ 0x3A9 then n + 32
  else if 0x400 ≤ n ∧ n ≤ 0x40F then n + 80
  else if 0x410 ≤ n ∧ n ≤ 0x42F then n + 32
  else n

/-- What a character becomes in a domain; wide forms become the plain ones. -/
def mapChar? (c : Char) : Option (List Char) :=
  let n := c.toNat
  if isIgnored n then some []
  else if isDot n then some ['.']
  else if 0xFF01 ≤ n ∧ n ≤ 0xFF5E then some [Char.ofNat (lower (n - 0xFEE0))]
  else if isRefused n then none
  else some [Char.ofNat (lower n)]

/-- Characters that no domain may have. -/
def isForbidden (c : Char) : Bool :=
  c.toNat ≤ 0x20 || c.toNat == 0x7F || "%#/:<>?@[\\]^|".toList.contains c

def isAscii (c : Char) : Bool :=
  c.toNat < 128

/-- The mark of a label in ASCII form. -/
def mark : List Char := "xn--".toList

/-- A label that stays as it is and is not all ASCII. -/
def needsMark (label : List Char) : Bool :=
  !label.all isAscii && label.all fun c => mapChar? c == some [c]

/-- A label in ASCII form. A label with the mark must stand for one that needs it. -/
def label? (label : List Char) : Option (List Char) :=
  if label.all isAscii then
    match mark.isPrefixOf? label with
    | none => some label
    | some coded =>
      match Punycode.decode? coded with
      | some plain => if needsMark plain then some label else none
      | none => none
  else some (mark ++ Punycode.encode label)

/-- A domain in ASCII form. -/
def domain? (s : List Char) : Option (List Char) := do
  let mapped ← s.mapM mapChar?
  let labels ← (Text.pieces '.' mapped.flatten).mapM label?
  let domain := ['.'].intercalate labels
  if domain = [] ∨ domain.any isForbidden then none else some domain

/-! ## IPv4 addresses -/

/-- The digits of a number and their base: hexadecimal after `0x`, octal after a zero. -/
def based : List Char → Nat × List Char
  | '0' :: 'x' :: rest => (16, rest)
  | '0' :: 'X' :: rest => (16, rest)
  | '0' :: c :: rest => (8, c :: rest)
  | s => (10, s)

/-- A number of an IPv4 address. -/
def number? (s : List Char) : Option Nat :=
  let (base, digits) := based s
  if s = [] then none
  else do
    let values ← digits.mapM Percent.digit?
    if values.all (· < base) then some (values.foldl (fun n d => base * n + d) 0) else none

/-- The labels of a domain without an empty one at its end. -/
def labels (domain : List Char) : List (List Char) :=
  let all := Text.pieces '.' domain
  if all.getLast? = some [] ∧ 1 < all.length then all.dropLast else all

/-- The last label is a number, so that the domain can only be an IPv4 address. -/
def endsInNumber (domain : List Char) : Bool :=
  match (labels domain).getLast? with
  | some last => (last ≠ [] ∧ last.all Char.isDigit) || (number? last).isSome
  | none => false

/-- The value of an IPv4 address of one to four numbers; the last one fills what is left. -/
def ipv4? (domain : List Char) : Option Nat := do
  let numbers ← (labels domain).mapM number?
  let last ← numbers.getLast?
  let front := numbers.dropLast
  if 4 < numbers.length ∨ front.any (255 < ·) ∨ Nat.pow 256 (4 - front.length) ≤ last then none
  else
    some (front.foldl (fun n d => 256 * n + d) 0 * Nat.pow 256 (4 - front.length) + last)

def ipv4Text (n : Nat) : List Char :=
  ['.'].intercalate ([n / 16777216, n / 65536 % 256, n / 256 % 256, n % 256].map Decimal.ofNat)

/-! ## IPv6 addresses -/

/-- A piece of up to four hexadecimal digits. -/
def piece? (s : List Char) : Option Nat := do
  let values ← s.mapM Percent.digit?
  if s = [] ∨ 4 < s.length then none else some (values.foldl (fun n d => 16 * n + d) 0)

/-- A number of an IPv4 address inside an IPv6 address. -/
def plainNumber? (s : List Char) : Option Nat := do
  let n ← Decimal.toNat? s
  if 255 < n ∨ (s.head? = some '0' ∧ 1 < s.length) then none else some n

/-- The last pieces, which may be written as an IPv4 address. -/
def lastPieces? (s : List Char) : Option (List Nat) :=
  if s.contains '.' then do
    match ← (Text.pieces '.' s).mapM plainNumber? with
    | [a, b, c, d] => some [256 * a + b, 256 * c + d]
    | _ => none
  else (piece? s).map fun n => [n]

/-- Pieces between colons. -/
def pieces? (s : List Char) : Option (List Nat) :=
  if s = [] then some []
  else do
    let parts := Text.pieces ':' s
    let front ← parts.dropLast.mapM piece?
    let back ← lastPieces? (parts.getLast?.getD [])
    some (front ++ back)

/-- The eight pieces of an IPv6 address; two colons stand for one or more zeros. -/
def ipv6? (s : List Char) : Option (List Nat) := do
  match Text.splitFirst? [':', ':'] s with
  | some (before, after) =>
    let front ← if before.contains '.' then none else pieces? before
    let back ← pieces? after
    let known := front.length + back.length
    if known ≤ 7 then some (front ++ List.replicate (8 - known) 0 ++ back) else none
  | none =>
    let all ← pieces? s
    if all.length = 8 then some all else none

/-- The longest run of zeros from a piece on: where it starts and its length. -/
def zeroRun (at' : Nat) : List Nat → Nat × Nat
  | [] => (at', 0)
  | n :: rest =>
    let here := ((n :: rest).takeWhile (· = 0)).length
    let later := zeroRun (at' + 1) rest
    if later.2 ≤ here then (at', here) else later

/-- Pieces as hexadecimal numbers between colons. -/
def piecesText (pieces : List Nat) : List Char :=
  [':'].intercalate (pieces.map fun n => Nat.toDigits 16 n)

/-- An IPv6 address in brackets, its first longest run of zeros left out. -/
def ipv6Text (pieces : List Nat) : List Char :=
  let (start, count) := zeroRun 0 pieces
  let body :=
    if 2 ≤ count then
      piecesText (pieces.take start) ++ [':', ':'] ++ piecesText (pieces.drop (start + count))
    else piecesText pieces
  '[' :: body ++ [']']

end Host

/-- The normal form of a host. -/
def host? (s : List Char) : Option (List Char) :=
  match s with
  | '[' :: rest =>
    if rest.getLast? = some ']' then (Host.ipv6? rest.dropLast).map Host.ipv6Text else none
  | _ => do
    let domain ← Host.domain? (← Percent.decode? s)
    if Host.endsInNumber domain then (Host.ipv4? domain).map Host.ipv4Text else some domain

end IssueBridge.Http
