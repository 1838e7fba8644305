/-!
# Percent encoding

Characters that may not stand as they are become the bytes of their UTF-8 form, each written as a
percent sign and two hexadecimal digits.
-/

namespace IssueBridge.Percent

/-- An upper-case hexadecimal digit below sixteen. -/
def hexDigit (n : Nat) : Char :=
  if n < 10 then Char.ofNat (48 + n) else Char.ofNat (55 + n)

/-- A percent sign and the two digits of a byte. -/
def byte (b : UInt8) : List Char :=
  ['%', hexDigit (b.toNat / 16), hexDigit (b.toNat % 16)]

/-- The bytes of a character, each as `byte`. -/
def escape (c : Char) : List Char :=
  (String.utf8EncodeChar c).flatMap byte

/-- The text with all characters escaped that `keep` does not hold of. -/
def encodeExcept (keep : Char → Bool) (s : List Char) : List Char :=
  s.flatMap fun c => if keep c then [c] else escape c

/-- The characters that need no escape anywhere in an address. -/
def isUnreserved (c : Char) : Bool :=
  c.isAlphanum || c == '-' || c == '.' || c == '_' || c == '~'

/-- A text as a part of an address. -/
def encode (s : String) : String :=
  String.ofList (encodeExcept isUnreserved s.toList)

/-- A text as a name or a value of a form: a space is a plus. -/
def encodeForm (s : String) : List Char :=
  s.toList.flatMap fun c =>
    if c = ' ' then ['+']
    else if c.isAlphanum || c == '*' || c == '-' || c == '.' || c == '_' then [c]
    else escape c

/-- Names and values of a form. -/
def form (entries : List (String × String)) : List Char :=
  ['&'].intercalate (entries.map fun (name, value) => encodeForm name ++ '=' :: encodeForm value)

/-- The value of a hexadecimal digit. -/
def digit? (c : Char) : Option Nat :=
  if '0' ≤ c ∧ c ≤ '9' then some (c.toNat - 48)
  else if 'a' ≤ c ∧ c ≤ 'f' then some (c.toNat - 87)
  else if 'A' ≤ c ∧ c ≤ 'F' then some (c.toNat - 55)
  else none

/-- The bytes of a text with its escapes resolved; a percent sign without two digits stands for
itself. -/
def bytes : List Char → List UInt8
  | '%' :: a :: b :: rest =>
    match digit? a, digit? b with
    | some h, some l => UInt8.ofNat (16 * h + l) :: bytes rest
    | _, _ => String.utf8EncodeChar '%' ++ bytes (a :: b :: rest)
  | c :: rest => String.utf8EncodeChar c ++ bytes rest
  | [] => []

/-- The text with its escapes resolved, if their bytes are UTF-8. -/
def decode? (s : List Char) : Option (List Char) :=
  (String.fromUTF8? (ByteArray.mk (bytes s).toArray)).map String.toList

end IssueBridge.Percent
