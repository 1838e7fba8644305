import IssueBridge.Json.Basic
import IssueBridge.Number.Shortest

/-!
# Writing JSON

The compact form without space, and the indented form of two spaces a level. Doubles are written
with the fewest digits that read back; those that are not finite are written as null.
-/

namespace IssueBridge.Json.Printer

/-- A hexadecimal digit below sixteen. -/
def hexDigit (n : Nat) : Char :=
  if n < 10 then Char.ofNat (48 + n) else Char.ofNat (87 + n)

/-- A character inside a string. -/
def escape (c : Char) : List Char :=
  if c = '"' then ['\\', '"']
  else if c = '\\' then ['\\', '\\']
  else if c = '\x08' then ['\\', 'b']
  else if c = '\x0c' then ['\\', 'f']
  else if c = '\n' then ['\\', 'n']
  else if c = '\r' then ['\\', 'r']
  else if c = '\t' then ['\\', 't']
  else if c.toNat < 0x20 then
    ['\\', 'u', '0', '0', hexDigit (c.toNat / 16), hexDigit (c.toNat % 16)]
  else [c]

def quoted (s : String) : List Char :=
  '"' :: (s.toList.flatMap escape ++ ['"'])

/-- A null, a truth value, a number or a string. -/
def scalar : Json → List Char
  | .bool true => "true".toList
  | .bool false => "false".toList
  | .int n => Decimal.ofInt n
  | .double x => if x.isFinite then x.text else "null".toList
  | .str s => quoted s
  | _ => "null".toList

mutual

/-- The compact form in front of `rest`. -/
def compact : Json → List Char → List Char
  | .arr items, rest => '[' :: compactItems items (']' :: rest)
  | .obj members, rest => '\x7b' :: compactMembers members ('\x7d' :: rest)
  | v, rest => scalar v ++ rest

/-- Items between commas, in front of `rest`. -/
def compactItems : List Json → List Char → List Char
  | [], rest => rest
  | [v], rest => compact v rest
  | v :: others, rest => compact v (',' :: compactItems others rest)

/-- Members between commas, in front of `rest`. -/
def compactMembers : List (String × Json) → List Char → List Char
  | [], rest => rest
  | [(key, v)], rest => quoted key ++ ':' :: compact v rest
  | (key, v) :: others, rest => quoted key ++ ':' :: compact v (',' :: compactMembers others rest)

end

/-- A line end and the indent of a level. -/
def lineEnd (level : Nat) : List Char :=
  '\n' :: List.replicate (2 * level) ' '

mutual

/-- The indented form at a level. -/
def indented (level : Nat) : Json → List Char
  | .arr [] => ['[', ']']
  | .arr items => '[' :: (indentedItems (level + 1) items ++ lineEnd level ++ [']'])
  | .obj [] => ['\x7b', '\x7d']
  | .obj members => '\x7b' :: (indentedMembers (level + 1) members ++ lineEnd level ++ ['\x7d'])
  | v => scalar v

/-- Items on lines of their own. -/
def indentedItems (level : Nat) : List Json → List Char
  | [] => []
  | [v] => lineEnd level ++ indented level v
  | v :: others => lineEnd level ++ indented level v ++ ',' :: indentedItems level others

/-- Members on lines of their own. -/
def indentedMembers (level : Nat) : List (String × Json) → List Char
  | [] => []
  | [(key, v)] => lineEnd level ++ quoted key ++ ':' :: ' ' :: indented level v
  | (key, v) :: others =>
    lineEnd level ++ quoted key ++ ':' :: ' ' :: indented level v ++
      ',' :: indentedMembers level others

end

end IssueBridge.Json.Printer

namespace IssueBridge.Json

def compress (v : Json) : String :=
  String.ofList (Printer.compact v [])

def pretty (v : Json) : String :=
  String.ofList (Printer.indented 0 v)

end IssueBridge.Json
