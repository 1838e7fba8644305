import IssueBridge.Json.Basic
import IssueBridge.Number.Numeral
import IssueBridge.Text.Blank

/-!
# Values of custom fields

A numeric field may arrive as an integer, as a double or as a text. Everything that is not a text,
a number or a list of texts reads as missing.
-/

namespace IssueBridge.Jira

inductive CustomValue where
  | missing
  | text (value : String)
  | num (value : Binary64)
  | list (items : List String)
  deriving DecidableEq, Inhabited

namespace CustomValue

def ofJson : Json → CustomValue
  | .str s => .text s
  | .int n => .num (.ofInt n)
  | .double x => .num x
  | .arr items =>
    match items.mapM Json.str? with
    | some texts => .list texts
    | none => .missing
  | _ => .missing

/-- The JSON of a number: an integer if it is whole and of magnitude below `2 ^ 63`, a double
elsewhere, and null if it is not finite. -/
def numToJson (x : Binary64) : Json :=
  match x.toInt? with
  | some n => if n.natAbs < Nat.pow 2 63 then .int n else .double x
  | none => if x.isFinite then .double x else .null

/-- The JSON in which the value is sent. -/
def toJson : CustomValue → Json
  | .missing => .null
  | .text s => .str s
  | .num x => numToJson x
  | .list items => .arr (items.map .str)

/-- Nothing usable is there. -/
def isMissing : CustomValue → Bool
  | .missing => true
  | _ => false

def text? : CustomValue → Option String
  | .text s => some s
  | _ => none

def list? : CustomValue → Option (List String)
  | .list items => some items
  | _ => none

/-- A finite whole double that fits in 64 bits with a sign. -/
def wholeOf? (x : Binary64) : Option Int64 :=
  match x.toInt? with
  | some n =>
    if Int64.minValue.toInt ≤ n ∧ n ≤ Int64.maxValue.toInt then some (Int64.ofInt n) else none
  | none => none

/-- The integer that a number or a numeric text stands for. A text that is no 64-bit integer is
read as a double first. -/
def int64? : CustomValue → Option Int64
  | .num x => wholeOf? x
  | .text s =>
    let body := Text.trim s.toList
    match Decimal.toInt64? body with
    | some n => some n
    | none => (Numeral.toBinary64? body).bind wholeOf?
  | _ => none

/-- The value of a numeric field that holds an integer. -/
def ofInt64 (n : Int64) : CustomValue :=
  .num (.ofInt n.toInt)

end CustomValue

end IssueBridge.Jira
