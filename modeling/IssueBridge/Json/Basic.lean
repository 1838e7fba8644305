import IssueBridge.Dictionary
import IssueBridge.Number.Binary64

/-!
# JSON values

Numbers that are written as integers and fit in 64 bits are integers; all others are doubles. An
object keeps its members as they are written, repeated keys included.
-/

namespace IssueBridge

inductive Json where
  | null
  | bool (value : Bool)
  | int (value : Int)
  | double (value : Binary64)
  | str (value : String)
  | arr (items : List Json)
  | obj (members : List (String × Json))
  deriving Inhabited

namespace Json

mutual

/-- The value with the members of every object sorted by key, the last one of each key. -/
def canonical : Json → Json
  | .arr items => .arr (canonicalItems items)
  | .obj members => .obj (Dictionary.ofList (canonicalMembers members))
  | v => v

def canonicalItems : List Json → List Json
  | [] => []
  | v :: rest => canonical v :: canonicalItems rest

def canonicalMembers : List (String × Json) → List (String × Json)
  | [] => []
  | (key, v) :: rest => (key, canonical v) :: canonicalMembers rest

end

/-- The last member of an object under a key. -/
def get? (v : Json) (key : String) : Option Json :=
  match v with
  | .obj members => List.lookup key members.reverse
  | _ => none

def str? : Json → Option String
  | .str s => some s
  | _ => none

def items? : Json → Option (List Json)
  | .arr items => some items
  | _ => none

def bool? : Json → Option Bool
  | .bool b => some b
  | _ => none

/-- An integer that fits in 64 bits with a sign. -/
def int64? : Json → Option Int64
  | .int n =>
    if Int64.minValue.toInt ≤ n ∧ n ≤ Int64.maxValue.toInt then some (Int64.ofInt n) else none
  | _ => none

/-- An integer that fits in 64 bits without a sign. -/
def uint64? : Json → Option UInt64
  | .int n => if 0 ≤ n ∧ n < UInt64.size then some (UInt64.ofNat n.toNat) else none
  | _ => none

/-- The texts of an array that holds strings only. -/
def strings? (v : Json) : Option (List String) :=
  v.items?.bind fun items => items.mapM str?

end Json

end IssueBridge
