import IssueBridge.Json.Basic

/-!
# Records in JSON

A record with named fields may be written as an object or as an array of its fields in order.
Unknown members of an object are ignored; a known one must not be repeated.
-/

namespace IssueBridge.Json

/-- The written form of a record. -/
inductive Record where
  | named (members : List (String × Json))
  | positional (items : List Json)

/-- The record in an object, or in an array of at most `arity` items. -/
def record? (arity : Nat) : Json → Option Record
  | .obj members => some (.named members)
  | .arr items => if items.length ≤ arity then some (.positional items) else none
  | _ => none

namespace Record

variable {α : Type}

/-- What is written for a field, if anything; `none` when it is written twice. -/
def field? (r : Record) (name : String) (index : Nat) : Option (Option Json) :=
  match r with
  | .named members =>
    match members.filter fun member => member.1 == name with
    | [] => some none
    | [(_, v)] => some (some v)
    | _ => none
  | .positional items => some items[index]?

/-- A field that must be written. -/
def required (r : Record) (name : String) (index : Nat) (decode : Json → Option α) : Option α := do
  decode (← ← r.field? name index)

/-- A field that may be null, and in an object may be left out. -/
def optional (r : Record) (name : String) (index : Nat) (decode : Json → Option α) :
    Option (Option α) := do
  match ← r.field? name index with
  | some .null => some none
  | some v => some (some (← decode v))
  | none =>
    match r with
    | .named _ => some none
    | .positional _ => none

/-- A field that has a value of its own when it is left out. -/
def defaulted (r : Record) (name : String) (index : Nat) (default : α)
    (decode : Json → Option α) : Option α := do
  match ← r.field? name index with
  | some v => decode v
  | none => some default

/-- A field that may be null or left out in either form. -/
def omittable (r : Record) (name : String) (index : Nat) (decode : Json → Option α) :
    Option (Option α) := do
  match ← r.field? name index with
  | some .null => some none
  | some v => some (some (← decode v))
  | none => some none

end Record

end IssueBridge.Json
