import IssueBridge.Json.Basic

/-!
# Tables of TOML

Tables are built up by headers and by keys with values. No name is given twice: a table has at
most one header, and keys in several parts add only to tables that such keys began.
-/

namespace IssueBridge.Toml

/-- How a table came to be. -/
inductive Origin where
  /-- On the way of a header to another table. -/
  | passed
  /-- By a key in several parts. -/
  | dotted
  /-- By a header of its own. -/
  | header
  deriving DecidableEq, Inhabited

/-- What a name stands for. -/
inductive Node where
  | value (v : Json)
  | table (origin : Origin) (members : List (String × Node))
  /-- Tables under one name, the latest first. -/
  | tables (newest : List (String × Node)) (older : List (List (String × Node)))
  deriving Inhabited

/-- What a table holds, in the order of its names' first occurrence. -/
abbrev Members := List (String × Node)

/-- Puts a node under a name. -/
def Members.put (ms : Members) (name : String) (node : Node) : Members :=
  match ms with
  | [] => [(name, node)]
  | (k, n) :: rest => if k = name then (k, node) :: rest else (k, n) :: Members.put rest name node

mutual

def Node.toJson : Node → Json
  | .value v => v
  | .table _ ms => .obj (membersToJson ms)
  | .tables newest older => .arr (olderToJson older ++ [.obj (membersToJson newest)])

def membersToJson : List (String × Node) → List (String × Json)
  | [] => []
  | (name, node) :: rest => (name, node.toJson) :: membersToJson rest

/-- Tables that are listed latest first, in their order. -/
def olderToJson : List (List (String × Node)) → List Json
  | [] => []
  | ms :: rest => olderToJson rest ++ [.obj (membersToJson ms)]

end

namespace Members

/-- Changes the table that the path of a header leads to. Tables on the way come to be if they are
not there; under a name of several tables it is the latest one. -/
def within (path : List String) (change : Members → Option Members) (ms : Members) :
    Option Members :=
  match path with
  | [] => change ms
  | name :: rest =>
    match ms.lookup name with
    | none => (within rest change []).map fun inner => ms.put name (.table .passed inner)
    | some (.table origin inner) =>
      (within rest change inner).map fun inner => ms.put name (.table origin inner)
    | some (.tables newest older) =>
      (within rest change newest).map fun newest => ms.put name (.tables newest older)
    | some (.value _) => none

def openTable (name : String) (ms : Members) : Option Members :=
  match ms.lookup name with
  | none => some (ms.put name (.table .header []))
  | some (.table .passed inner) => some (ms.put name (.table .header inner))
  | some _ => none

def addTable (name : String) (ms : Members) : Option Members :=
  match ms.lookup name with
  | none => some (ms.put name (.tables [] []))
  | some (.tables newest older) => some (ms.put name (.tables [] (newest :: older)))
  | some _ => none

/-- Puts a value under a key of one or more parts. The table of the last part must have come to be
by keys of several parts. -/
def assign (value : Json) (inside : Bool) : List String → Members → Option Members
  | [], _ => none
  | [name], ms =>
    if inside ∧ (ms.lookup name).isNone then some (ms.put name (.value value)) else none
  | name :: rest, ms =>
    match ms.lookup name with
    | none => (assign value true rest []).map fun inner => ms.put name (.table .dotted inner)
    | some (.table .header _) => none
    | some (.table origin inner) =>
      (assign value (origin == .dotted) rest inner).map fun inner =>
        ms.put name (.table origin inner)
    | some (.tables newest older) =>
      (assign value false rest newest).map fun newest => ms.put name (.tables newest older)
    | some (.value _) => none

end Members

end IssueBridge.Toml
