import IssueBridge.Toml.Scalar
import IssueBridge.Toml.Table

/-!
# Reading TOML

A document is a list of lines: headers, keys with values, comments and empty lines. Its value is
an object.
-/

namespace IssueBridge.Toml

/-- The text after a comment, if there is one; none if it holds a control character. -/
def skipComment (s : List Char) : Option (List Char) :=
  match s with
  | '#' :: rest =>
    let rest := rest.dropWhile isPlain
    if rest = [] ∨ (lineEnd? rest).isSome then some rest else none
  | _ => some s

/-- The text after spaces, line ends and comments. -/
def skipLines : Nat → List Char → Option (List Char)
  | 0, _ => none
  | fuel + 1, s =>
    match skipBlank s with
    | '#' :: rest => (skipComment ('#' :: rest)).bind (skipLines fuel)
    | rest => some rest

/-- A character of a bare key. -/
def isBare (c : Char) : Bool :=
  c.isAlphanum || c == '_' || c == '-'

def keyPart (s : List Char) : Option (String × List Char) :=
  match s with
  | '"' :: rest => basic s.length [] rest
  | '\'' :: rest => literal [] rest
  | _ =>
    let name := s.takeWhile isBare
    if name = [] then none else some (String.ofList name, s.dropWhile isBare)

/-- The parts of a key, between points, and the text after the space that follows. -/
def key : Nat → List Char → Option (List String × List Char)
  | 0, _ => none
  | fuel + 1, s => do
    let (part, rest) ← keyPart (skipSpace s)
    match skipSpace rest with
    | '.' :: rest =>
      let (parts, rest) ← key fuel rest
      some (part :: parts, rest)
    | rest => some ([part], rest)

/-- How deep arrays and inline tables may nest. -/
def depthLimit : Nat :=
  79

mutual

/-- A value that stands inside `depth` arrays and inline tables. -/
def value : Nat → Nat → List Char → Option (Json × List Char)
  | 0, _, _ => none
  | fuel + 1, depth, s =>
    match s with
    | '[' :: rest =>
      if depth < depthLimit then
        (items fuel (depth + 1) [] rest).map fun (vs, rest) => (.arr vs, rest)
      else none
    | '\x7b' :: rest =>
      if depth < depthLimit then
        match skipSpace rest with
        | '\x7d' :: rest => some (.obj [], rest)
        | _ =>
          (entries fuel (depth + 1) [] rest).map fun (ms, rest) => (.obj (membersToJson ms), rest)
      else none
    | _ => scalar s

/-- The items of an array up to its end, after those in `done` in reverse. A comma may follow the
last one. -/
def items : Nat → Nat → List Json → List Char → Option (List Json × List Char)
  | 0, _, _, _ => none
  | fuel + 1, depth, done, s => do
    match ← skipLines (s.length + 1) s with
    | ']' :: rest => some (done.reverse, rest)
    | s =>
      let (v, rest) ← value fuel depth s
      match ← skipLines (rest.length + 1) rest with
      | ',' :: rest => items fuel depth (v :: done) rest
      | ']' :: rest => some ((v :: done).reverse, rest)
      | _ => none

/-- The entries of an inline table up to its end, on one line, added to those before. -/
def entries : Nat → Nat → Members → List Char → Option (Members × List Char)
  | 0, _, _, _ => none
  | fuel + 1, depth, done, s => do
    let (path, rest) ← key s.length s
    let rest ← after? '=' rest
    let (v, rest) ← value fuel depth (skipSpace rest)
    let done ← done.assign v true path
    match skipSpace rest with
    | ',' :: rest => entries fuel depth done rest
    | '\x7d' :: rest => some (done, rest)
    | _ => none

end

/-- What a line adds to a document. -/
inductive Line where
  | header (path : List String)
  | arrayHeader (path : List String)
  | entry (path : List String) (v : Json)

/-- The text after the end of a line: space, a comment, and a line end or the end of the text. -/
def endLine? (s : List Char) : Option (List Char) := do
  match ← skipComment (skipSpace s) with
  | [] => some []
  | rest => lineEnd? rest

/-- A header or a key with its value, from the first character of a line on. -/
def line (s : List Char) : Option (Line × List Char) :=
  match s with
  | '[' :: '[' :: rest => do
    let (path, rest) ← key s.length rest
    let rest ← (after? ']' rest).bind (after? ']')
    some (.arrayHeader path, ← endLine? rest)
  | '[' :: rest => do
    let (path, rest) ← key s.length rest
    some (.header path, ← endLine? (← after? ']' rest))
  | _ => do
    let (path, rest) ← key s.length s
    let rest ← after? '=' rest
    let (v, rest) ← value (2 * s.length + 2) 0 (skipSpace rest)
    some (.entry path v, ← endLine? rest)

def lines : Nat → List Char → Option (List Line)
  | 0, _ => none
  | fuel + 1, s => do
    match ← skipLines (s.length + 1) s with
    | [] => some []
    | s =>
      let (l, rest) ← line s
      return l :: (← lines fuel rest)

/-- A document under construction: its tables, and the path of the table that entries go to. -/
structure Document where
  root : Members := []
  current : List String := []

/-- A path without its last name, and that name. -/
def splitLast? : List String → Option (List String × String)
  | [] => none
  | [name] => some ([], name)
  | name :: rest => (splitLast? rest).map fun (path, last) => (name :: path, last)

/-- The document with one more line. -/
def Document.add (d : Document) : Line → Option Document
  | .header path => do
    let (parent, name) ← splitLast? path
    return ⟨← d.root.within parent (Members.openTable name), path⟩
  | .arrayHeader path => do
    let (parent, name) ← splitLast? path
    return ⟨← d.root.within parent (Members.addTable name), path⟩
  | .entry path v => do
    return { d with root := ← d.root.within d.current (Members.assign v true path) }

/-- The value of a document; a byte order mark in front of it does not count. -/
def parse? (text : String) : Option Json := do
  let s := match text.toList with
    | '\ufeff' :: rest => rest
    | s => s
  let parts ← lines (s.length + 1) s
  let d ← parts.foldlM Document.add {}
  return .obj (membersToJson d.root)

end IssueBridge.Toml
