/-!
# Patterns

Patterns of texts with groups, and how they are searched for: at the first place where they match,
and there by backtracking, which takes the first choice that lets the rest of the pattern match.
-/

namespace IssueBridge.Text

inductive Pattern where
  /-- The start of the text. -/
  | start
  /-- The end of the text. -/
  | stop
  | literal (s : List Char)
  /-- One character of a class. -/
  | one (inClass : Char → Bool)
  /-- Characters of a class, as many as possible. -/
  | most (inClass : Char → Bool)
  /-- Characters of a class, as few as possible. -/
  | fewest (inClass : Char → Bool)
  | seq (first second : Pattern)
  /-- The pattern, or else nothing. -/
  | maybe (p : Pattern)
  /-- The text that the pattern matches is kept under a number. -/
  | group (number : Nat) (p : Pattern)

/-- A place in a text, and the groups that were matched before it. -/
structure Cursor where
  passed : List Char
  rest : List Char
  groups : List (Nat × List Char)

namespace Pattern

variable {α : Type}

/-- Goes on after as many characters of a class as lets the rest match. -/
def tryMost (inClass : Char → Bool) (go : List Char → List Char → Option α) :
    List Char → List Char → Option α
  | passed, [] => go passed []
  | passed, c :: rest =>
    if inClass c then
      match tryMost inClass go (passed ++ [c]) rest with
      | some a => some a
      | none => go passed (c :: rest)
    else go passed (c :: rest)

/-- Goes on after as few characters of a class as lets the rest match. -/
def tryFewest (inClass : Char → Bool) (go : List Char → List Char → Option α) :
    List Char → List Char → Option α
  | passed, [] => go passed []
  | passed, c :: rest =>
    match go passed (c :: rest) with
    | some a => some a
    | none => if inClass c then tryFewest inClass go (passed ++ [c]) rest else none

/-- Matches the pattern at a place and goes on behind it. -/
def tryAt : Pattern → (Cursor → Option α) → Cursor → Option α
  | start, go, c => if c.passed = [] then go c else none
  | stop, go, c => if c.rest = [] then go c else none
  | literal s, go, c =>
    match s.isPrefixOf? c.rest with
    | some rest => go { c with passed := c.passed ++ s, rest }
    | none => none
  | one inClass, go, c =>
    match c.rest with
    | d :: rest =>
      if inClass d then go { c with passed := c.passed ++ [d], rest } else none
    | [] => none
  | most inClass, go, c =>
    tryMost inClass (fun passed rest => go { c with passed, rest }) c.passed c.rest
  | fewest inClass, go, c =>
    tryFewest inClass (fun passed rest => go { c with passed, rest }) c.passed c.rest
  | seq first second, go, c => first.tryAt (second.tryAt go) c
  | maybe p, go, c =>
    match p.tryAt go c with
    | some a => some a
    | none => go c
  | group number p, go, c =>
    p.tryAt (fun d => go { d with
      groups := d.groups ++ [(number, d.passed.drop c.passed.length)] }) c

/-- The groups of the first match from a place on. -/
def searchFrom (p : Pattern) : List Char → List Char → Option (List (Nat × List Char))
  | passed, [] => p.tryAt (fun c => some c.groups) ⟨passed, [], []⟩
  | passed, c :: rest =>
    match p.tryAt (fun c => some c.groups) ⟨passed, c :: rest, []⟩ with
    | some groups => some groups
    | none => searchFrom p (passed ++ [c]) rest

/-- The groups of the first match in a text. -/
def search (p : Pattern) (s : List Char) : Option (List (Nat × List Char)) :=
  p.searchFrom [] s

/-- Patterns one after another. -/
def inOrder (patterns : List Pattern) : Pattern :=
  patterns.foldr seq (literal [])

/-- One character of a class and more, as many as possible. -/
def oneOrMore (inClass : Char → Bool) : Pattern :=
  seq (one inClass) (most inClass)

def text (s : String) : Pattern :=
  literal s.toList

end Pattern

end IssueBridge.Text
