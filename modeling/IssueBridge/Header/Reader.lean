import IssueBridge.Header.Basic
import IssueBridge.Text.Digit

/-!
# Reading comment headers

Taking a header apart from its front to its end. Each part ends where the text that must follow it
first occurs, so a header can be read in one way only.
-/

namespace IssueBridge.Header

/-- The digits of the number, and what follows the bar after it. -/
def splitId? (s : List Char) : Option (List Char × List Char) := do
  let s ← opening.isPrefixOf? s
  let digits := s.takeWhile Text.isDigit
  let rest ← afterId.isPrefixOf? (s.dropWhile Text.isDigit)
  if digits = [] then none else some (digits, rest)

/-- An address up to a closing bracket. -/
def splitAddress (s : List Char) : List Char × List Char :=
  (s.takeWhile (· ≠ ']'), s.dropWhile (· ≠ ']'))

/-- The login up to a bar, and what follows the bar. -/
def splitLogin? (s : List Char) : Option (List Char × List Char) :=
  let login := s.takeWhile fun c => c ≠ '|' ∧ c ≠ ']'
  match login, s.dropWhile fun c => c ≠ '|' ∧ c ≠ ']' with
  | _ :: _, '|' :: rest => some (login, rest)
  | _, _ => none

/-- The display name, if there is one, and what follows the words in front of the time. -/
def splitName? (s : List Char) : Option (Option (List Char) × List Char) :=
  match beforeName.isPrefixOf? s with
  | some rest => (Text.splitFirst? afterName rest).map fun (name, rest) => (some name, rest)
  | none => (beforeTime.isPrefixOf? s).map fun rest => (none, rest)

/-- A header taken apart, and the text after it. -/
def split? (s : List Char) : Option (Parts × List Char) := do
  let (digits, s) ← splitId? s
  let (commentUrl, s) := splitAddress s
  let s ← beforeLogin.isPrefixOf? s
  let (login, s) ← splitLogin? s
  let (userUrl, s) := splitAddress s
  let s ← [']'].isPrefixOf? s
  let (name, s) ← splitName? s
  let (time, body) ← Text.splitFirst? beforeBody s
  some (⟨digits, commentUrl, login, userUrl, name, time⟩, body)

def idOf (digits : List Char) : Except HeaderError Int64 :=
  match Decimal.toInt64? digits with
  | some id => .ok id
  | none => .error (.invalidId (String.ofList digits))

/-- Whether a comment begins with the number of a GitHub comment. -/
def begins (body : String) : Bool :=
  (splitId? body.toList).isSome

/-- The number at the beginning of a comment; none if it does not begin with one. -/
def id? (body : String) : Except HeaderError (Option Int64) :=
  match splitId? body.toList with
  | some (digits, _) => (idOf digits).map some
  | none => .ok none

/-- The parts of a comment with a header; none if the whole does not have that form. -/
def parse? (body : String) : Except HeaderError (Option HeadedComment) :=
  match split? body.toList with
  | some (p, text) =>
    (idOf p.digits).map fun id =>
      some {
        id
        login := String.ofList p.login
        shownName := p.name.map String.ofList
        timestamp := String.ofList p.time
        body := String.ofList text }
  | none => .ok none

end IssueBridge.Header
