import IssueBridge.Json.Reader
import IssueBridge.Number.Numeral
import IssueBridge.Time.Calendar

/-!
# Scalars of TOML

Strings in their four notations, numbers, and dates and times. Each reader takes a value from the
front of a text and returns it with the rest.
-/

namespace IssueBridge.Toml

/-- The two characters that count as space within a line. -/
def isSpace (c : Char) : Bool :=
  c == ' ' || c == '\t'

def skipSpace (s : List Char) : List Char :=
  s.dropWhile isSpace

/-- The text after an end of line. -/
def lineEnd? : List Char → Option (List Char)
  | '\n' :: rest => some rest
  | '\r' :: '\n' :: rest => some rest
  | _ => none

/-- A character that may stand in strings and comments: a tab, or one that is no control. -/
def isPlain (c : Char) : Bool :=
  c == '\t' || (0x20 ≤ c.toNat && c != '\x7f')

/-! ## Strings -/

/-- The character of a hexadecimal code. -/
def charOfCode? (digits : List Char) : Option Char := do
  let values ← digits.mapM Json.Reader.hexDigit?
  let code := values.foldl (fun n d => 16 * n + d) 0
  if code.isValidChar then some (Char.ofNat code) else none

/-- An escape after its backslash. -/
def escape? : List Char → Option (Char × List Char)
  | 'b' :: rest => some ('\x08', rest)
  | 't' :: rest => some ('\t', rest)
  | 'n' :: rest => some ('\n', rest)
  | 'f' :: rest => some ('\x0c', rest)
  | 'r' :: rest => some ('\r', rest)
  | '"' :: rest => some ('"', rest)
  | '\\' :: rest => some ('\\', rest)
  | 'u' :: rest =>
    if rest.length < 4 then none
    else (charOfCode? (rest.take 4)).map fun c => (c, rest.drop 4)
  | 'U' :: rest =>
    if rest.length < 8 then none
    else (charOfCode? (rest.take 8)).map fun c => (c, rest.drop 8)
  | _ => none

/-- A string in double quotes, up to the closing one. -/
def basic : Nat → List Char → List Char → Option (String × List Char)
  | 0, _, _ => none
  | fuel + 1, done, s =>
    match s with
    | '"' :: rest => some (String.ofList done.reverse, rest)
    | '\\' :: rest =>
      match escape? rest with
      | some (c, rest) => basic fuel (c :: done) rest
      | none => none
    | c :: rest => if isPlain c then basic fuel (c :: done) rest else none
    | [] => none

/-- A string in single quotes, up to the closing one. -/
def literal (done : List Char) : List Char → Option (String × List Char)
  | '\'' :: rest => some (String.ofList done.reverse, rest)
  | c :: rest => if isPlain c then literal (c :: done) rest else none
  | [] => none

/-- The text after spaces and line ends. -/
def skipBlank : List Char → List Char
  | '\r' :: '\n' :: rest => skipBlank rest
  | c :: rest => if isSpace c ∨ c = '\n' then skipBlank rest else c :: rest
  | [] => []

/-- The text after a backslash at the end of a line: the next line begins at its first character
that is not blank. -/
def foldLine? (s : List Char) : Option (List Char) :=
  (lineEnd? (skipSpace s)).map skipBlank

/-- The end of a string of several lines: three quotes, of which up to two more may stand before
as its last characters. -/
def closing? (quote : Char) (s : List Char) : Option (List Char × List Char) :=
  let count := (s.takeWhile (· == quote)).length
  if count < 3 then none
  else
    let extra := min (count - 3) 2
    some (List.replicate extra quote, s.drop (extra + 3))

/-- A string of several lines in double quotes, up to the closing three. -/
def basicLines : Nat → List Char → List Char → Option (String × List Char)
  | 0, _, _ => none
  | fuel + 1, done, s =>
    match closing? '"' s with
    | some (last, rest) => some (String.ofList (done.reverse ++ last), rest)
    | none =>
      match s with
      | '\\' :: rest =>
        match foldLine? rest with
        | some rest => basicLines fuel done rest
        | none =>
          match escape? rest with
          | some (c, rest) => basicLines fuel (c :: done) rest
          | none => none
      | c :: rest =>
        match lineEnd? s with
        | some rest => basicLines fuel ('\n' :: done) rest
        | none => if isPlain c then basicLines fuel (c :: done) rest else none
      | [] => none

/-- A string of several lines in single quotes, up to the closing three. -/
def literalLines : Nat → List Char → List Char → Option (String × List Char)
  | 0, _, _ => none
  | fuel + 1, done, s =>
    match closing? '\'' s with
    | some (last, rest) => some (String.ofList (done.reverse ++ last), rest)
    | none =>
      match s with
      | c :: rest =>
        match lineEnd? s with
        | some rest => literalLines fuel ('\n' :: done) rest
        | none => if isPlain c then literalLines fuel (c :: done) rest else none
      | [] => none

/-- A line end in front of the contents of a string of several lines does not belong to them. -/
def dropLineEnd (s : List Char) : List Char :=
  (lineEnd? s).getD s

/-- A string in any of the four notations. -/
def string (s : List Char) : Option (String × List Char) :=
  match s with
  | '"' :: '"' :: '"' :: rest => basicLines s.length [] (dropLineEnd rest)
  | '"' :: rest => basic s.length [] rest
  | '\'' :: '\'' :: '\'' :: rest => literalLines s.length [] (dropLineEnd rest)
  | '\'' :: rest => literal [] rest
  | _ => none

/-! ## Numbers -/

/-- Digits after the first, each of which may follow one underscore. -/
def moreDigits (isDigit : Char → Bool) : List Char → Option (List Char × List Char)
  | '_' :: c :: rest =>
    if isDigit c then (moreDigits isDigit rest).map fun (ds, rest) => (c :: ds, rest) else none
  | ['_'] => none
  | c :: rest =>
    if isDigit c then (moreDigits isDigit rest).map fun (ds, rest) => (c :: ds, rest)
    else some ([], c :: rest)
  | [] => some ([], [])

/-- One or more digits, without the underscores between them. -/
def digits (isDigit : Char → Bool) : List Char → Option (List Char × List Char)
  | c :: rest =>
    if isDigit c then (moreDigits isDigit rest).map fun (ds, rest) => (c :: ds, rest) else none
  | [] => none

def sign : List Char → List Char × List Char
  | '+' :: rest => (['+'], rest)
  | '-' :: rest => (['-'], rest)
  | s => ([], s)

/-- Decimal digits that do not begin with a zero, or a single zero. -/
def whole : List Char → Option (List Char × List Char)
  | '0' :: rest => some (['0'], rest)
  | s => digits Char.isDigit s

/-- A digit of a base up to sixteen. -/
def isDigitOf (base : Nat) (c : Char) : Bool :=
  match Json.Reader.hexDigit? c with
  | some d => d < base
  | none => false

/-- An integer that fits in 64 bits with a sign. -/
def fitting? (n : Int) (rest : List Char) : Option (Json × List Char) :=
  if Int64.minValue.toInt ≤ n ∧ n ≤ Int64.maxValue.toInt then some (.int n, rest) else none

/-- An integer in a base other than ten, after its mark. -/
def integerOf (base : Nat) (s : List Char) : Option (Json × List Char) := do
  let (ds, rest) ← digits (isDigitOf base) s
  let values ← ds.mapM Json.Reader.hexDigit?
  fitting? (values.foldl (fun n d => base * n + d) 0 : Nat) rest

def integer (s : List Char) : Option (Json × List Char) :=
  match s with
  | '0' :: 'x' :: rest => integerOf 16 rest
  | '0' :: 'o' :: rest => integerOf 8 rest
  | '0' :: 'b' :: rest => integerOf 2 rest
  | _ => do
    let (mark, rest) := sign s
    let (ds, rest) ← whole rest
    fitting? (← Decimal.toInt? (mark ++ ds)) rest

def exponent : List Char → Option (List Char × List Char)
  | c :: rest =>
    if c = 'e' ∨ c = 'E' then do
      let (mark, rest) := sign rest
      let (ds, rest) ← digits Char.isDigit rest
      some ('e' :: mark ++ ds, rest)
    else none
  | [] => none

def fraction : List Char → Option (List Char × List Char)
  | '.' :: rest => (digits Char.isDigit rest).map fun (ds, rest) => ('.' :: ds, rest)
  | _ => none

/-- What makes a number a double: an exponent, or a fraction that an exponent may follow. -/
def tail (s : List Char) : Option (List Char × List Char) :=
  match exponent s with
  | some found => some found
  | none =>
    match fraction s with
    | some (ds, rest) =>
      match exponent rest with
      | some (e, rest) => some (ds ++ e, rest)
      | none => some (ds, rest)
    | none => none

/-- A double with a fraction or an exponent, not too large. -/
def double (s : List Char) : Option (Json × List Char) := do
  let (mark, rest) := sign s
  let (ds, rest) ← whole rest
  let (more, rest) ← tail rest
  let x ← Numeral.toBinary64? (mark ++ ds ++ more)
  if x = .infinity false then none else some (.double x, rest)

/-- An infinity or NaN. -/
def special (s : List Char) : Option (Json × List Char) :=
  let (mark, rest) := sign s
  match rest with
  | 'i' :: 'n' :: 'f' :: rest => some (.double (.infinity (mark == ['-'])), rest)
  | 'n' :: 'a' :: 'n' :: rest => some (.double .nan, rest)
  | _ => none

/-! ## Dates and times -/

/-- A number of exactly `width` digits between two bounds. -/
def fixed (width low high : Nat) (s : List Char) : Option (Nat × List Char) :=
  let ds := s.take width
  let n := Nat.ofDigitChars 10 ds 0
  if ds.length = width ∧ ds.all Char.isDigit ∧ low ≤ n ∧ n ≤ high then some (n, s.drop width)
  else none

/-- The text after a given character. -/
def after? (c : Char) : List Char → Option (List Char)
  | d :: rest => if d = c then some rest else none
  | [] => none

def date? (s : List Char) : Option (List Char) := do
  let (y, s) ← fixed 4 0 9999 s
  let (m, s) ← fixed 2 1 12 (← after? '-' s)
  let (d, s) ← fixed 2 1 31 (← after? '-' s)
  if d ≤ Date.monthLength y m then some s else none

def clock? (s : List Char) : Option (List Char) := do
  let (_, s) ← fixed 2 0 23 s
  let (_, s) ← fixed 2 0 59 (← after? ':' s)
  let (_, s) ← fixed 2 0 60 (← after? ':' s)
  match s with
  | '.' :: c :: rest => if c.isDigit then some (rest.dropWhile Char.isDigit) else some s
  | _ => some s

/-- The text after an offset from UTC, if there is one. -/
def offset? : List Char → Option (List Char)
  | 'Z' :: rest => some rest
  | 'z' :: rest => some rest
  | c :: rest =>
    if c = '+' ∨ c = '-' then do
      let (_, s) ← fixed 2 0 23 rest
      let (_, s) ← fixed 2 0 59 (← after? ':' s)
      some s
    else some (c :: rest)
  | [] => some []

/-- The text after what may follow a date: a time of day with or without an offset. -/
def afterDate? (s : List Char) : Option (List Char) :=
  match s with
  | c :: rest =>
    if c = 'T' ∨ c = 't' then (clock? rest).bind offset?
    else if c = ' ' ∧ (clock? rest).isSome then (clock? rest).bind offset?
    else some s
  | [] => some []

/-- The name under which a record holds a date or time. -/
def momentKey : String :=
  "moment"

/-- A date, a time of day, or both: a record of its text. -/
def moment (s : List Char) : Option (Json × List Char) :=
  match (date? s).bind afterDate?, clock? s with
  | some rest, _ | none, some rest =>
    some (.obj [(momentKey, .str (String.ofList (s.take (s.length - rest.length))))], rest)
  | none, none => none

/-- A string, a truth value, a number, or a date or time. -/
def scalar (s : List Char) : Option (Json × List Char) :=
  match s with
  | 't' :: 'r' :: 'u' :: 'e' :: rest => some (.bool true, rest)
  | 'f' :: 'a' :: 'l' :: 's' :: 'e' :: rest => some (.bool false, rest)
  | '"' :: _ | '\'' :: _ => (string s).map fun (text, rest) => (.str text, rest)
  | _ =>
    match moment s, double s, special s with
    | some found, _, _ | none, some found, _ | none, none, some found => some found
    | none, none, none => integer s

end IssueBridge.Toml
