import IssueBridge.Json.Basic
import IssueBridge.Number.Decimal
import IssueBridge.Text.Raw

/-!
# Reading JSON

Who reads a text says which parts of its value are wanted. Reading is strict where a part is wanted.
What is not wanted is passed over: it may nest to any depth and hold numbers out of range, unpaired
surrogates and gaps.

A number with a point or an exponent is read in two steps, each rounded: the leading digits that
fit in 64 bits, then one multiplication or division by a power of ten.
-/

namespace IssueBridge.Json

/-- The wanted parts of a value. -/
inductive Want where
  /-- All of it. -/
  | whole
  /-- Parts of each item of an array. -/
  | items (item : Want)
  /-- Parts of the fields of a record, which are named in their order. -/
  | record (fields : List (String × Want))
  deriving Inhabited

namespace Want

/-- All of some fields of a record. -/
def fields (names : List String) : Want :=
  record (names.map fun name => (name, whole))

/-- What is wanted of an item of an array, if anything. -/
def item? : Option Want → Nat → Option Want
  | some whole, _ => some whole
  | some (items w), _ => some w
  | some (record fields), index => fields[index]?.map Prod.snd
  | none, _ => none

/-- What is wanted of a member of an object, if anything. -/
def member? : Option Want → String → Option Want
  | some whole, _ => some whole
  | some (record fields), key => fields.lookup key
  | some (items _), _ => none
  | none, _ => none

end Want

namespace Reader

/-- The four characters that may stand between tokens. -/
def isSpace (c : Char) : Bool :=
  c == ' ' || c == '\t' || c == '\n' || c == '\r'

/-- The text after leading space. -/
def skipSpace (s : List (Option Char)) : List (Option Char) :=
  s.dropWhile fun c => c.any isSpace

def hexDigit? (c : Char) : Option Nat :=
  if '0' ≤ c ∧ c ≤ '9' then some (c.toNat - 48)
  else if 'a' ≤ c ∧ c ≤ 'f' then some (c.toNat - 87)
  else if 'A' ≤ c ∧ c ≤ 'F' then some (c.toNat - 55)
  else none

def hex4? (a b c d : Char) : Option Nat := do
  some ((((← hexDigit? a) * 16 + (← hexDigit? b)) * 16 + (← hexDigit? c)) * 16 + (← hexDigit? d))

/-- The character of a one-letter escape. -/
def escape? : Char → Option Char
  | '"' => some '"'
  | '\\' => some '\\'
  | '/' => some '/'
  | 'b' => some '\x08'
  | 'f' => some '\x0c'
  | 'n' => some '\n'
  | 'r' => some '\r'
  | 't' => some '\t'
  | _ => none

/-- A code unit that begins a surrogate pair. -/
def isLead (n : Nat) : Bool :=
  0xD800 ≤ n && n < 0xDC00

/-- A code unit that ends a surrogate pair. -/
def isTrail (n : Nat) : Bool :=
  0xDC00 ≤ n && n < 0xE000

/-- The characters of a string up to its closing quote, after those in `done` in reverse. The
lenient reader leaves gaps out. -/
def string (lenient : Bool) (done : List Char) :
    List (Option Char) → Option (String × List (Option Char))
  | some '"' :: rest => some (String.ofList done.reverse, rest)
  | some '\\' :: some 'u' :: some a :: some b :: some c :: some d :: some '\\' :: some 'u' ::
      some e :: some f :: some g :: some h :: rest =>
    let next := some '\\' :: some 'u' :: some e :: some f :: some g :: some h :: rest
    match hex4? a b c d, hex4? e f g h with
    | some n, some m =>
      if isLead n ∧ isTrail m then
        string lenient (Char.ofNat (0x10000 + (n - 0xD800) * 1024 + (m - 0xDC00)) :: done) rest
      else if ¬lenient ∧ (isLead n ∨ isTrail n) then none
      else string lenient (Char.ofNat n :: done) next
    | some n, none =>
      if ¬lenient ∧ (isLead n ∨ isTrail n) then none
      else string lenient (Char.ofNat n :: done) next
    | none, _ => none
  | some '\\' :: some 'u' :: some a :: some b :: some c :: some d :: rest =>
    match hex4? a b c d with
    | some n =>
      if ¬lenient ∧ (isLead n ∨ isTrail n) then none
      else string lenient (Char.ofNat n :: done) rest
    | none => none
  | some '\\' :: some c :: rest =>
    match escape? c with
    | some e => string lenient (e :: done) rest
    | none => none
  | some c :: rest => if c.toNat < 0x20 ∨ c = '\\' then none else string lenient (c :: done) rest
  | none :: rest => if lenient then string lenient done rest else none
  | [] => none

/-- Appends digits to a number as long as it stays below `2 ^ 64`; says how many. -/
def absorb (n : Nat) : List Char → Nat × Nat
  | [] => (n, 0)
  | c :: rest =>
    let next := 10 * n + (c.toNat - 48)
    if next < UInt64.size then
      let (m, count) := absorb next rest
      (m, count + 1)
    else (n, 0)

/-- A double times ten to the power `exponent`, rounded at each step; `none` when too large. -/
def scaleTen : Nat → Binary64 → Int → Option Binary64
  | 0, _, _ => none
  | fuel + 1, x, exponent =>
    let power := Binary64.ofDecimal false 1 exponent.natAbs
    if exponent.natAbs ≤ 308 then
      if 0 ≤ exponent then
        let y := x.mulMagnitude power
        if y.isFinite then some y else none
      else some (x.divMagnitude power)
    else if x.significand = 0 then some x
    else if 0 ≤ exponent then none
    else scaleTen fuel (x.divMagnitude (Binary64.ofDecimal false 1 308)) (exponent + 308)

/-- A double of the given sign; out of range it is an infinity to the lenient reader. -/
def real? (lenient negative : Bool) (digits : Nat) (exponent : Int) : Option Json :=
  match scaleTen 8 (Binary64.ofInt digits) exponent with
  | some x => some (.double (if negative then x.neg else x))
  | none => if lenient then some (.double (Binary64.infinity negative)) else none

/-- A number without point and exponent. -/
def integer? (lenient negative : Bool) (digits : List Char) : Option Json :=
  let (n, count) := absorb 0 digits
  if count < digits.length then real? lenient negative n (digits.length - count : Nat)
  else if ¬negative then some (.int n)
  else if n = 0 ∨ Nat.pow 2 63 < n then real? lenient true n 0
  else some (.int (-(n : Int)))

/-- The largest exponent that is read as such. -/
def exponentLimit : Nat :=
  Nat.pow 2 31 - 1

/-- A number with a point or an exponent. -/
def fraction? (lenient negative : Bool) (whole fraction : List Char) (exponent : Int) :
    Option Json :=
  let (n, count) := absorb 0 whole
  let (m, places) := absorb n fraction
  let exponent' := ((whole.length - count : Nat) : Int) - places + exponent
  if exponent.natAbs ≤ exponentLimit then real? lenient negative m exponent'
  else if m = 0 ∨ exponent < 0 then some (.double (Binary64.zero negative))
  else if lenient then some (.double (Binary64.infinity negative))
  else none

/-- The digits at the start of a text, and the text after them. -/
def digits (s : List (Option Char)) : List Char × List (Option Char) :=
  let isDigit := fun c : Option Char => c.any Char.isDigit
  ((s.takeWhile isDigit).filterMap id, s.dropWhile isDigit)

/-- A number from its first character on. -/
def number (lenient : Bool) (s : List (Option Char)) : Option (Json × List (Option Char)) :=
  let (negative, s) := match s with
    | some '-' :: rest => (true, rest)
    | _ => (false, s)
  let (whole, rest) := digits s
  if whole = [] ∨ (whole.head? = some '0' ∧ 1 < whole.length) then none
  else
    let (fraction, rest, pointed) := match rest with
      | some '.' :: more => let (fraction, rest) := digits more; (fraction, rest, true)
      | _ => ([], rest, false)
    if pointed ∧ fraction = [] then none
    else if rest.head? = some (some 'e') ∨ rest.head? = some (some 'E') then
      let (down, more) := match rest.tail with
        | some '-' :: after => (true, after)
        | some '+' :: after => (false, after)
        | more => (false, more)
      let (power, rest) := digits more
      if power = [] then none
      else
        let size : Int := Nat.ofDigitChars 10 power 0
        (fraction? lenient negative whole fraction (if down then -size else size)).map
          fun v => (v, rest)
    else if pointed then (fraction? lenient negative whole fraction 0).map fun v => (v, rest)
    else (integer? lenient negative whole).map fun v => (v, rest)

/-- Whether one more array or object may open inside `depth` wanted ones. -/
def nests (want : Option Want) (depth : Nat) : Bool :=
  want.isNone || depth < 127

mutual

/-- A value that stands inside `depth` wanted arrays and objects. -/
def value : Nat → Option Want → Nat → List (Option Char) → Option (Json × List (Option Char))
  | 0, _, _, _ => none
  | fuel + 1, want, depth, s =>
    match skipSpace s with
    | some 'n' :: some 'u' :: some 'l' :: some 'l' :: rest => some (.null, rest)
    | some 't' :: some 'r' :: some 'u' :: some 'e' :: rest => some (.bool true, rest)
    | some 'f' :: some 'a' :: some 'l' :: some 's' :: some 'e' :: rest => some (.bool false, rest)
    | some '"' :: rest => (string want.isNone [] rest).map fun (text, rest) => (.str text, rest)
    | some '[' :: rest =>
      if nests want depth then
        match skipSpace rest with
        | some ']' :: rest => some (.arr [], rest)
        | _ => (items fuel want (depth + 1) [] rest).map fun (vs, rest) => (.arr vs, rest)
      else none
    | some '\x7b' :: rest =>
      if nests want depth then
        match skipSpace rest with
        | some '\x7d' :: rest => some (.obj [], rest)
        | _ => (members fuel want (depth + 1) [] rest).map fun (ms, rest) => (.obj ms, rest)
      else none
    | rest => number want.isNone rest

/-- The items of an array up to its end, after those in `done` in reverse. -/
def items : Nat → Option Want → Nat → List Json → List (Option Char) →
    Option (List Json × List (Option Char))
  | 0, _, _, _, _ => none
  | fuel + 1, want, depth, done, s =>
    match value fuel (Want.item? want done.length) depth s with
    | some (v, rest) =>
      match skipSpace rest with
      | some ',' :: rest => items fuel want depth (v :: done) rest
      | some ']' :: rest => some ((v :: done).reverse, rest)
      | _ => none
    | none => none

/-- The members of an object up to its end, after those in `done` in reverse. -/
def members : Nat → Option Want → Nat → List (String × Json) → List (Option Char) →
    Option (List (String × Json) × List (Option Char))
  | 0, _, _, _, _ => none
  | fuel + 1, want, depth, done, s =>
    match skipSpace s with
    | some '"' :: rest =>
      match string want.isNone [] rest with
      | some (key, rest) =>
        match skipSpace rest with
        | some ':' :: rest =>
          match value fuel (Want.member? want key) depth rest with
          | some (v, rest) =>
            match skipSpace rest with
            | some ',' :: rest => members fuel want depth ((key, v) :: done) rest
            | some '\x7d' :: rest => some (((key, v) :: done).reverse, rest)
            | _ => none
          | none => none
        | _ => none
      | none => none
    | _ => none

end

end Reader

/-- The value that a text holds, with nothing but space around it. -/
def parse? (want : Want) (text : RawText) : Option Json :=
  let s := text.chars
  match Reader.value (2 * s.length + 2) (some want) 0 s with
  | some (v, rest) => if Reader.skipSpace rest = [] then some v else none
  | none => none

/-- How a type is read: the parts that it wants of a value, and what it makes of the value. -/
structure Form (α : Type) where
  want : Want
  decode : Json → Option α

namespace Form

variable {α : Type}

/-- An array of values that are read alike. -/
def items (form : Form α) : Form (List α) where
  want := .items form.want
  decode v := v.items?.bind fun items => items.mapM form.decode

def read? (form : Form α) (text : RawText) : Option α :=
  (parse? form.want text).bind form.decode

end Form

end IssueBridge.Json
