/-!
# Punycode

A label with characters beyond ASCII, written with ASCII characters only: the ASCII characters
first, then the places of the others as numbers of variable length.
-/

namespace IssueBridge.Punycode

/-- The character of a digit below 36. -/
def digit (n : Nat) : Char :=
  if n < 26 then Char.ofNat (97 + n) else Char.ofNat (22 + n)

def digit? (c : Char) : Option Nat :=
  if 'a' ≤ c ∧ c ≤ 'z' then some (c.toNat - 97)
  else if '0' ≤ c ∧ c ≤ '9' then some (c.toNat - 22)
  else none

/-- Divides by 35 until the result is at most 455; counts the divisions. -/
def reduce : Nat → Nat → Nat → Nat × Nat
  | 0, delta, k => (delta, k)
  | fuel + 1, delta, k => if delta > 455 then reduce fuel (delta / 35) (k + 36) else (delta, k)

/-- The bias after a number. -/
def adapt (delta count : Nat) (first : Bool) : Nat :=
  let delta := if first then delta / 700 else delta / 2
  let (delta, k) := reduce 64 (delta + delta / count) 0
  k + 36 * delta / (delta + 38)

/-- The threshold of the digit at a place. -/
def threshold (k bias : Nat) : Nat :=
  if k ≤ bias then 1 else if bias + 26 ≤ k then 26 else k - bias

def number : Nat → Nat → Nat → Nat → List Char
  | 0, _, _, _ => []
  | fuel + 1, k, bias, q =>
    let t := threshold k bias
    if q < t then [digit q]
    else digit (t + (q - t) % (36 - t)) :: number fuel (k + 36) bias ((q - t) / (36 - t))

/-- The state while a label is written or read: the next code point, the distance to it, the bias
and how many characters are done. -/
structure Progress where
  code : Nat := 128
  delta : Nat := 0
  bias : Nat := 72
  count : Nat

/-- The numbers for all places of one code point. -/
def places (basic code : Nat) : List Nat → Progress → List Char × Progress
  | [], p => ([], p)
  | c :: rest, p =>
    if c < code then places basic code rest { p with delta := p.delta + 1 }
    else if c = code then
      let text := number 64 36 p.bias p.delta
      let bias := adapt p.delta (p.count + 1) (p.count == basic)
      let (more, p) := places basic code rest { p with delta := 0, bias, count := p.count + 1 }
      (text ++ more, p)
    else places basic code rest p

/-- The numbers for all code points from the next one on. -/
def points (basic : Nat) (label : List Nat) : Nat → Progress → List Char
  | 0, _ => []
  | fuel + 1, p =>
    match (label.filter fun c => p.code ≤ c).min? with
    | none => []
    | some code =>
      let delta := p.delta + (code - p.code) * (p.count + 1)
      let (text, p) := places basic code label { p with code, delta }
      text ++ points basic label fuel { p with code := code + 1, delta := p.delta + 1 }

/-- The ASCII form of a label. -/
def encode (label : List Char) : List Char :=
  let ascii := label.filter fun c => c.toNat < 128
  let start := if ascii.isEmpty then [] else ascii ++ ['-']
  start ++ points ascii.length (label.map Char.toNat) label.length { count := ascii.length }

/-- Reads a number, of which `value` is known and whose next digit has the given weight. -/
def readNumber (bias : Nat) : Nat → Nat → Nat → List Char → Option (Nat × List Char)
  | _, _, _, [] => none
  | k, weight, value, c :: rest =>
    match digit? c with
    | none => none
    | some d =>
      let value := value + d * weight
      let t := threshold k bias
      if d < t then some (value, rest) else readNumber bias (k + 36) (weight * (36 - t)) value rest

/-- Reads the places of characters into a label. -/
def readPlaces : Nat → Progress → List Char → List Char → Option (List Char)
  | _, _, label, [] => some label
  | 0, _, _, _ => none
  | fuel + 1, p, label, s => do
    let (step, rest) ← readNumber p.bias 36 1 0 s
    let size := label.length + 1
    let place := p.delta + step
    let code := p.code + place / size
    if code.isValidChar then
      let at' := place % size
      let label := label.take at' ++ Char.ofNat code :: label.drop at'
      readPlaces fuel ⟨code, at' + 1, adapt step size (p.delta == 0), size⟩ label
        rest
    else none

/-- The label of an ASCII form. -/
def decode? (s : List Char) : Option (List Char) :=
  let tail := (s.reverse.takeWhile (· ≠ '-')).reverse
  let start := s.take (s.length - tail.length - 1)
  readPlaces (s.length + 1) { count := start.length } start tail

end IssueBridge.Punycode
