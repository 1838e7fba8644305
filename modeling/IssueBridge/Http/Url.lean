import IssueBridge.Http.Host

/-!
# Addresses

Addresses of the schemes http and https in their normal form. Reading is generous: it takes any
number of slashes or backslashes after the scheme and escapes what may not stand as it is.
-/

namespace IssueBridge.Http

structure Url where
  secure : Bool
  /-- The name and password in front of the host. -/
  userinfo : List Char
  host : List Char
  /-- The number of the service at the host, when it is not the one of the scheme. -/
  service : Option Nat
  path : List Char
  query : Option (List Char)
  fragment : Option (List Char)
  deriving DecidableEq, Inhabited

namespace Url

/-- Characters of no meaning around an address. -/
def isEdge (c : Char) : Bool :=
  c.toNat ≤ 0x20

/-- The text without edges, and without tabs and line ends anywhere. -/
def clean (s : List Char) : List Char :=
  (((s.dropWhile isEdge).reverse.dropWhile isEdge).reverse).filter fun c =>
    c ≠ '\t' ∧ c ≠ '\n' ∧ c ≠ '\r'

/-- A slash or a backslash. -/
def isSlash (c : Char) : Bool :=
  c == '/' || c == '\\'

/-- The end of the part that names the host. -/
def endsAuthority (c : Char) : Bool :=
  isSlash c || c == '?' || c == '#'

/-- Escapes what is no printable ASCII character or one of `others`. -/
def escapeSet (others : String) (s : List Char) : List Char :=
  Percent.encodeExcept (fun c => 0x20 ≤ c.toNat && c.toNat < 0x7F && !others.toList.contains c) s

def escapeFragment : List Char → List Char :=
  escapeSet " \"<>\x60"

def escapeQuery : List Char → List Char :=
  escapeSet " \"#<>'"

def escapePath : List Char → List Char :=
  escapeSet " \"<>\x60#?\x7b\x7d"

/-- Escapes a name or a password. -/
def escapeUser : List Char → List Char :=
  escapeSet " \"<>\x60#?\x7b\x7d/:;=@[\\]^|"

/-- What stands after the scheme, and whether the scheme is the secure one. -/
def scheme? (s : List Char) : Option (Bool × List Char) := do
  let (name, rest) ← Text.splitFirst? [':'] s
  let name := name.map Char.toLower
  if name = "https".toList then some (true, rest)
  else if name = "http".toList then some (false, rest)
  else none

/-- The last at sign splits name and password from the host. -/
def splitUser (authority : List Char) : Option (List Char) × List Char :=
  let back := authority.reverse
  let host := (back.takeWhile (· ≠ '@')).reverse
  if authority.contains '@' then
    (some ((back.dropWhile (· ≠ '@')).drop 1).reverse, host)
  else (none, host)

/-- A name and a password in their normal form, with the at sign. -/
def userText (s : List Char) : List Char :=
  let name := escapeUser (s.takeWhile (· ≠ ':'))
  let password := escapeUser ((s.dropWhile (· ≠ ':')).drop 1)
  let both := if password = [] then name else name ++ ':' :: password
  if both = [] then [] else both ++ ['@']

/-- The host and what follows it; colons inside brackets belong to the host. -/
def splitHost (inside : Bool) : List Char → List Char × List Char
  | [] => ([], [])
  | c :: rest =>
    if c = ':' ∧ !inside then ([], c :: rest)
    else
      let inside := if c = '[' then true else if c = ']' then false else inside
      let (host, rest) := splitHost inside rest
      (c :: host, rest)

/-- The service number after a colon, if it is not the one of the scheme. -/
def service? (secure : Bool) (s : List Char) : Option (Option Nat) :=
  match s with
  | [] => some none
  | _ :: [] => some none
  | _ :: digits => do
    let n ← Decimal.toNat? digits
    if 65535 < n then none
    else if n = (if secure then 443 else 80) then some none
    else some (some n)

/-- A step that stays where it is. -/
def isHere (segment : List Char) : Bool :=
  let s := segment.map Char.toLower
  s == ['.'] || s == "%2e".toList

/-- A step back. -/
def isUp (segment : List Char) : Bool :=
  let s := segment.map Char.toLower
  s == "..".toList || s == ".%2e".toList || s == "%2e.".toList || s == "%2e%2e".toList

/-- The segments of a path with its steps taken; `done` holds those before, the last one first. -/
def walk (done : List (List Char)) : List (List Char) → List (List Char)
  | [] => done.reverse
  | segment :: rest =>
    let last := rest.isEmpty
    if isUp segment then walk (if last then [] :: done.drop 1 else done.drop 1) rest
    else if isHere segment then walk (if last then [] :: done else done) rest
    else walk (segment :: done) rest

/-- A path in its normal form, from its first slash on. -/
def pathText (s : List Char) : List Char :=
  let body := match s with
    | c :: rest => if isSlash c then rest else c :: rest
    | [] => []
  let segments := Text.pieces '/' (body.map fun c => if c = '\\' then '/' else c)
  '/' :: ['/'].intercalate (walk [] (segments.map escapePath))

/-- The address that a text stands for. -/
def parse? (text : String) : Option Url := do
  let (secure, rest) ← scheme? (clean text.toList)
  let rest := rest.dropWhile isSlash
  let authority := rest.takeWhile fun c => !endsAuthority c
  let rest := rest.dropWhile fun c => !endsAuthority c
  let (user, site) := splitUser authority
  let (hostText, serviceText) := splitHost false site
  let host ← if hostText = [] then none else host? hostText
  let service ← service? secure serviceText
  let path := rest.takeWhile fun c => c ≠ '?' ∧ c ≠ '#'
  let rest := rest.dropWhile fun c => c ≠ '?' ∧ c ≠ '#'
  let (query, rest) := match rest with
    | '?' :: more =>
      (some (escapeQuery (more.takeWhile (· ≠ '#'))), more.dropWhile (· ≠ '#'))
    | _ => (none, rest)
  let fragment := match rest with
    | '#' :: more => some (escapeFragment more)
    | _ => none
  return {
    secure, host, service, query, fragment
    userinfo := (user.map userText).getD []
    path := pathText path }

/-- A query after its question mark. -/
def queryText (query : Option (List Char)) : List Char :=
  match query with
  | some q => '?' :: q
  | none => []

/-- The path and the query, as a request names them. -/
def target (u : Url) : String :=
  String.ofList (u.path ++ queryText u.query)

/-- The scheme, the host and the service number. -/
def origin (u : Url) : List Char :=
  (if u.secure then "https://" else "http://").toList ++ u.userinfo ++ u.host ++
    match u.service with
    | some n => ':' :: Decimal.ofNat n
    | none => []

def text (u : Url) : String :=
  let fragment := match u.fragment with
    | some f => '#' :: f
    | none => []
  String.ofList (u.origin ++ u.path ++ queryText u.query ++ fragment)

def withoutUser (u : Url) : Url :=
  { u with userinfo := [] }

/-- The address without a query that is empty. -/
def withoutEmptyQuery (u : Url) : Url :=
  { u with query := u.query.filter (· ≠ []) }

/-- The address with entries of a form added to its query. -/
def withForm (u : Url) (entries : List (String × String)) : Url :=
  if entries = [] then u
  else
    let form := Percent.form entries
    match u.query with
    | some q => { u with query := some (if q = [] then form else q ++ '&' :: form) }
    | none => { u with query := some form }

end Url

end IssueBridge.Http
