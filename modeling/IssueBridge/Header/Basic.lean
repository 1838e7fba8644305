import IssueBridge.GitHub.Basic

/-!
# Comment headers

A Jira comment carries no data of its own beside its text, so a comment that stands for a GitHub
comment begins with a header:

    Comment [(ID 484163403)|<comment>] from GitHub user [bob|<user>] (Bob) at <time>:

After the header and an empty line follows the text of the GitHub comment.
-/

namespace IssueBridge

/-- Comments have at most this many characters. -/
def maxCommentLength : Nat :=
  32767

/-- A comment that cannot be matched with a GitHub comment. -/
inductive HeaderError where
  /-- The number of the header does not fit an identifier. -/
  | invalidId (digits : String)
  /-- The comment has the number of a GitHub comment and no complete header. -/
  | unparseable (comment : String)
  deriving DecidableEq, Inhabited

namespace HeaderError

def message : HeaderError → String
  | invalidId digits => "comment header carries an invalid GitHub comment ID '" ++ digits ++ "'"
  | unparseable comment =>
    "Jira comment " ++ comment ++ " matched a GitHub comment but its header could not be parsed"

end HeaderError

/-- The parts of a comment with a header. -/
structure HeadedComment where
  id : Int64
  login : String
  shownName : Option String
  timestamp : String
  body : String
  deriving DecidableEq, Inhabited

namespace Header

/-- In front of the number. -/
def opening : List Char := "Comment [(ID ".toList

/-- Between the number and the address of the comment. -/
def afterId : List Char := ")|".toList

/-- Between the address of the comment and the login. -/
def beforeLogin : List Char := "] from GitHub user [".toList

/-- In front of the display name. -/
def beforeName : List Char := " (".toList

/-- Between the display name and the time. -/
def afterName : List Char := ") at ".toList

/-- In front of the time when there is no display name. -/
def beforeTime : List Char := " at ".toList

/-- Between the time and the text. -/
def beforeBody : List Char := ":\n\n".toList

/-- The parts of a header as they stand in the text. -/
structure Parts where
  digits : List Char
  commentUrl : List Char
  login : List Char
  userUrl : List Char
  name : Option (List Char)
  time : List Char
  deriving DecidableEq

namespace Parts

/-- The display name in parentheses, if there is one, and the words in front of the time. -/
def nameText (p : Parts) : List Char :=
  match p.name with
  | some name => beforeName ++ name ++ afterName
  | none => beforeTime

/-- The header with the empty line after it. -/
def render (p : Parts) : List Char :=
  opening ++ p.digits ++ afterId ++ p.commentUrl ++ beforeLogin ++ p.login ++ '|' :: p.userUrl ++
    ']' :: p.nameText ++ p.time ++ beforeBody

end Parts

/-- The parts of the header of a GitHub comment. -/
def partsOf (c : GitHub.Comment) (author : GitHub.User) : Parts :=
  { digits := Decimal.ofInt c.id.toInt
    commentUrl := c.htmlUrl.toList
    login := author.login.toList
    userUrl := author.htmlUrl.toList
    name := author.shownName.map String.toList
    time := c.createdAt.headerChars }

/-- The comment that stands for a GitHub comment, cut at its end if it is too long. -/
def written (c : GitHub.Comment) (author : GitHub.User) : String :=
  String.ofList (((partsOf c author).render ++ c.body.toList).take maxCommentLength)

end Header

end IssueBridge
