import IssueBridge.Text.Digit
import IssueBridge.Text.Pattern

/-!
# Patterns of comment headers

The form of headers as patterns. The first one is for the number alone, the second one for the whole
comment.
-/

namespace IssueBridge.Header

open Text.Pattern

/-- In the usual notation, `\AComment \[\(ID (\d+)\)\|`. -/
def idPrefix : Text.Pattern :=
  inOrder [start, text "Comment [(ID ", group 1 (oneOrMore Text.isDigit), text ")|"]

/-- In the usual notation, where a dot stands for every character,
`\AComment \[\(ID (\d+)\)\|[^\]]*\] from GitHub user \[([^|\]]+)\|[^\]]*\](?: \((.*?)\))? at`
and behind it ` (.*?):\n\n(.*)\z`. -/
def fullHeader : Text.Pattern :=
  inOrder [start, text "Comment [(ID ", group 1 (oneOrMore Text.isDigit), text ")|",
    most (· ≠ ']'), text "] from GitHub user [", group 2 (oneOrMore fun c => c ≠ '|' ∧ c ≠ ']'),
    text "|", most (· ≠ ']'), text "]",
    maybe (inOrder [text " (", group 3 (fewest fun _ => true), text ")"]),
    text " at ", group 4 (fewest fun _ => true), text ":\n\n", group 5 (most fun _ => true), stop]

end IssueBridge.Header
