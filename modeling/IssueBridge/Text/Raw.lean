/-!
# Texts as they arrive

Bytes that should spell a text may spell none. What they spell has gaps then.
-/

namespace IssueBridge

/-- The characters that some bytes spell, with a gap for each run of bytes that spells none. -/
structure RawText where
  chars : List (Option Char)
  deriving DecidableEq, Inhabited

namespace RawText

/-- A text without gaps. -/
def ofString (s : String) : RawText :=
  ⟨s.toList.map some⟩

instance : Coe String RawText :=
  ⟨ofString⟩

/-- The text for a reader, with a replacement character in each gap. -/
def shown (t : RawText) : String :=
  String.ofList (t.chars.map fun c => c.getD '\uFFFD')

end RawText

end IssueBridge
