import IssueBridge.Header.Reader
import IssueBridge.Jira.TrackedField

/-!
# Failures

Why an operation failed, and in the course of what. The text of a failure names the outermost
operation first. Causes that lie outside the program have no text of their own.
-/

namespace IssueBridge

/-- What made an operation fail. -/
inductive Cause where
  /-- A server refused a request. -/
  | status (line : String) (body : String)
  /-- No attempt at a request succeeded in time. -/
  | retriesExhausted (attempts : UInt32) (last : String)
  /-- The time for a request was longer than a duration holds, which stops the program. -/
  | overflow
  /-- A request could not be sent, or its connection broke. -/
  | requestFailed
  /-- A response does not have the expected form. -/
  | undecodable
  | header (error : HeaderError)
  | missingField (field : Jira.TrackedField)
  /-- A file could not be read or written. -/
  | file
  /-- A configuration file does not have the expected form. -/
  | configFile
  | other (text : String)
  deriving DecidableEq, Inhabited

namespace Cause

def text? : Cause → Option String
  | status line body => some ("HTTP " ++ line ++ ": " ++ body)
  | retriesExhausted attempts last =>
    some ("gave up after " ++ toString attempts ++ " attempts: " ++ last)
  | overflow => some "overflow when adding durations"
  | requestFailed => some "request failed"
  | header error => some error.message
  | missingField field =>
    some ("could not find custom field '" ++ field.name ++ "'; check that it is named correctly")
  | other text => some text
  | undecodable | file | configFile => none

end Cause

/-- A cause and the operations that it stopped, the outermost first. -/
structure Failure where
  context : List String
  cause : Cause
  deriving DecidableEq, Inhabited

namespace Failure

/-- A failure without context. -/
def of (cause : Cause) : Failure :=
  ⟨[], cause⟩

/-- The failure in the course of one more operation. -/
def within (operation : String) (f : Failure) : Failure :=
  { f with context := operation :: f.context }

def message (f : Failure) : String :=
  String.intercalate ": " (f.context ++ f.cause.text?.toList)

end Failure

end IssueBridge
