import IssueBridge.Dictionary
import IssueBridge.Pass.Action
import IssueBridge.Text.Cut

/-!
# Stores

A store keeps one text between runs: in memory, or in a file.
-/

namespace IssueBridge

/-- A place that keeps one text. -/
structure Store (σ : Type) where
  /-- The text that is kept, if there is one. -/
  read : Call σ (Option String)
  /-- Keeps a text in place of the one before. -/
  write : String → Call σ Unit

/-- A place in memory. -/
structure Slot where
  contents : Option String := none
  /-- Why it keeps nothing new, while it does not. -/
  fault : Option String := none
  deriving DecidableEq, Inhabited

namespace Slot

def store : Store Slot where
  read := ExceptT.lift (onState fun s => (s.contents, s))
  write text := ExceptT.mk (onState fun s =>
    match s.fault with
    | some reason => (.error (Failure.of (.other reason)), s)
    | none => (.ok (), { s with contents := some text }))

end Slot

/-- What stands at a path. -/
inductive Entry where
  | file (contents : String)
  | folder
  /-- A file that cannot be read. -/
  | unreadable
  deriving DecidableEq, Inhabited

/-- A file system. -/
abbrev Disk := Dictionary Entry

namespace Disk

def contents? (d : Disk) (path : String) : Option String :=
  match d.get? path with
  | some (.file text) => some text
  | _ => none

/-- The paths of the folders above a path, the nearest last. -/
def above (path : String) : List String :=
  let parts := Text.pieces '/' path.toList
  let ends := (List.range parts.length).tail.map fun n =>
    String.ofList (['/'].intercalate (parts.take n))
  ends.filter (· ≠ "")

/-- The file system with the folders above a path, unless a file is in the way. -/
def makeFolders (d : Disk) (path : String) : Option Disk :=
  (above path).foldlM (fun d folder =>
    match d.get? folder with
    | some .folder => some d
    | some _ => none
    | none => some (d.insert folder .folder)) d

/-- The file system after a text is written to a path that is not a folder. -/
def write (d : Disk) (path text : String) : Option Disk :=
  match d.get? path with
  | some .folder => none
  | _ => some (d.insert path (.file text))

def store (path : String) : Store Disk where
  read := ExceptT.mk (onState fun d =>
    match d.get? path with
    | none => (.ok none, d)
    | some (.file text) => (.ok (some text), d)
    | some _ => (.error (.within ("Failed to read " ++ path) (.of .file)), d))
  write text := ExceptT.mk (onState fun d =>
    match d.makeFolders path with
    | none => (.error (.of .file), d)
    | some d =>
      match d.write path text with
      | none => (.error (.within ("Failed to write " ++ path) (.of .file)), d)
      | some d => (.ok (), d))

end Disk

end IssueBridge
