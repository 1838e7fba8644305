import IssueBridge.Cutoff.Store
import IssueBridge.Http.Script

/-!
# Machines

What the program runs on: a file system, and a server that may listen somewhere.
-/

namespace IssueBridge

/-- A file system and a server. -/
structure Machine where
  disk : Disk
  server : Http.Script
  deriving Inhabited

namespace Machine

def putDisk (disk : Disk) (m : Machine) : Machine :=
  { m with disk }

def putServer (server : Http.Script) (m : Machine) : Machine :=
  { m with server }

def transport : Http.Transport Machine where
  attempt r limit := (Http.Script.transport.attempt r limit).onPart Machine.server putServer
  wait time := (Http.Script.transport.wait time).onPart Machine.server putServer

def store (path : String) : Store Machine where
  read := (Disk.store path).read.onPart Machine.disk putDisk
  write text := ((Disk.store path).write text).onPart Machine.disk putDisk

end Machine

end IssueBridge
