/-!
# Interest and readiness

What a socket wants to hear from the poller, and what the poller reports about it.
-/

namespace TunnelRelay

/-- The directions in which a socket waits to become ready, at least one of them. -/
inductive Interest where
  | readable
  | writable
  | both
  deriving DecidableEq, Repr

namespace Interest

/-- The interest in the given directions, if there is any. -/
def of? (read write : Bool) : Option Interest :=
  match read, write with
  | true, true => some both
  | true, false => some readable
  | false, true => some writable
  | false, false => none

def reads : Interest → Bool
  | writable => false
  | _ => true

def writes : Interest → Bool
  | readable => false
  | _ => true

def text : Interest → String
  | readable => "READABLE"
  | writable => "WRITABLE"
  | both => "READABLE | WRITABLE"

def optionText : Option Interest → String
  | none => "None"
  | some i => "Some(" ++ i.text ++ ")"

end Interest

/-- The conditions that the poller can report of a socket. -/
structure Signal where
  readable : Bool := false
  writable : Bool := false
  error : Bool := false
  readClosed : Bool := false
  writeClosed : Bool := false
  deriving DecidableEq, Repr

/-- What the owner of a socket acts on. -/
structure Readiness where
  readable : Bool := false
  writable : Bool := false
  error : Bool := false
  deriving DecidableEq, Repr

/-- A socket that was closed or failed counts as readable, or writable, so that its owner finds out
at the next call. -/
def Readiness.ofSignal (s : Signal) : Readiness where
  readable := s.readable || s.readClosed || s.error
  writable := s.writable || s.writeClosed
  error := s.error

end TunnelRelay
