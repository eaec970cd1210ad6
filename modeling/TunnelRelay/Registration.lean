import TunnelRelay.Scene

/-!
# Registrations

A socket's entry in the table of handlers: its token, and the interest that the poller knows of. The
poller accepts no empty interest, so a socket that waits for nothing is not known to it at all.
-/

namespace TunnelRelay

namespace Registry

def insert (r : Registry) (handler : Handler) : Nat × Registry :=
  (r.nextToken, ⟨r.handlers ++ [(r.nextToken, handler)], r.nextToken + 1⟩)

def erase (r : Registry) (token : Nat) : Registry :=
  { r with handlers := r.handlers.filter fun entry => entry.1 != token }

def get? (r : Registry) (token : Nat) : Option Handler := r.handlers.lookup token

def size (r : Registry) : Nat := r.handlers.length

end Registry

/-- A socket's token and the interest that the poller knows of. -/
structure Registration where
  token : Nat
  interest : Option Interest
  deriving DecidableEq, Repr

namespace Registration

variable {α σ : Type}

def describe (r : Registration) : String :=
  "Registration \x7b token: " ++ tokenText r.token ++ ", interest: " ++
    Interest.optionText r.interest ++ " \x7d"

def tellPoller (r : Registration) (socket : SocketId) (wanted : Option Interest) :
    Act α σ Outcome :=
  match r.interest, wanted with
  | none, some interest => Act.call (Host.register socket r.token interest)
  | some _, some interest => Act.call (Host.reregister socket r.token interest)
  | some _, none => Act.call (Host.deregister socket)
  | none, none => return none

/-- Changes the interest, or keeps the old one if the poller refuses. -/
def update (r : Registration) (socket : SocketId) (wanted : Option Interest) :
    Act α σ (Except ErrorKind Registration) := do
  if r.interest = wanted then
    return .ok r
  else
    Act.note (.interestChange r.token r.interest wanted)
    match ← r.tellPoller socket wanted with
    | some kind => return .error kind
    | none => return .ok { r with interest := wanted }

/-- Enters a socket into the table. A socket that the poller refuses has no entry. -/
def enter (socket : SocketId) (wanted : Option Interest) (handler : Handler) :
    Act α σ (Except ErrorKind Registration) := do
  let token ← modifyGet fun s =>
    let (token, registry) := s.registry.insert handler
    (token, { s with registry })
  match ← update ⟨token, none⟩ socket wanted with
  | .ok r => return .ok r
  | .error kind =>
    modify fun s => { s with registry := s.registry.erase token }
    return .error kind

/-- Removes a socket from the poller and from the table. -/
def cancel (r : Registration) (socket : SocketId) : Act α σ Registration := do
  let result ← r.update socket none
  if let .error kind := result then
    Act.note (.deregisterFailed r.token (.host kind))
  modify fun s => { s with registry := s.registry.erase r.token }
  return match result with
    | .ok cancelled => cancelled
    | .error _ => r

end Registration

/-- Waits for the readiness of sockets. An interrupted wait counts as one without signals. -/
def waitForSignals {α σ : Type} (timeout : Option Nat) :
    Act α σ (Except ErrorKind (List (Nat × Signal))) := do
  match ← Act.call (Host.poll timeout) with
  | .error .interrupted => return .ok []
  | result => return result

end TunnelRelay
