import TunnelRelay.Host.Basic

/-!
# Scenes and actions

A component of the relay works on a scene: its own state, the table of handlers, the way out to the
device, and the host. An action changes the scene and yields a value, or stops at a fault.
-/

namespace TunnelRelay

/-- Who is told about the readiness of a socket. -/
inductive Handler where
  | listener
  | session (id : Nat)
  | flow (session : Nat) (key : FlowKey)
  deriving DecidableEq

def Handler.text : Handler → String
  | listener => "Listener"
  | session id => "Client(" ++ toString id ++ ")"
  | flow id key => "Connection(" ++ toString id ++ ", " ++ key.text ++ ")"

/-- The table of handlers by token. Tokens are handed out in order and never twice. -/
structure Registry where
  handlers : List (Nat × Handler) := []
  nextToken : Nat := 0
  deriving DecidableEq

/-- What a component with state `α` and a way out of type `σ` works on. -/
structure Scene (α σ : Type) where
  self : α
  registry : Registry
  out : σ
  host : Host

/-- A step of a component. -/
abbrev Act (α σ β : Type) := StateT (Scene α σ) (Except Fault) β

/-- What a round of a loop asks for. -/
inductive Round (β γ : Type) where
  | again (value : β)
  | done (result : γ)

namespace Act

variable {α β σ γ : Type}

def self : Act α σ α := do return (← get).self

def setSelf (a : α) : Act α σ Unit := modify fun s => { s with self := a }

def modifySelf (f : α → α) : Act α σ Unit := modify fun s => { s with self := f s.self }

def call (f : Host → β × Host) : Act α σ β :=
  modifyGet fun s => let (b, host) := f s.host; (b, { s with host })

/-- A change of the host that yields nothing. -/
def tell (f : Host → Host) : Act α σ Unit := modify fun s => { s with host := f s.host }

def note (notice : Notice) : Act α σ Unit := tell (Host.record (.notice notice))

def now : Act α σ Nat := do return (← get).host.clock

/-- Runs an action of another component in its place, and yields that component's new state too. -/
def runOn (part : β) (act : Act β σ γ) : Act α σ (γ × β) := fun s => do
  let (c, t) ← act { s with self := part }
  return ((c, t.self), { t with self := s.self })

/-- Runs an action of a part of the component. -/
def on (part : α → β) (put : β → α → α) (act : Act β σ γ) : Act α σ γ := do
  let (c, b) ← runOn (part (← self)) act
  modifySelf (put b)
  return c

/-- Repeats `step` on the value it asks to go on with. More than `bound` rounds are a fault. -/
def iterate : Nat → (β → Act α σ (Round β γ)) → β → Act α σ γ
  | 0, _, _ => throw .unbounded
  | bound + 1, step, b => do
    match ← step b with
    | .again b => iterate bound step b
    | .done c => return c

end Act

end TunnelRelay
