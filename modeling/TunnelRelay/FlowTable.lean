import TunnelRelay.Flow.Basic

/-!
# Flow tables

The flows of a session. A packet goes to the flow of its key, and the first packet of a key opens
one. A flow that has ended leaves the table, and the last flow takes its place.
-/

namespace TunnelRelay

structure FlowTable where
  session : Nat
  config : Config
  flows : List Flow := []

/-- The list without the element at `i`, whose place the last element takes. -/
def swapRemove {α : Type} (xs : List α) (i : Nat) : List α :=
  match xs.getLast? with
  | none => xs
  | some last => (xs.set i last).dropLast

namespace FlowTable

variable {σ : Type}

def find? (t : FlowTable) (key : FlowKey) : Option Nat := t.flows.findIdx? fun f => f.key == key

def disconnectAll : List Flow → Act FlowTable σ Unit
  | [] => return ()
  | flow :: rest => do
    let _ ← Act.runOn flow Flow.disconnect
    disconnectAll rest

def closeSockets : List Flow → Act FlowTable σ Unit
  | [] => return ()
  | flow :: rest => do
    Act.tell (Host.close flow.socket)
    closeSockets rest

def clear : Act FlowTable σ Unit := do
  let flows := (← Act.self).flows
  disconnectAll flows
  closeSockets flows
  Act.modifySelf fun t => { t with flows := [] }

/-- Ends the expired flows of a list and yields the others. -/
def keepUnexpired (now : Nat) : List Flow → Act FlowTable σ (List Flow)
  | [] => return []
  | flow :: rest => do
    if flow.isExpired now then
      Act.note (.flow flow.key .expired)
      let _ ← Act.runOn flow Flow.disconnect
      Act.tell (Host.close flow.socket)
      keepUnexpired now rest
    else
      return flow :: (← keepUnexpired now rest)

def sweep (now : Nat) : Act FlowTable σ Unit := do
  let flows ← keepUnexpired now (← Act.self).flows
  Act.modifySelf fun t => { t with flows }

def removeIfClosed (i : Nat) : Act FlowTable σ Unit := do
  match (← Act.self).flows[i]? with
  | none => return ()
  | some flow =>
    if flow.isClosed then
      Act.modifySelf fun t => { t with flows := swapRemove t.flows i }
      Act.note (.flow flow.key .removed)
      Act.tell (Host.close flow.socket)
    else
      return ()

/-- Lets the flow at `i` act, and removes it if that ends it. -/
def onFlow (i : Nat) (act : Act Flow σ Unit) : Act FlowTable σ Unit := do
  match (← Act.self).flows[i]? with
  | none => return ()
  | some flow =>
    let (_, flow) ← Act.runOn flow act
    Act.modifySelf fun t => { t with flows := t.flows.set i flow }
    removeIfClosed i

variable [Outlet σ]

def send (packet : Packet) : Act FlowTable σ Unit := do
  let t ← Act.self
  match ← FlowKey.ofPacket packet with
  | none =>
    Act.note (.session t.session (.unsupported packet.length))
    Act.note (.session t.session (.unsupportedContent packet.bytes))
  | some key =>
    match t.find? key with
    | some i => onFlow i (Flow.receive packet)
    | none =>
      match ← Flow.start t.session key packet t.config with
      | .error failure => Act.note (.flow key (.openFailed failure))
      | .ok flow =>
        Act.modifySelf fun t => { t with flows := t.flows ++ [flow] }
        onFlow t.flows.length (Flow.receive packet)

def onReady (key : FlowKey) (readiness : Readiness) : Act FlowTable σ Unit := do
  match (← Act.self).find? key with
  | none => Act.note (.flow key .staleEvent)
  | some i => onFlow i (Flow.onReady readiness)

def pull (key : FlowKey) : Act FlowTable σ Unit := do
  match (← Act.self).find? key with
  | none => return ()
  | some i => onFlow i Flow.pull

end FlowTable

end TunnelRelay
