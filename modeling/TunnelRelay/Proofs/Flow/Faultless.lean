import TunnelRelay.Proofs.Flow.Tcp.Faultless
import TunnelRelay.Proofs.Flow.Udp.Faultless
import TunnelRelay.Proofs.FlowTable

/-!
# Flow tables stop at no fault

All flows of a table are fit, whatever happens to any of them, and a packet that opens a new one is
answered by a flow that is fit. The buffers of a new flow have to be such as a machine can provide.
-/

namespace TunnelRelay

open Act

/-- What acts on a part of the component leaves everything but that part as it was. -/
theorem Works.part {α β : Type} {Fit : α → Prop} {Fit' : β → Prop} {s : Scene α Outbox}
    {t u : Scene β Outbox} {a : α} (works : Works Fit' t u) (fit : Fit a)
    (same : s.budget = t.budget) (host : s.host = t.host) : Works Fit s { u with self := a } :=
  ⟨⟨fit, works.sound⟩, host ▸ works.spends, same ▸ works.budget_le⟩

namespace Flow

def Fit : Flow → Prop
  | tcp f => f.Fit
  | udp f => f.Fit

variable {s : Scene Flow Outbox}

theorem achieves_byProtocol {onTcp : Act TcpFlow Outbox Unit} {onUdp : Act UdpFlow Outbox Unit}
    (ready : Ready Fit s)
    (tcp : ∀ {f}, Ready TcpFlow.Fit { s with self := f } →
      Achieves onTcp { s with self := f } fun _ t => Works TcpFlow.Fit { s with self := f } t)
    (udp : ∀ {f}, Ready UdpFlow.Fit { s with self := f } →
      Achieves onUdp { s with self := f } fun _ t => Works UdpFlow.Fit { s with self := f } t) :
    Achieves (byProtocol onTcp onUdp) s fun _ t => Works Fit s t := by
  have fit := ready.fit
  simp only [byProtocol, achieves_bind, achieves_self]
  cases flow : s.self with
  | tcp f =>
    rw [flow] at fit
    refine achieves_on.2 ((tcp ⟨fit, ready.sound⟩).mono fun _ t works => ?_)
    exact works.part works.fit rfl rfl
  | udp f =>
    rw [flow] at fit
    refine achieves_on.2 ((udp ⟨fit, ready.sound⟩).mono fun _ t works => ?_)
    exact works.part works.fit rfl rfl

theorem achieves_disconnect (ready : Ready Fit s) :
    Achieves disconnect s fun _ t => Works Fit s t :=
  achieves_byProtocol ready
    (fun ready => (TcpFlow.achieves_close (.refl ready)).mono fun _ _ closed => closed.1)
    (fun ready => (UdpFlow.achieves_disconnect (.refl ready)).mono fun _ _ closed => closed.1)

theorem achieves_receive {packet : Packet} (ready : Ready Fit s) (judged : packet.Judged) :
    Achieves (receive packet) s fun _ t => Works Fit s t :=
  achieves_byProtocol ready (fun ready => TcpFlow.achieves_receive (.refl ready) judged)
    (fun ready => UdpFlow.achieves_receive (.refl ready) judged)

theorem achieves_onReady {readiness : Readiness} (ready : Ready Fit s) :
    Achieves (onReady readiness) s fun _ t => Works Fit s t :=
  achieves_byProtocol ready (fun ready => TcpFlow.achieves_onReady (.refl ready))
    (fun ready => UdpFlow.achieves_onReady (.refl ready))

theorem achieves_pull (ready : Ready Fit s) (room : maxPacketLength ≤ s.out.ring.remaining) :
    Achieves pull s fun _ t => Works Fit s t :=
  achieves_byProtocol ready (fun ready => TcpFlow.achieves_pull (.refl ready) room)
    (fun ready => UdpFlow.achieves_pull (.refl ready) room)

end Flow

/-- A machine can provide buffers of the sizes that were set. -/
structure Config.Affordable (c : Config) : Prop where
  stream : c.streamCapacity + 1 < bufferLimit
  datagram : c.datagramCapacity + 1 + recordHeader + maxDatagramLength < bufferLimit
  tunnel : c.tunnelCapacity + 1 < bufferLimit

/-- A flow that was opened is fit, whatever it took to open it. -/
theorem Flow.fit_of_start {α σ : Type} {s t : Scene α σ} {session : Nat} {key : FlowKey}
    {bytes : Bytes} {request : Packet} {config : Config} {f : Flow}
    (parsed : Packet.ofBytes bytes = .ok request)
    (started : start session key request config s = .ok (.ok f, t)) : f.Fit := by
  rcases eq_of_start started with ⟨g, rfl, -, started⟩ | ⟨g, rfl, -, started⟩
  · exact TcpFlow.fit_of_start parsed started
  · exact UdpFlow.fit_of_start parsed started

/-- A flow for any packet can be opened, unless the host refuses to. -/
theorem Flow.achieves_start {α σ : Type} {s : Scene α σ} {session : Nat} {key : FlowKey}
    {bytes : Bytes} {request : Packet} {config : Config} (parsed : Packet.ofBytes bytes = .ok request)
    (affordable : config.Affordable) :
    Achieves (start session key request config) s fun _ t =>
      ∃ registry host, t = { s with registry, host } ∧ s.host.Spends host := by
  unfold start
  split
  · simp only [achieves_bind, achieves_pure]
    exact TcpFlow.achieves_start parsed affordable.stream
  · simp only [achieves_bind, achieves_pure]
    exact UdpFlow.achieves_start parsed affordable.datagram

namespace FlowTable

/-- All flows are fit, and more of them can be opened. -/
structure Fit (t : FlowTable) : Prop where
  affordable : t.config.Affordable
  flows : ∀ f ∈ t.flows, f.Fit

/-- Whatever else `P` says of a table, all of its flows are fit, and it does not matter which. -/
structure Keeps (P : FlowTable → Prop) : Prop where
  fit {t : FlowTable} (h : P t) : ∀ f ∈ t.flows, f.Fit
  replaced {t : FlowTable} {flows : List Flow} (h : P t) (fit : ∀ f ∈ flows, f.Fit) :
    P { t with flows }

theorem keeps_fit : Keeps Fit := ⟨fun h => h.flows, fun h flows => ⟨h.affordable, flows⟩⟩

section

variable {P : FlowTable → Prop} {s t : Scene FlowTable Outbox} {i : Nat} {key : FlowKey}

theorem achieves_removeIfClosed (keeps : Keeps P) (works : Works P s t) :
    Achieves (removeIfClosed i) t fun _ u => Works P s u := by
  simp only [removeIfClosed, achieves_bind, achieves_self]
  split
  · exact (achieves_pure _).2 works
  next flow found =>
  split
  · simp only [achieves_bind, achieves_modifySelf, achieves_note, achieves_tell]
    have hi : i < t.self.flows.length := (List.getElem?_eq_some_iff.1 found).1
    refine works.call (keeps.replaced works.fit fun f hf => keeps.fit works.fit f ?_)
      ((Host.spends_record _ _).trans (Host.spends_close _ _))
    exact List.mem_of_mem_eraseIdx ((swapRemove_perm hi).subset hf)
  · exact (achieves_pure _).2 works

/-- A flow that is fit after it acted leaves the table as fit as it was. -/
theorem achieves_onFlow {act : Act Flow Outbox Unit} (keeps : Keeps P) (works : Works P s t)
    (acts : ∀ {f}, Ready Flow.Fit { t with self := f } →
      Achieves act { t with self := f } fun _ u => Works Flow.Fit { t with self := f } u) :
    Achieves (onFlow i act) t fun _ u => Works P s u := by
  simp only [onFlow, achieves_bind, achieves_self]
  split
  · exact (achieves_pure _).2 works
  next flow found =>
  simp only [achieves_bind, achieves_runOn, achieves_modifySelf]
  have fit := keeps.fit works.fit flow (List.mem_of_getElem? found)
  refine (acts ⟨fit, works.sound⟩).mono fun _ u acted => ?_
  have table : P { t.self with flows := t.self.flows.set i u.self } := by
    refine keeps.replaced works.fit fun f hf => ?_
    rcases List.mem_or_eq_of_mem_set hf with old | rfl
    · exact keeps.fit works.fit f old
    · exact acted.fit
  exact achieves_removeIfClosed keeps (works.trans (acted.part table rfl rfl))

theorem achieves_onReady {readiness : Readiness} (keeps : Keeps P) (works : Works P s t) :
    Achieves (onReady key readiness) t fun _ u => Works P s u := by
  simp only [onReady, achieves_bind, achieves_self]
  split
  · exact (achieves_note _).2 works.record
  · exact achieves_onFlow keeps works fun ready => Flow.achieves_onReady ready

theorem achieves_pull (keeps : Keeps P) (works : Works P s t)
    (room : maxPacketLength ≤ t.out.ring.remaining) :
    Achieves (pull key) t fun _ u => Works P s u := by
  simp only [pull, achieves_bind, achieves_self]
  split
  · exact (achieves_pure _).2 works
  · exact achieves_onFlow keeps works fun ready => Flow.achieves_pull ready room

end

variable {s t : Scene FlowTable Outbox}

theorem achieves_send {bytes : Bytes} {packet : Packet} (works : Works Fit s t)
    (parsed : Packet.ofBytes bytes = .ok packet) :
    Achieves (send packet) t fun _ u => Works Fit s u := by
  have judged := Packet.judged_of_ofBytes parsed
  obtain ⟨key, key_eq, -⟩ := judged.flowKey_isOk
  simp only [send, achieves_bind, achieves_self, achieves_liftM]
  refine ⟨key, key_eq, ?_⟩
  split
  · simp only [achieves_bind, achieves_note]
    exact works.record.record
  split
  · exact achieves_onFlow keeps_fit works fun ready => Flow.achieves_receive ready judged
  rw [achieves_bind]
  have fits {key : FlowKey} : Ensures (Flow.start t.self.session key packet t.self.config) t
      fun result _ => ∀ f, result = .ok f → f.Fit := by
    rintro _ _ started f rfl
    exact Flow.fit_of_start parsed started
  refine ((Flow.achieves_start parsed works.fit.affordable).and fits).mono ?_
  rintro (failure | f) _ ⟨⟨registry, host, rfl, spends⟩, fit⟩
  · exact (achieves_note _).2 (works.call works.fit spends).record
  · simp only [achieves_bind, achieves_modifySelf]
    have table : Fit { t.self with flows := t.self.flows ++ [f] } := by
      refine ⟨works.fit.affordable, fun g hg => ?_⟩
      rcases List.mem_append.1 hg with old | new
      · exact works.fit.flows g old
      · exact List.mem_singleton.1 new ▸ fit f rfl
    exact achieves_onFlow keeps_fit (works.call table spends) fun ready =>
      Flow.achieves_receive ready judged

theorem achieves_disconnectAll {flows : List Flow} (works : Works Fit s t)
    (fit : ∀ f ∈ flows, f.Fit) : Achieves (disconnectAll flows) t fun _ u => Works Fit s u := by
  induction flows generalizing t with
  | nil => exact (achieves_pure _).2 works
  | cons flow rest ih =>
    simp only [disconnectAll, achieves_bind, achieves_runOn]
    have ready : Ready Flow.Fit { t with self := flow } :=
      ⟨fit flow List.mem_cons_self, works.sound⟩
    refine (Flow.achieves_disconnect ready).mono fun _ u acted => ?_
    exact ih (works.trans (acted.part works.fit rfl rfl)) fun f hf => fit f (List.mem_cons_of_mem _ hf)

theorem achieves_closeSockets {flows : List Flow} (works : Works Fit s t) :
    Achieves (closeSockets flows) t fun _ u => Works Fit s u := by
  induction flows generalizing t with
  | nil => exact (achieves_pure _).2 works
  | cons flow rest ih =>
    simp only [closeSockets, achieves_bind, achieves_tell]
    exact ih (works.call works.fit (Host.spends_close _ _))

theorem achieves_clear (works : Works Fit s t) : Achieves clear t fun _ u => Works Fit s u := by
  simp only [clear, achieves_bind, achieves_self]
  refine (achieves_disconnectAll works works.fit.flows).mono fun _ u works => ?_
  refine (achieves_closeSockets works).mono fun _ v works => ?_
  exact (achieves_modifySelf _).2 (works.become ⟨works.fit.affordable, List.forall_mem_nil _⟩)

theorem achieves_keepUnexpired {now : Nat} {flows : List Flow} (works : Works Fit s t)
    (fit : ∀ f ∈ flows, f.Fit) :
    Achieves (keepUnexpired now flows) t fun kept u => Works Fit s u ∧ ∀ f ∈ kept, f.Fit := by
  induction flows generalizing t with
  | nil => exact (achieves_pure _).2 ⟨works, List.forall_mem_nil _⟩
  | cons flow rest ih =>
    obtain ⟨first, others⟩ := List.forall_mem_cons.1 fit
    unfold keepUnexpired
    split
    · simp only [achieves_bind, achieves_note, achieves_runOn, achieves_tell]
      have ready : Ready Flow.Fit { t with
          self := flow, host := t.host.record (.notice (.flow flow.key .expired)) } :=
        ⟨first, works.sound⟩
      refine (Flow.achieves_disconnect ready).mono fun _ u acted => ?_
      have ended := works.record.trans (acted.part works.fit rfl rfl)
      exact ih (ended.call ended.fit (Host.spends_close _ _)) others
    · rw [achieves_bind]
      refine (ih works others).mono ?_
      rintro kept u ⟨works, rest⟩
      exact (achieves_pure _).2 ⟨works, List.forall_mem_cons.2 ⟨first, rest⟩⟩

theorem achieves_sweep {now : Nat} (works : Works Fit s t) :
    Achieves (sweep now) t fun _ u => Works Fit s u := by
  simp only [sweep, achieves_bind, achieves_self]
  refine (achieves_keepUnexpired works works.fit.flows).mono ?_
  rintro kept u ⟨works, fit⟩
  exact (achieves_modifySelf _).2 (works.become ⟨works.fit.affordable, fit⟩)

end FlowTable

end TunnelRelay
