import TunnelRelay.Proofs.Flow.Basic
import TunnelRelay.Proofs.Polling

/-!
# Starting a flow

What is called when a flow of either protocol is started, read off once for all that is to be known
of it. A flow that cannot be started leaves nothing behind, and one that is started is as its
protocol says.
-/

namespace TunnelRelay

open Act

/-- A call that may be needed to start a flow. -/
def Event.starts : Event → Bool
  | connect _ _ | openDatagram _ _ | connectDatagram _ _ _ => true
  | register _ _ _ _ | close _ => true
  | _ => false

namespace Host

theorem clock_create (outcome : Outcome) (h : Host) : (h.create outcome).2.clock = h.clock := by
  cases outcome <;> rfl

/-- What is called when a flow is started, for which no time passes. -/
structure Attempts (h : Host) (calls : List Event) (h' : Host) : Prop where
  adds : h.Adds calls h'
  clock_eq : h'.clock = h.clock
  only : ∀ e ∈ calls, e.starts = true

variable {h h' h'' : Host} {calls more : List Event} {call : Event}

theorem Attempts.refl (h : Host) : h.Attempts [] h := ⟨.refl h, rfl, List.forall_mem_nil _⟩

theorem Creates.attempts {result : Except ErrorKind SocketId} (created : h.Creates call result h')
    (clock_eq : h'.clock = h.clock) (needed : call.starts = true) : h.Attempts [call] h' :=
  ⟨created.adds, clock_eq, List.forall_mem_singleton.2 needed⟩

theorem Attempts.after (hc : h.Attempts calls h') (called : h'.After more h'')
    (needed : ∀ e ∈ more, e.starts = true) : h.Attempts (calls ++ more) h'' where
  adds := hc.adds.trans called.adds
  clock_eq := called.clock_eq.trans hc.clock_eq
  only := List.forall_mem_append.2 ⟨hc.only, needed⟩

theorem Attempts.close (hc : h.Attempts calls h') (id : SocketId) :
    h.Attempts (calls ++ [.close id]) (h'.close id) := by
  have closed := (After.refl h').record (show (Event.close id).isCall = true from rfl)
  exact hc.after closed (by simp [Event.starts])

end Host

/-- The table is as before, or an entry was made in it and is gone again. -/
def Registry.Recovers (r r' : Registry) : Prop :=
  r' = r ∨ ∃ handler, r' = (r.insert handler).2.erase r.nextToken

theorem Registry.Recovers.handlers_subset {r r' : Registry} (h : r.Recovers r') :
    r'.handlers ⊆ r.handlers := by
  rcases h with rfl | ⟨handler, rfl⟩
  · exact List.Subset.refl _
  · exact handlers_erase_insert_subset handler

section

variable {α σ : Type} {session : Nat} {key : FlowKey} {request : Packet} {config : Config}
  {s t : Scene α σ}

/-- A TCP flow that is started has nothing behind it yet. -/
theorem TcpFlow.ensures_attempt {Q : Except Failure TcpFlow → Scene α σ → Prop}
    (failed : ∀ failure calls registry host, s.host.Attempts calls host →
      s.registry.Recovers registry → Q (.error failure) { s with registry, host })
    (opened : ∀ socket token reply ring calls registry host, s.host.Attempts calls host →
      Event.learnAll? socket none calls = some (some .writable) →
      Reply.ofRequest request = .ok (some reply) →
      StreamRing.ofCapacity config.streamCapacity = .ok ring →
      Q (.ok { key, socket, registration := ⟨token, some .writable⟩, reply, ring,
               maxPayload := config.maxTcpPayload }) { s with registry, host }) :
    Ensures (start session key request config) s Q := by
  simp only [start, ensures_bind, ensures_liftM]
  intro found prepared
  split
  · exact (ensures_pure _).2 (failed _ _ _ _ (.refl _) (.inl rfl))
  next reply =>
  have asked := (Host.creates_connect s.host key.destination).attempts (Host.clock_create _ _) rfl
  simp only [ensures_bind, ensures_call]
  split
  · exact (ensures_pure _).2 (failed _ _ _ _ asked (.inl rfl))
  next socket _ =>
  rw [ensures_bind]
  apply Registration.ensures_enter
  · intro host called
    have entered := asked.after (called.note (.flow key .connecting)) (by simp [Event.starts])
    simp only [ensures_bind, ensures_note, ensures_liftM, ensures_pure]
    intro ring made
    exact opened _ _ _ _ _ _ _ entered (by simp [Event.learnAll?, Event.learn?]) prepared made
  · intro kind host called
    have refused := asked.after called (by simp [Event.starts])
    simp only [ensures_bind, ensures_tell, ensures_pure]
    exact failed _ _ _ _ (refused.close _) (.inr ⟨_, rfl⟩)

/-- A UDP flow that is started has nothing behind it yet, and is in use from now on. -/
theorem UdpFlow.ensures_attempt {Q : Except Failure UdpFlow → Scene α σ → Prop}
    (failed : ∀ failure calls registry host, s.host.Attempts calls host →
      s.registry.Recovers registry → Q (.error failure) { s with registry, host })
    (opened : ∀ socket token reply ring calls registry host, s.host.Attempts calls host →
      Event.learnAll? socket none calls = some (some .readable) →
      Reply.ofRequest request = .ok (some reply) →
      DatagramRing.ofCapacity config.datagramCapacity = .ok ring →
      Q (.ok { key, socket, registration := ⟨token, some .readable⟩, reply, ring,
               idleSince := s.host.clock, idleTimeout := config.udpIdleTimeout })
        { s with registry, host }) :
    Ensures (start session key request config) s Q := by
  simp only [start, ensures_bind, ensures_liftM]
  intro found prepared
  split
  · exact (ensures_pure _).2 (failed _ _ _ _ (.refl _) (.inl rfl))
  next reply =>
  have created := (Host.creates_openDatagram s.host).attempts (Host.clock_create _ _) rfl
  simp only [ensures_bind, ensures_call]
  split
  · exact (ensures_pure _).2 (failed _ _ _ _ created (.inl rfl))
  next socket _ =>
  have asked := created.after ((Host.After.refl _).connectDatagram socket key.destination)
    (by simp [Event.starts])
  simp only [ensures_bind, ensures_call]
  split
  · simp only [ensures_bind, ensures_tell, ensures_pure]
    exact failed _ _ _ _ (asked.close _) (.inl rfl)
  rw [ensures_bind]
  apply Registration.ensures_enter
  · intro host called
    have entered := asked.after (called.note (.flow key .opened)) (by simp [Event.starts])
    simp only [ensures_bind, ensures_note, ensures_liftM, ensures_now, ensures_pure]
    intro ring made
    rw [entered.clock_eq]
    exact opened _ _ _ _ _ _ _ entered (by simp [Event.learnAll?, Event.learn?]) prepared made
  · intro kind host called
    have refused := asked.after called (by simp [Event.starts])
    simp only [ensures_bind, ensures_tell, ensures_pure]
    exact failed _ _ _ _ (refused.close _) (.inr ⟨_, rfl⟩)

theorem TcpFlow.eq_of_start {f : TcpFlow}
    (started : start session key request config s = .ok (.ok f, t)) :
    ∃ socket token reply ring, Reply.ofRequest request = .ok (some reply) ∧
      StreamRing.ofCapacity config.streamCapacity = .ok ring ∧
      f = { key, socket, registration := ⟨token, some .writable⟩, reply, ring,
            maxPayload := config.maxTcpPayload } := by
  have all : Ensures (start session key request config) s fun result _ => ∀ f, result = .ok f →
      ∃ socket token reply ring, Reply.ofRequest request = .ok (some reply) ∧
        StreamRing.ofCapacity config.streamCapacity = .ok ring ∧
        f = { key, socket, registration := ⟨token, some .writable⟩, reply, ring,
              maxPayload := config.maxTcpPayload } := by
    apply ensures_attempt
    · rintro failure calls registry host - - _ ⟨⟩
    · rintro socket token reply ring calls registry host - - prepared made _ ⟨⟩
      exact ⟨socket, token, reply, ring, prepared, made, rfl⟩
  exact all _ _ started f rfl

theorem UdpFlow.eq_of_start {f : UdpFlow}
    (started : start session key request config s = .ok (.ok f, t)) :
    ∃ socket token reply ring, Reply.ofRequest request = .ok (some reply) ∧
      DatagramRing.ofCapacity config.datagramCapacity = .ok ring ∧
      f = { key, socket, registration := ⟨token, some .readable⟩, reply, ring,
            idleSince := s.host.clock, idleTimeout := config.udpIdleTimeout } := by
  have all : Ensures (start session key request config) s fun result _ => ∀ f, result = .ok f →
      ∃ socket token reply ring, Reply.ofRequest request = .ok (some reply) ∧
        DatagramRing.ofCapacity config.datagramCapacity = .ok ring ∧
        f = { key, socket, registration := ⟨token, some .readable⟩, reply, ring,
              idleSince := s.host.clock, idleTimeout := config.udpIdleTimeout } := by
    apply ensures_attempt
    · rintro failure calls registry host - - _ ⟨⟩
    · rintro socket token reply ring calls registry host - - prepared made _ ⟨⟩
      exact ⟨socket, token, reply, ring, prepared, made, rfl⟩
  exact all _ _ started f rfl

/-- Whatever comes of starting a flow, no time passes, and nothing is left behind by a failure. -/
theorem Flow.ensures_attempt {Q : Except Failure Flow → Scene α σ → Prop}
    (failed : ∀ failure calls registry host, s.host.Attempts calls host →
      s.registry.Recovers registry → Q (.error failure) { s with registry, host })
    (opened : ∀ f calls registry host, s.host.Attempts calls host →
      Event.learnAll? f.socket none calls = some f.registration.interest →
      Q (.ok f) { s with registry, host }) :
    Ensures (start session key request config) s Q := by
  unfold start
  split
  · simp only [ensures_bind, ensures_pure]
    apply TcpFlow.ensures_attempt
    · exact failed
    · exact fun socket token reply ring calls registry host attempts learned _ _ =>
        opened (.tcp _) calls registry host attempts learned
  · simp only [ensures_bind, ensures_pure]
    apply UdpFlow.ensures_attempt
    · exact failed
    · exact fun socket token reply ring calls registry host attempts learned _ _ =>
        opened (.udp _) calls registry host attempts learned

/-- Only a flow of the key's protocol is started. -/
theorem Flow.eq_of_start {f : Flow} (started : start session key request config s = .ok (.ok f, t)) :
    (∃ g, f = .tcp g ∧ key.protocol = .tcp ∧
      TcpFlow.start session key request config s = .ok (.ok g, t)) ∨
    ∃ g, f = .udp g ∧ key.protocol = .udp ∧
      UdpFlow.start session key request config s = .ok (.ok g, t) := by
  have all : Ensures (start session key request config) s fun result t => ∀ f, result = .ok f →
      (∃ g, f = .tcp g ∧ key.protocol = .tcp ∧
        TcpFlow.start session key request config s = .ok (.ok g, t)) ∨
      ∃ g, f = .udp g ∧ key.protocol = .udp ∧
        UdpFlow.start session key request config s = .ok (.ok g, t) := by
    unfold start
    split
    · next protocol =>
      simp only [ensures_bind, ensures_pure]
      rintro (failure | g) t started _ ⟨⟩
      exact .inl ⟨g, rfl, protocol, started⟩
    · next protocol =>
      simp only [ensures_bind, ensures_pure]
      rintro (failure | g) t started _ ⟨⟩
      exact .inr ⟨g, rfl, protocol, started⟩
  exact all _ _ started f rfl

end

end TunnelRelay
