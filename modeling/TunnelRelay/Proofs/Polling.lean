import TunnelRelay.Proofs.SocketCalls

/-!
# What the poller learns of a socket

Only a socket that the poller does not know can be registered, and only one that it knows can be
registered again or deregistered. A registration keeps to this, so that the poller knows the interest
that the registration says, whichever of its calls are refused.
-/

namespace TunnelRelay

namespace Event

/-- What the poller knows of a socket after a call, if the call fits what it knew before. A call that it
refuses changes nothing. -/
def learn? (socket : SocketId) (known : Option Interest) : Event → Option (Option Interest)
  | register other _ interest outcome =>
    if other ≠ socket then some known
    else if known.isSome then none
    else some (if outcome = none then some interest else known)
  | reregister other _ interest outcome =>
    if other ≠ socket then some known
    else if known.isNone then none
    else some (if outcome = none then some interest else known)
  | deregister other outcome =>
    if other ≠ socket then some known
    else if known.isNone then none
    else some (if outcome = none then none else known)
  | _ => some known

/-- What the poller knows of a socket after some calls, all of which fit. -/
def learnAll? (socket : SocketId) (known : Option Interest) (calls : List Event) :
    Option (Option Interest) := calls.foldlM (learn? socket) known

/-- The poller refused the call. -/
def isRefusal : Event → Bool
  | register _ _ _ (some _) | reregister _ _ _ (some _) | deregister _ (some _) => true
  | _ => false

variable {socket : SocketId} {known between after : Option Interest} {first second calls : List Event}
  {e : Event}

theorem learnAll?_append (h : learnAll? socket known first = some between)
    (h' : learnAll? socket between second = some after) :
    learnAll? socket known (first ++ second) = some after := by
  rw [learnAll?, List.foldlM_append, ← learnAll?, h]
  exact h'

theorem learnAll?_singleton : learnAll? socket known [e] = learn? socket known e := by
  simp [learnAll?]

theorem learn?_of_spares (h : e.Spares socket) : e.learn? socket known = some known := by
  cases e with
  | register other | reregister other | deregister other =>
    have ne : other ≠ socket := fun same => h (congrArg some same)
    simp [learn?, ne]
  | _ => rfl

theorem learnAll?_of_learn? (h : ∀ e ∈ calls, e.learn? socket known = some known) :
    learnAll? socket known calls = some known := by
  induction calls with
  | nil => rfl
  | cons e rest ih =>
    obtain ⟨first, rest⟩ := List.forall_mem_cons.1 h
    rw [learnAll?, List.foldlM_cons, first]
    exact ih rest

/-- Calls on other sockets tell the poller nothing of this one. -/
theorem learnAll?_of_spares (h : ∀ e ∈ calls, e.Spares socket) :
    learnAll? socket known calls = some known :=
  learnAll?_of_learn? fun e mem => learn?_of_spares (h e mem)

end Event

namespace Registry

variable {r : Registry}

theorem handlers_erase_subset (token : Nat) : (r.erase token).handlers ⊆ r.handlers :=
  fun _ mem => (List.mem_filter.1 mem).1

/-- A token that has been erased has no entry, whatever else is erased. -/
theorem get?_eq_none_of_subset {r' : Registry} {token : Nat}
    (h : r'.handlers ⊆ (r.erase token).handlers) : r'.get? token = none := by
  refine List.lookup_eq_none_iff.2 fun entry mem => ?_
  have ne : (entry.1 != token) = true := (List.mem_filter.1 (h mem)).2
  rwa [bne_comm] at ne

theorem handlers_erase_insert_subset (handler : Handler) :
    ((r.insert handler).2.erase r.nextToken).handlers ⊆ r.handlers := by
  intro entry mem
  obtain ⟨among, ne⟩ := List.mem_filter.1 mem
  rcases List.mem_append.1 among with old | new
  · exact old
  · rw [List.mem_singleton.1 new, bne_self_eq_false] at ne
    cases ne

end Registry

/-- What comes of starting something on a socket that the poller does not know. The poller knows what
the registration says then, or there is no new entry among the handlers. -/
inductive Introduces (r : Registry) (calls : List Event) (r' : Registry) :
    Except Failure (SocketId × Registration) → Prop where
  | known {socket : SocketId} {registration : Registration}
      (learned : Event.learnAll? socket none calls = some registration.interest) :
      Introduces r calls r' (.ok (socket, registration))
  | failed {failure : Failure} (handlers : r'.handlers ⊆ r.handlers) :
      Introduces r calls r' (.error failure)

namespace Registration

variable {r r' : Registration} {socket : SocketId} {call : Option Event}

/-- The poller is only told what fits, and knows what the registration says afterwards. -/
theorem learn?_pollerCall {wanted : Option Interest} (changed : r.interest ≠ wanted)
    (outcome : Outcome) : (r.pollerCall socket wanted outcome).learn? socket r.interest =
      some (r.told wanted outcome).interest := by
  obtain ⟨token, interest⟩ := r
  cases interest <;> cases wanted <;> cases outcome <;>
    first
      | exact absurd rfl changed
      | simp [pollerCall, told, Event.learn?]

theorem isRefusal_pollerCall (wanted : Option Interest) (outcome : Outcome) :
    (r.pollerCall socket wanted outcome).isRefusal = outcome.isSome := by
  unfold pollerCall
  cases outcome <;> split <;> rfl

theorem Cancels.learnAll? (h : r.Cancels socket r' call) :
    Event.learnAll? socket r.interest call.toList = some r'.interest := by
  cases h with
  | unknown _ => rfl
  | known known outcome =>
    obtain ⟨interest, same⟩ := Option.ne_none_iff_exists'.1 known
    rw [Option.toList_some, Event.learnAll?_singleton]
    cases outcome <;> simp [Event.learn?, told, same]

end Registration

end TunnelRelay
