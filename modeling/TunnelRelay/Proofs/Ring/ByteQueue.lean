import TunnelRelay.Host.Failure
import TunnelRelay.Proofs.Fault
import TunnelRelay.Proofs.Ring.Stream

/-!
# The stream ring in use

A ring is asked to accept bytes and to offer its oldest ones to a sink, which takes some of them, or
fails. Whatever it is asked in whatever order, it answers as a queue of bytes would that has room for
its capacity, and what the sinks have taken is what was accepted, up to what the ring still holds.
-/

namespace TunnelRelay.StreamRing

/-- How many of the bytes that it is offered a sink takes, first ones first, unless it fails. -/
abbrev Sink := (offered : Bytes) → Except ErrorKind (Fin (offered.length + 1))

def Sink.all : Sink := fun offered => .ok (Fin.last offered.length)

inductive Operation where
  | accept (bytes : Bytes)
  | offer (sink : Sink)

/-- What comes of it. Each answer but `idle` to an offer is one call of the sink. -/
inductive Answer where
  | accepted (count : Nat)
  /-- There was nothing to offer. -/
  | idle
  | taken (offered : Bytes) (count : Nat)
  | untaken (offered : Bytes) (kind : ErrorKind)
  deriving DecidableEq

def Operation.perform (r : StreamRing) : Operation → Checked (Answer × StreamRing)
  | accept bytes => do
    let (count, r) ← r.push bytes
    return (.accepted count, r)
  | offer sink => do
    if r.isEmpty then
      return (.idle, r)
    else
      let offered ← r.front
      match sink offered with
      | .error kind => return (.untaken offered kind, r)
      | .ok count => return (.taken offered count, r.drop count)

/-- Lets the ring perform one operation after the other, and yields its answers. -/
def performAll (r : StreamRing) : List Operation → Checked (List Answer × StreamRing)
  | [] => return ([], r)
  | operation :: rest => do
    let (answer, r) ← operation.perform r
    let (answers, r) ← r.performAll rest
    return (answer :: answers, r)

/-- The bytes that entered a ring by an operation with this answer. -/
def entered : Operation → Answer → Bytes
  | .accept bytes, .accepted count => bytes.take count
  | _, _ => []

def Answer.out : Answer → Bytes
  | taken offered count => offered.take count
  | _ => []

/-- How a queue with room for `capacity` bytes answers an operation. -/
inductive Responds (capacity : Nat) : Bytes → Operation → Answer → Bytes → Prop where
  | accepted (queue bytes : Bytes) :
      Responds capacity queue (.accept bytes)
        (.accepted (min bytes.length (capacity - queue.length)))
        (queue ++ bytes.take (min bytes.length (capacity - queue.length)))
  | idle (sink : Sink) : Responds capacity [] (.offer sink) .idle []
  | taken {queue offered : Bytes} {sink : Sink} {count : Fin (offered.length + 1)}
      (oldest : offered <+: queue) (nonempty : offered ≠ []) (took : sink offered = .ok count) :
      Responds capacity queue (.offer sink) (.taken offered count) (queue.drop count)
  | untaken {queue offered : Bytes} {sink : Sink} {kind : ErrorKind}
      (oldest : offered <+: queue) (nonempty : offered ≠ []) (failed : sink offered = .error kind) :
      Responds capacity queue (.offer sink) (.untaken offered kind) queue

/-- How a queue of bytes answers operations in turn. -/
inductive Serves (capacity : Nat) : Bytes → List Operation → List Answer → Bytes → Prop where
  | nil (queue : Bytes) : Serves capacity queue [] [] queue
  | cons {queue queue' queue'' : Bytes} {operation : Operation} {rest : List Operation}
      {answer : Answer} {answers : List Answer}
      (first : Responds capacity queue operation answer queue')
      (others : Serves capacity queue' rest answers queue'') :
      Serves capacity queue (operation :: rest) (answer :: answers) queue''

variable {r s : StreamRing} {capacity : Nat} {queue queue' bytes : Bytes} {operation : Operation}
  {operations : List Operation} {answer : Answer} {answers : List Answer}

/-- An operation moves bytes; none is lost, doubled or put elsewhere. -/
theorem Responds.conserves (h : Responds capacity queue operation answer queue') :
    answer.out ++ queue' = queue ++ entered operation answer := by
  cases h with
  | accepted queue bytes => simp [Answer.out, entered]
  | idle sink => simp [Answer.out, entered]
  | @taken queue offered sink count oldest nonempty took =>
    have first : offered.take count = queue.take count := by
      obtain ⟨rest, rfl⟩ := oldest
      rw [List.take_append_of_le_length (by omega)]
    simp [Answer.out, entered, first]
  | untaken oldest nonempty failed => simp [Answer.out, entered]

theorem Serves.conserves (h : Serves capacity queue operations answers queue') :
    answers.flatMap Answer.out ++ queue' =
      queue ++ (List.zipWith entered operations answers).flatten := by
  induction h with
  | nil queue => simp
  | cons first others ih =>
    simp only [List.flatMap_cons, List.zipWith_cons_cons, List.flatten_cons, List.append_assoc]
    rw [ih, ← List.append_assoc, first.conserves, List.append_assoc]

theorem length_front (h : r.front = .ok bytes) :
    bytes.length = (if r.tail < r.head then r.head else r.size) - r.tail := by
  unfold front at h
  generalize (if r.tail < r.head then r.head else r.size) = stop at h ⊢
  unfold Cells.read at h
  split at h <;> cases h
  simp

/-- The bytes up to the end of the row are the oldest ones, and all of them unless the content runs
across that end. -/
theorem Sound.front_eq_take (hr : r.Sound) (h : r.front = .ok bytes) (some : r.isEmpty = false) :
    bytes = r.toList.take (r.cells.size - r.tail) := by
  have hh := hr.head_lt
  rw [(front_eq hr some h).1, length_front h]
  by_cases straight : r.tail < r.head
  · have whole : r.toList.length = r.head - r.tail := by
      simp [StreamRing.length, Nat.le_of_lt straight]
    rw [if_pos straight, List.take_of_length_le (by omega),
      List.take_of_length_le (by unfold size at hh; omega)]
  · rw [if_neg straight]
    rfl

/-- Where it is not empty, it shows a byte at least. -/
theorem Sound.offers (hr : r.Sound) (some : r.isEmpty = false) :
    r.front = .ok (r.toList.take (r.cells.size - r.tail)) ∧
      r.toList.take (r.cells.size - r.tail) ≠ [] := by
  obtain ⟨bytes, h⟩ := hr.front_isOk
  have same := hr.front_eq_take h some
  have positive := (front_eq hr some h).2.1
  rw [← same]
  exact ⟨h, List.ne_nil_of_length_pos positive⟩

structure Keeps (capacity : Nat) (r : StreamRing) : Prop where
  sound : r.Sound
  capacity_eq : r.capacity = capacity

theorem keeps_of_ofCapacity (created : ofCapacity capacity = .ok r) : Keeps capacity r :=
  ⟨sound_of_ofCapacity created, capacity_of_ofCapacity created⟩

theorem Keeps.remaining_eq (h : Keeps capacity r) : r.remaining = capacity - r.toList.length := by
  simp [remaining, h.capacity_eq]

theorem Keeps.drop (h : Keeps capacity r) (n : Nat) : Keeps capacity (r.drop n) :=
  ⟨h.sound.drop, (r.capacity_drop n).trans h.capacity_eq⟩

theorem Keeps.isEmpty_eq_false (h : Keeps capacity r) (some : r.toList ≠ []) : r.isEmpty = false := by
  rw [← Bool.not_eq_true, isEmpty_iff h.sound]
  exact some

theorem Keeps.perform_accept (h : Keeps capacity r) (bytes : Bytes) :
    ∃ s, (Operation.accept bytes).perform r = .ok (.accepted (min bytes.length r.remaining), s) ∧
      Keeps capacity s ∧ s.toList = r.toList ++ bytes.take (min bytes.length r.remaining) := by
  obtain ⟨s, pushed⟩ := h.sound.push_isOk bytes
  refine ⟨s, by simp only [Operation.perform, pushed, ok_bind]; rfl, ?_, toList_push h.sound pushed⟩
  exact ⟨h.sound.push pushed, (capacity_push pushed).trans h.capacity_eq⟩

theorem perform_offer_of_isEmpty (nothing : r.isEmpty = true) (sink : Sink) :
    (Operation.offer sink).perform r = .ok (.idle, r) := by
  simp only [Operation.perform, nothing, if_true]
  rfl

theorem Sound.perform_offer (hr : r.Sound) (some : r.isEmpty = false) (sink : Sink) :
    (Operation.offer sink).perform r =
      match sink (r.toList.take (r.cells.size - r.tail)) with
      | .error kind => .ok (.untaken (r.toList.take (r.cells.size - r.tail)) kind, r)
      | .ok count => .ok (.taken (r.toList.take (r.cells.size - r.tail)) count, r.drop count) := by
  have shown := (hr.offers some).1
  simp only [Operation.perform, some, shown, ok_bind, Bool.false_eq_true, if_false]
  cases sink (r.toList.take (r.cells.size - r.tail)) <;> rfl

/-- What a sink takes is the oldest part of the content. -/
theorem Sound.toList_drop_taken (hr : r.Sound)
    (count : Fin ((r.toList.take (r.cells.size - r.tail)).length + 1)) :
    (r.drop count).toList = r.toList.drop count := by
  apply toList_drop hr
  have := count.isLt
  simp only [List.length_take, length_toList] at this
  omega

theorem Keeps.perform (h : Keeps capacity r) (operation : Operation) :
    ∃ answer s, operation.perform r = .ok (answer, s) ∧ Keeps capacity s ∧
      Responds capacity r.toList operation answer s.toList := by
  cases operation with
  | accept bytes =>
    obtain ⟨s, done, keeps, content⟩ := h.perform_accept bytes
    refine ⟨_, s, done, keeps, ?_⟩
    rw [content, h.remaining_eq]
    exact .accepted ..
  | offer sink =>
    cases some : r.isEmpty with
    | true =>
      refine ⟨.idle, r, perform_offer_of_isEmpty some sink, h, ?_⟩
      rw [(isEmpty_iff h.sound).1 some]
      exact .idle sink
    | false =>
      have nonempty := (h.sound.offers some).2
      have oldest := List.take_prefix (r.cells.size - r.tail) r.toList
      have done := h.sound.perform_offer some sink
      cases answered : sink (r.toList.take (r.cells.size - r.tail)) with
      | error kind =>
        rw [answered] at done
        exact ⟨_, r, done, h, .untaken oldest nonempty answered⟩
      | ok count =>
        rw [answered] at done
        refine ⟨_, r.drop count, done, h.drop count, ?_⟩
        rw [h.sound.toList_drop_taken count]
        exact .taken oldest nonempty answered

theorem Keeps.performAll (h : Keeps capacity r) (operations : List Operation) :
    ∃ answers s, r.performAll operations = .ok (answers, s) ∧ Keeps capacity s ∧
      Serves capacity r.toList operations answers s.toList := by
  induction operations generalizing r with
  | nil => exact ⟨[], r, rfl, h, .nil _⟩
  | cons operation rest ih =>
    obtain ⟨answer, s, done, keeps, responds⟩ := h.perform operation
    obtain ⟨answers, t, others, keeps', serves⟩ := ih keeps
    refine ⟨answer :: answers, t, ?_, keeps', .cons responds serves⟩
    simp only [StreamRing.performAll, done, others, ok_bind]
    rfl

/-- What a ring is and does next, given what it holds. It accepts as many of the first bytes as there
is room for. An offer shows the oldest bytes up to the end of the row, at least one of them unless
there is none, and those leave that the sink takes; otherwise the ring stays exactly as it is. -/
structure Exact (capacity : Nat) (r : StreamRing) : Prop where
  head_lt : r.head < r.cells.size
  tail_lt : r.tail < r.cells.size
  length_eq : r.length = r.toList.length
  capacity_eq : r.capacity = capacity
  room : r.length + r.remaining = capacity
  isEmpty_iff : r.isEmpty = true ↔ r.toList = []
  accept (bytes : Bytes) :
    ∃ s, (Operation.accept bytes).perform r = .ok (.accepted (min bytes.length r.remaining), s) ∧
      s.toList = r.toList ++ bytes.take (min bytes.length r.remaining)
  idle (sink : Sink) : r.toList = [] → (Operation.offer sink).perform r = .ok (.idle, r)
  shows : r.toList ≠ [] → r.toList.take (r.cells.size - r.tail) ≠ []
  offer (sink : Sink) : r.toList ≠ [] →
    match sink (r.toList.take (r.cells.size - r.tail)) with
    | .error kind => (Operation.offer sink).perform r =
        .ok (.untaken (r.toList.take (r.cells.size - r.tail)) kind, r)
    | .ok count => ∃ s, (Operation.offer sink).perform r =
        .ok (.taken (r.toList.take (r.cells.size - r.tail)) count, s) ∧
          s.toList = r.toList.drop count
  drains : ∃ answers s, r.performAll [.offer .all, .offer .all] = .ok (answers, s) ∧ s.toList = []

/-- A sink that takes whatever it is offered leaves what lies across the end of the row. -/
theorem Keeps.perform_offer_all (h : Keeps capacity r) :
    ∃ answer s, (Operation.offer .all).perform r = .ok (answer, s) ∧ Keeps capacity s ∧
      s.toList = r.toList.drop (r.cells.size - r.tail) ∧ (s.toList ≠ [] → s.tail = 0) := by
  have ht := h.sound.tail_lt
  cases some : r.isEmpty with
  | true =>
    have nothing := (isEmpty_iff h.sound).1 some
    refine ⟨.idle, r, perform_offer_of_isEmpty some .all, h, ?_, fun left => absurd nothing left⟩
    simp [nothing]
  | false =>
    have done := h.sound.perform_offer some .all
    have content := h.sound.toList_drop_taken (Fin.last _)
    refine ⟨_, _, done, h.drop _, ?_⟩
    simp only [Fin.val_last, List.length_take] at content ⊢
    by_cases across : r.cells.size - r.tail ≤ r.toList.length
    · rw [Nat.min_eq_left across] at content ⊢
      refine ⟨content, fun _ => ?_⟩
      change (r.tail + (r.cells.size - r.tail)) % r.size = 0
      unfold size at ht ⊢
      rw [Nat.add_sub_cancel' (Nat.le_of_lt ht), Nat.mod_self]
    · have rest : r.toList.drop (r.cells.size - r.tail) = [] :=
        List.drop_eq_nil_of_le (by omega)
      rw [Nat.min_eq_right (by omega), List.drop_length] at content
      rw [Nat.min_eq_right (by omega), content, rest]
      simp

/-- Two such sinks leave nothing. -/
theorem Keeps.drains (h : Keeps capacity r) :
    ∃ answers s, r.performAll [.offer .all, .offer .all] = .ok (answers, s) ∧ s.toList = [] := by
  obtain ⟨first, s, done, keeps, -, wrapped⟩ := h.perform_offer_all
  obtain ⟨second, t, done', -, content, -⟩ := keeps.perform_offer_all
  refine ⟨[first, second], t, ?_, ?_⟩
  · simp only [StreamRing.performAll, done, done', ok_bind]
    rfl
  · rw [content]
    by_cases left : s.toList = []
    · simp [left]
    · have short := keeps.sound.length_lt
      apply List.drop_eq_nil_of_le
      rw [wrapped left, length_toList]
      exact Nat.le_of_lt short

theorem Keeps.exact (h : Keeps capacity r) : Exact capacity r where
  head_lt := h.sound.head_lt
  tail_lt := h.sound.tail_lt
  length_eq := r.length_toList.symm
  capacity_eq := h.capacity_eq
  room := h.sound.length_add_remaining.trans h.capacity_eq
  isEmpty_iff := isEmpty_iff h.sound
  accept bytes := by
    obtain ⟨s, done, -, content⟩ := h.perform_accept bytes
    exact ⟨s, done, content⟩
  idle sink nothing := perform_offer_of_isEmpty ((isEmpty_iff h.sound).2 nothing) sink
  shows some := (h.sound.offers (h.isEmpty_eq_false some)).2
  offer sink some := by
    have done := h.sound.perform_offer (h.isEmpty_eq_false some) sink
    cases answered : sink (r.toList.take (r.cells.size - r.tail)) with
    | error kind => rwa [answered] at done
    | ok count =>
      rw [answered] at done
      exact ⟨_, done, h.sound.toList_drop_taken count⟩
  drains := h.drains

/-- A ring of any capacity serves as a queue of bytes: whatever it is asked to do in whatever order, it
comes to no fault and answers as the queue does that it holds in the end; what sinks took, followed by
what it holds, is what was accepted; and at every point what it does next is exact. -/
theorem serves_as_byte_queue (created : ofCapacity capacity = .ok r) (operations : List Operation) :
    ∃ answers s, r.performAll operations = .ok (answers, s) ∧
      Serves capacity [] operations answers s.toList ∧
      answers.flatMap Answer.out ++ s.toList = (List.zipWith entered operations answers).flatten ∧
      Exact capacity s := by
  obtain ⟨answers, s, performed, keeps, serves⟩ :=
    (keeps_of_ofCapacity created).performAll operations
  rw [toList_of_ofCapacity created] at serves
  have conserved := serves.conserves
  rw [List.nil_append] at conserved
  exact ⟨answers, s, performed, serves, conserved, keeps.exact⟩

/-- Nine bytes of twelve are accepted by a ring whose content then runs across the end of the row, where
the first offers stop. -/
theorem serves_as_byte_queue_across : ∃ r answers s, ofCapacity 9 = .ok r ∧
    r.performAll
      [.accept [1, 2, 3, 4, 5, 6], .offer .all, .accept [1, 2, 3, 4, 5, 6, 7, 8, 9, 10, 11, 12],
        .offer fun _ => .error .wouldBlock, .offer fun offered => .ok ⟨min 3 offered.length, by omega⟩,
        .offer .all, .offer fun _ => .ok 0] = .ok (answers, s) ∧
    answers = [.accepted 6, .taken [1, 2, 3, 4, 5, 6] 6, .accepted 9, .untaken [1, 2, 3, 4] .wouldBlock,
      .taken [1, 2, 3, 4] 3, .taken [4] 1, .taken [5, 6, 7, 8, 9] 0] ∧
    s.toList = [5, 6, 7, 8, 9] ∧ Exact 9 s := by
  have small : 9 + 1 < bufferLimit := by decide
  obtain ⟨r, created⟩ := ofCapacity_isOk small
  obtain ⟨answers, s, performed, -, -, exact⟩ := serves_as_byte_queue created
    [.accept [1, 2, 3, 4, 5, 6], .offer .all, .accept [1, 2, 3, 4, 5, 6, 7, 8, 9, 10, 11, 12],
      .offer fun _ => .error .wouldBlock, .offer fun offered => .ok ⟨min 3 offered.length, by omega⟩,
      .offer .all, .offer fun _ => .ok 0]
  have result : (do
      let r ← ofCapacity 9
      let (answers, s) ← r.performAll
        [.accept [1, 2, 3, 4, 5, 6], .offer .all, .accept [1, 2, 3, 4, 5, 6, 7, 8, 9, 10, 11, 12],
          .offer fun _ => .error .wouldBlock,
          .offer fun offered => .ok ⟨min 3 offered.length, by omega⟩, .offer .all, .offer fun _ => .ok 0]
      return (answers, s.toList)).toOption =
        some ([.accepted 6, .taken [1, 2, 3, 4, 5, 6] 6, .accepted 9,
          .untaken [1, 2, 3, 4] .wouldBlock, .taken [1, 2, 3, 4] 3, .taken [4] 1,
          .taken [5, 6, 7, 8, 9] 0], [5, 6, 7, 8, 9]) := by
    decide +kernel
  rw [created, ok_bind, performed] at result
  have same := Option.some.inj result
  simp only [Prod.mk.injEq] at same
  exact ⟨r, answers, s, created, performed, same.1, same.2, exact⟩

end TunnelRelay.StreamRing
