import Mathlib.Algebra.GroupWithZero.Nat
import TunnelRelay.Host.Failure
import TunnelRelay.Proofs.Ring.Records

/-!
# The datagram ring in use

A ring is asked to store datagrams and to offer its oldest one to a socket, which takes it or does not.
Whatever it is asked in whatever order, it answers as a queue of datagrams would that may refuse a
datagram only if it is too long, or if the queue holds something and the datagram would exceed its
capacity.
-/

namespace TunnelRelay.DatagramRing

/-- What a ring can be asked to do. A `send` is the socket's answer to any datagram. -/
inductive Operation where
  | store (datagram : Bytes)
  | offer (send : Bytes → Except ErrorKind Bytes)

inductive Answer where
  | stored (taken : Bool)
  /-- There was nothing to offer. -/
  | idle
  | sent (datagram : Bytes)
  | unsent (datagram : Bytes) (kind : ErrorKind)
  deriving DecidableEq

def Operation.perform (r : DatagramRing) : Operation → Checked (Answer × DatagramRing)
  | store datagram => do
    let (taken, r) ← r.push datagram
    return (.stored taken, r)
  | offer send => do
    match ← r.front with
    | none => return (.idle, r)
    | some datagram =>
      match send datagram with
      | .error kind => return (.unsent datagram kind, r)
      | .ok _ => return (.sent datagram, ← r.pop)

def performAll (r : DatagramRing) : List Operation → Checked (List Answer × DatagramRing)
  | [] => return ([], r)
  | operation :: rest => do
    let (answer, r) ← operation.perform r
    let (answers, r) ← r.performAll rest
    return (answer :: answers, r)

/-- The bytes that datagrams take up, each of them behind its length. -/
def weight (queue : List Bytes) : Nat :=
  (queue.map fun datagram => recordHeader + datagram.length).sum

/-- A queue of this capacity has to take a datagram of this length. -/
structure HasToTake (capacity : Nat) (queue : List Bytes) (length : Nat) : Prop where
  short : length ≤ maxDatagramLength
  room : queue = [] ∨ weight queue + recordHeader + length ≤ capacity

/-- How a queue of datagrams answers an operation. -/
inductive Responds (capacity : Nat) : List Bytes → Operation → Answer → List Bytes → Prop where
  | taken {queue : List Bytes} {datagram : Bytes} (short : datagram.length ≤ maxDatagramLength) :
      Responds capacity queue (.store datagram) (.stored true) (queue ++ [datagram])
  | dropped {queue : List Bytes} {datagram : Bytes}
      (full : ¬HasToTake capacity queue datagram.length) :
      Responds capacity queue (.store datagram) (.stored false) queue
  | idle (send : Bytes → Except ErrorKind Bytes) : Responds capacity [] (.offer send) .idle []
  | sent {datagram : Bytes} {rest : List Bytes} {send : Bytes → Except ErrorKind Bytes} {taken : Bytes}
      (accepted : send datagram = .ok taken) :
      Responds capacity (datagram :: rest) (.offer send) (.sent datagram) rest
  | unsent {datagram : Bytes} {rest : List Bytes} {send : Bytes → Except ErrorKind Bytes}
      {kind : ErrorKind} (refused : send datagram = .error kind) :
      Responds capacity (datagram :: rest) (.offer send) (.unsent datagram kind) (datagram :: rest)

/-- How a queue of datagrams answers operations in turn. -/
inductive Serves (capacity : Nat) :
    List Bytes → List Operation → List Answer → List Bytes → Prop where
  | nil (queue : List Bytes) : Serves capacity queue [] [] queue
  | cons {queue queue' queue'' : List Bytes} {operation : Operation} {rest : List Operation}
      {answer : Answer} {answers : List Answer}
      (first : Responds capacity queue operation answer queue')
      (others : Serves capacity queue' rest answers queue'') :
      Serves capacity queue (operation :: rest) (answer :: answers) queue''

variable {r s : DatagramRing} {capacity start stop : Nat} {queue : List Bytes} {datagram : Bytes}
  {operation : Operation} {answer : Answer} {cells : Cells} {taken : Bool}

theorem Lies.add_weight (h : Lies cells r.circular start queue stop) : start + weight queue = stop := by
  induction h with
  | nil => rfl
  | @cons start stop datagram rest _ _ _ ih =>
    simp only [weight, List.map_cons, List.sum_cons] at ih ⊢
    omega

theorem hasRoomFor_of_isWrapped_eq_false (straight : r.isWrapped = false) {length : Nat} :
    r.hasRoomFor length = decide (length ≤ maxDatagramLength) := by
  simp [hasRoomFor, straight]

/-- What the capacity leaves free lies in the gap, if records have run into the headroom. -/
theorem Holds.hasRoomFor_of_weight (h : r.Holds queue) {length : Nat}
    (short : length ≤ maxDatagramLength) (room : weight queue + recordHeader + length < r.circular) :
    r.hasRoomFor length = true := by
  cases wrapped : r.isWrapped with
  | false => simpa [hasRoomFor_of_isWrapped_eq_false wrapped] using short
  | true =>
    obtain ⟨some, order⟩ : 0 < r.count ∧ r.head ≤ r.tail := by simpa [isWrapped] using wrapped
    suffices gap : r.head + recordHeader + length ≤ r.tail by simp [hasRoomFor, short, gap]
    cases h.arranged with
    | straight lies =>
      have nonempty : queue ≠ [] := by
        rintro rfl
        exact Nat.ne_of_gt some h.count_eq
      exact absurd order (Nat.not_le_of_lt (lies.lt_of_ne_nil nonempty).1)
    | @wrapped older newer stop lies beyond lies' apart =>
      have older_eq := lies.add_weight
      have newer_eq := lies'.add_weight
      simp only [weight, List.map_append, List.sum_append] at room older_eq newer_eq
      omega

/-- An empty ring takes any datagram that has a length of 16 bits. -/
theorem Holds.hasRoomFor_of_empty (h : r.Holds []) (length : Nat) :
    r.hasRoomFor length = decide (length ≤ maxDatagramLength) :=
  hasRoomFor_of_isWrapped_eq_false (by simp [isWrapped, h.count_eq])

theorem circular_push (pushed : r.push datagram = .ok (taken, s)) : s.circular = r.circular := by
  unfold DatagramRing.push at pushed
  split at pushed
  · simp only [checked_bind_eq_ok, checked_pure_eq_ok] at pushed
    obtain ⟨_, -, _, -, _, -, ⟨⟩⟩ := pushed
    rfl
  · cases pushed
    rfl

theorem circular_pop (popped : r.pop = .ok s) : s.circular = r.circular := by
  unfold DatagramRing.pop at popped
  split at popped
  · cases popped
    rfl
  · simp only [checked_bind_eq_ok, checked_pure_eq_ok] at popped
    obtain ⟨_, -, rfl⟩ := popped
    split <;> rfl

/-- The ring of this capacity holds the queue. -/
structure Keeps (capacity : Nat) (r : DatagramRing) (queue : List Bytes) : Prop where
  holds : r.Holds queue
  circular_eq : r.circular = capacity + 1

theorem keeps_of_ofCapacity (created : ofCapacity capacity = .ok r) : Keeps capacity r [] := by
  refine ⟨holds_of_ofCapacity created, ?_⟩
  simp only [ofCapacity, checked_bind_eq_ok, checked_pure_eq_ok] at created
  obtain ⟨_, -, rfl⟩ := created
  rfl

/-- What has to be taken is taken, and nothing that is too long. -/
theorem Keeps.hasRoomFor_of_hasToTake (h : Keeps capacity r queue) {length : Nat}
    (due : HasToTake capacity queue length) : r.hasRoomFor length = true := by
  rcases due.room with rfl | room
  · simpa [h.holds.hasRoomFor_of_empty] using due.short
  · exact h.holds.hasRoomFor_of_weight due.short (by rw [h.circular_eq]; omega)

theorem short_of_hasRoomFor {length : Nat} (room : r.hasRoomFor length = true) :
    length ≤ maxDatagramLength := by
  simp only [hasRoomFor, Bool.and_eq_true, decide_eq_true_eq] at room
  exact room.1

/-- A datagram is stored exactly if there is room for it, and a ring that refuses one stays as it is. -/
theorem Keeps.perform_store (h : Keeps capacity r queue) (datagram : Bytes) :
    ∃ s, (Operation.store datagram).perform r = .ok (.stored (r.hasRoomFor datagram.length), s) ∧
      Keeps capacity s (queue ++ if r.hasRoomFor datagram.length then [datagram] else []) ∧
      (r.hasRoomFor datagram.length = false → s = r) := by
  obtain ⟨taken, s, pushed, -⟩ := h.holds.sound.push_isOk datagram
  obtain rfl := stored_of_push pushed
  refine ⟨s, by rw [Operation.perform, pushed]; rfl, ?_, fun full => ?_⟩
  · exact ⟨h.holds.push pushed, (circular_push pushed).trans h.circular_eq⟩
  · rw [full] at pushed
    exact eq_of_push pushed

/-- What is offered is the oldest datagram, which leaves the ring exactly if it is sent. -/
theorem Keeps.perform_offer (h : Keeps capacity r queue) (send : Bytes → Except ErrorKind Bytes) :
    ∃ answer s, (Operation.offer send).perform r = .ok (answer, s) ∧
      match queue with
      | [] => answer = .idle ∧ s = r
      | datagram :: rest =>
        match send datagram with
        | .ok _ => answer = .sent datagram ∧ Keeps capacity s rest
        | .error kind => answer = .unsent datagram kind ∧ s = r := by
  obtain ⟨found, read, -⟩ := h.holds.sound.front_isOk
  have oldest := h.holds.front_eq read
  cases queue with
  | nil =>
    obtain rfl : found = none := oldest
    exact ⟨.idle, r, by rw [Operation.perform, read]; rfl, rfl, rfl⟩
  | cons datagram rest =>
    obtain rfl : found = some datagram := oldest
    dsimp only
    cases answered : send datagram with
    | error kind =>
      exact ⟨.unsent datagram kind, r, by simp only [Operation.perform, read, ok_bind, answered]; rfl,
        rfl, rfl⟩
    | ok taken =>
      obtain ⟨s, popped, -, -⟩ := h.holds.sound.pop_isOk
      refine ⟨.sent datagram, s, ?_, rfl, h.holds.pop popped, ?_⟩
      · simp only [Operation.perform, read, ok_bind, answered, popped]
        rfl
      · exact (circular_pop popped).trans h.circular_eq

theorem Keeps.perform (h : Keeps capacity r queue) (operation : Operation) :
    ∃ answer s queue', operation.perform r = .ok (answer, s) ∧ Keeps capacity s queue' ∧
      Responds capacity queue operation answer queue' := by
  cases operation with
  | store datagram =>
    obtain ⟨s, stored, keeps, -⟩ := h.perform_store datagram
    refine ⟨_, s, _, stored, keeps, ?_⟩
    cases room : r.hasRoomFor datagram.length with
    | true => exact .taken (short_of_hasRoomFor room)
    | false =>
      rw [if_neg Bool.false_ne_true, List.append_nil]
      refine .dropped fun due => ?_
      exact absurd (room.symm.trans (h.hasRoomFor_of_hasToTake due)) Bool.false_ne_true
  | offer send =>
    obtain ⟨answer, s, offered, result⟩ := h.perform_offer send
    cases queue with
    | nil =>
      obtain ⟨rfl, rfl⟩ := result
      exact ⟨_, _, _, offered, h, .idle send⟩
    | cons datagram rest =>
      dsimp only at result
      cases answered : send datagram with
      | error kind =>
        rw [answered] at result
        obtain ⟨rfl, rfl⟩ := result
        exact ⟨_, _, _, offered, h, .unsent answered⟩
      | ok taken =>
        rw [answered] at result
        obtain ⟨rfl, keeps⟩ := result
        exact ⟨_, _, _, offered, keeps, .sent answered⟩

theorem Keeps.performAll (h : Keeps capacity r queue) (operations : List Operation) :
    ∃ answers s queue', r.performAll operations = .ok (answers, s) ∧ Keeps capacity s queue' ∧
      Serves capacity queue operations answers queue' := by
  induction operations generalizing r queue with
  | nil => exact ⟨[], r, queue, rfl, h, .nil queue⟩
  | cons operation rest ih =>
    obtain ⟨answer, s, queue', performed, keeps, responds⟩ := h.perform operation
    obtain ⟨answers, t, queue'', others, keeps', serves⟩ := ih keeps
    refine ⟨answer :: answers, t, queue'', ?_, keeps', .cons responds serves⟩
    rw [DatagramRing.performAll, performed, ok_bind]
    dsimp only
    rw [others]
    rfl

/-- What a ring does next, given what it holds: it stores a datagram exactly if it has room for it,
behind all others, and offers the oldest one, which it keeps unless it was sent. Where nothing is stored
or sent it stays exactly as it is. -/
structure Exact (capacity : Nat) (r : DatagramRing) : Prop where
  store (datagram : Bytes) :
    ∃ s, (Operation.store datagram).perform r = .ok (.stored (r.hasRoomFor datagram.length), s) ∧
      s.toList = r.toList ++ (if r.hasRoomFor datagram.length then [datagram] else []) ∧
      (r.hasRoomFor datagram.length = false → s = r)
  offer (send : Bytes → Except ErrorKind Bytes) :
    ∃ answer s, (Operation.offer send).perform r = .ok (answer, s) ∧ (answer = .idle ↔ r.toList = []) ∧
      match r.toList with
      | [] => s = r
      | datagram :: rest =>
        match send datagram with
        | .ok _ => answer = .sent datagram ∧ s.toList = rest
        | .error kind => answer = .unsent datagram kind ∧ s = r
  too_long (length : Nat) : maxDatagramLength < length → r.hasRoomFor length = false
  of_empty (length : Nat) : r.toList = [] → length ≤ maxDatagramLength → r.hasRoomFor length = true
  of_weight (length : Nat) : length ≤ maxDatagramLength →
    weight r.toList + recordHeader + length ≤ capacity → r.hasRoomFor length = true

theorem Keeps.exact (h : Keeps capacity r queue) : Exact capacity r where
  store datagram := by
    obtain ⟨s, stored, keeps, same⟩ := h.perform_store datagram
    refine ⟨s, stored, ?_, same⟩
    rw [keeps.holds.toList_eq, h.holds.toList_eq]
  offer send := by
    obtain ⟨answer, s, offered, result⟩ := h.perform_offer send
    refine ⟨answer, s, offered, ?_⟩
    rw [h.holds.toList_eq]
    cases queue with
    | nil => exact ⟨iff_of_true result.1 rfl, result.2⟩
    | cons datagram rest =>
      dsimp only at result ⊢
      cases answered : send datagram with
      | error kind =>
        rw [answered] at result
        obtain ⟨rfl, same⟩ := result
        exact ⟨by simp, rfl, same⟩
      | ok taken =>
        rw [answered] at result
        obtain ⟨rfl, keeps⟩ := result
        exact ⟨by simp, rfl, keeps.holds.toList_eq⟩
  too_long length long := by
    cases room : r.hasRoomFor length with
    | false => rfl
    | true => exact absurd (short_of_hasRoomFor room) (Nat.not_le_of_lt long)
  of_empty length empty short := by
    rw [h.holds.toList_eq] at empty
    exact h.hasRoomFor_of_hasToTake ⟨short, .inl empty⟩
  of_weight length short room := by
    rw [h.holds.toList_eq] at room
    exact h.hasRoomFor_of_hasToTake ⟨short, .inr room⟩

/-- A ring of any capacity serves as a queue of datagrams: whatever it is asked to do in whatever order,
it comes to no fault and answers as the queue does that it holds in the end, and at every point what it
does next is exact. -/
theorem serves_as_queue (created : ofCapacity capacity = .ok r) (operations : List Operation) :
    ∃ answers s, r.performAll operations = .ok (answers, s) ∧
      Serves capacity [] operations answers s.toList ∧ Exact capacity s := by
  obtain ⟨answers, s, queue, performed, keeps, serves⟩ :=
    (keeps_of_ofCapacity created).performAll operations
  refine ⟨answers, s, performed, ?_, keeps.exact⟩
  rwa [keeps.holds.toList_eq]

/-- The second datagram runs into the headroom, so that the third one has to wait until the first one is
sent, and then fills the gap in front of the second. -/
theorem serves_as_queue_headroom : ∃ r answers s,
    ofCapacity 10 = .ok r ∧ r.performAll
      [.store [1, 1, 1, 1, 1, 1], .store [2, 2, 2, 2, 2, 2], .store [3, 3, 3, 3, 3, 3],
        .offer fun _ => .error .wouldBlock, .offer .ok, .store [3, 3, 3, 3, 3, 3]] = .ok (answers, s) ∧
    answers = [.stored true, .stored true, .stored false, .unsent [1, 1, 1, 1, 1, 1] .wouldBlock,
      .sent [1, 1, 1, 1, 1, 1], .stored true] ∧
    s.toList = [[2, 2, 2, 2, 2, 2], [3, 3, 3, 3, 3, 3]] ∧ s.hasRoomFor 0 = false ∧ Exact 10 s := by
  have small : 10 + 1 + recordHeader + maxDatagramLength < bufferLimit := by decide
  obtain ⟨r, created, -⟩ := ofCapacity_isOk small
  obtain ⟨answers, s, performed, -, exact⟩ := serves_as_queue created
    [.store [1, 1, 1, 1, 1, 1], .store [2, 2, 2, 2, 2, 2], .store [3, 3, 3, 3, 3, 3],
      .offer fun _ => .error .wouldBlock, .offer .ok, .store [3, 3, 3, 3, 3, 3]]
  have result : (do
      let r ← ofCapacity 10
      let (answers, s) ← r.performAll
        [.store [1, 1, 1, 1, 1, 1], .store [2, 2, 2, 2, 2, 2], .store [3, 3, 3, 3, 3, 3],
          .offer fun _ => .error .wouldBlock, .offer .ok, .store [3, 3, 3, 3, 3, 3]]
      return (answers, s.toList, s.hasRoomFor 0)).toOption =
        some ([.stored true, .stored true, .stored false, .unsent [1, 1, 1, 1, 1, 1] .wouldBlock,
          .sent [1, 1, 1, 1, 1, 1], .stored true], [[2, 2, 2, 2, 2, 2], [3, 3, 3, 3, 3, 3]], false) := by
    decide +kernel
  rw [created, ok_bind, performed] at result
  have same := Option.some.inj result
  simp only [Prod.mk.injEq] at same
  exact ⟨r, answers, s, created, performed, same.1, same.2.1, same.2.2, exact⟩

end TunnelRelay.DatagramRing
