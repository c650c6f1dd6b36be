import LintCore.Pipe.Fifo
import LintCore.Proofs.EventLoop.Delivery

/-!
# No order of writes and reads loses a byte

A writer fills a pipe while a loop drains it. `Move` is what either of them does next, and a list of
moves is an order in which they act; a move that its side cannot make at that moment does nothing.
The loop's move is a turn of its run. A turn first puts a request to the pipe and then hands on what
it was given, and the writer may act in between; what it does there is part of the move, so that
each order of the single actions is the order of some moves.

Every move keeps the bytes together (`Transfer.Conserved.step`): those handed on, those in the hand
of the loop and those in the pipe are all that was written. A turn can do three things
(`Transfer.due_cases`), and only one of them ends the run: a read of an empty pipe that is closed.
`Transfer.nothing_lost` is what follows for all orders. `Transfer.moves_replicate_loop` says that
the moves of a loop that nobody disturbs are the turns of its run.
-/

set_option autoImplicit false
set_option relaxedAutoImplicit false

namespace LintCore

/-! ### Reading from a pipe that does not block -/

namespace Pipe.Fifo

variable {fifo : Fifo} {size : Nat}

/-- Registers for events, if that has not been done. One is pending if there is something to
read. -/
def register (fifo : Fifo) : Fifo :=
  match fifo.readiness with
  | .unregistered => { fifo with readiness := .registered fifo.isReadable }
  | .registered _ => fifo

@[simp]
theorem bytes_write (bytes : List UInt8) : (fifo.write bytes).bytes = fifo.bytes ++ bytes := by
  cases bytes <;> simp [write]

@[simp]
theorem nonBlocking_write (bytes : List UInt8) :
    (fifo.write bytes).nonBlocking = fifo.nonBlocking := by
  cases bytes <;> simp [write]

theorem exists_register : ∃ readiness, fifo.register = { fifo with readiness } := by
  unfold register
  split
  · exact ⟨.registered fifo.isReadable, rfl⟩
  · exact ⟨fifo.readiness, rfl⟩

/-- To wait is to register and then to take an event. -/
theorem wait?_register (hnonBlocking : fifo.nonBlocking = true) :
    fifo.register.wait? = fifo.wait? := by
  cases hreadiness : fifo.readiness with
  | unregistered => simp [register, wait?, hreadiness, hnonBlocking]
  | registered pending => simp [register, hreadiness]

theorem read_of_pending (hbytes : fifo.bytes ≠ []) :
    pipe.read size fifo =
      (.ok (fifo.bytes.take size), { fifo with bytes := fifo.bytes.drop size }) := by
  have hreadable : fifo.isReadable = true := by simp [isReadable, hbytes]
  simp [pipe, read?, hreadable]

theorem read_of_closed (hbytes : fifo.bytes = []) (hclosed : fifo.closed = true) :
    pipe.read size fifo = (.ok [], fifo) := by
  have hreadable : fifo.isReadable = true := by simp [isReadable, hclosed]
  have hsame : { fifo with bytes := [] } = fifo := by rw [← hbytes]
  simp [pipe, read?, hreadable, hbytes, hsame]

theorem read_of_open (hsize : 0 < size) (hnonBlocking : fifo.nonBlocking = true)
    (hbytes : fifo.bytes = []) (hopen : fifo.closed = false) :
    pipe.read size fifo = (.error wouldBlock, fifo) := by
  have hreadable : fifo.isReadable = false := by simp [isReadable, hbytes, hopen]
  simp [pipe, read?, hreadable, hnonBlocking, Nat.ne_of_gt hsize]

/-- A wait that comes to an end has changed nothing but what the reader knows. -/
theorem wait_of_isSome (hready : fifo.wait?.isSome = true) :
    ∃ readiness, pipe.wait fifo = (.ok (), { fifo with readiness }) := by
  obtain ⟨later, hlater⟩ := Option.isSome_iff_exists.mp hready
  have hwait : pipe.wait fifo = (.ok (), later) := by simp only [pipe, hlater]
  have hsame : ∃ readiness, later = { fifo with readiness } := by
    unfold wait? at hlater
    split at hlater
    · rw [Option.ite_none_right_eq_some] at hlater
      exact ⟨_, (Option.some.inj hlater.2).symm⟩
    · exact ⟨fifo.readiness, (Option.some.inj hlater).symm⟩
  obtain ⟨readiness, rfl⟩ := hsame
  exact ⟨readiness, hwait⟩

end Pipe.Fifo

namespace EventLoop

/-! ### What the two sides do -/

/-- What a writer can do at any time. -/
inductive Writing where
  | write (bytes : List UInt8)
  | close

/-- Whether it is a write of no bytes. -/
def Writing.isEmpty : Writing → Bool
  | write bytes => bytes.isEmpty
  | close => false

inductive Move where
  | writer (writing : Writing)
  /-- The loop, about to wait, registers for events, and has not yet looked for one. -/
  | register
  /-- A turn of the loop. The writer acts while the turn has its answer from the pipe and has not
  yet handed it on. -/
  | loop (meanwhile : List Writing)

/-- The move without writes of no bytes. -/
def Move.solid? : Move → Option Move
  | writer writing => if writing.isEmpty then none else some (writer writing)
  | register => some register
  | loop meanwhile => some (loop (meanwhile.filter fun writing ↦ !writing.isEmpty))

/-- A loop, the pipe that it reads, and what has become of the bytes. -/
structure Transfer (size : Nat) where
  fifo : Pipe.Fifo
  phase : Phase
  buffer : Buffer size
  /-- What the loop has done. -/
  events : List Event
  /-- What the writer has written. -/
  written : List UInt8

namespace Transfer

/-- A loop that is about to run, and a new pipe. -/
def start (loop : EventLoop) : Transfer loop.bufferSize where
  fifo := {}
  phase := if loop.state = .done then .ended .endOfStream else .reading
  buffer := loop.buffer
  events := []
  written := []

variable {size : Nat}

/-- After the writer has acted. An end that is closed stays closed, and takes no bytes. -/
def writing (t : Transfer size) (writing : Writing) : Transfer size :=
  if t.fifo.closed then t
  else
    match writing with
    | .write bytes => { t with fifo := t.fifo.write bytes, written := t.written ++ bytes }
    | .close => { t with fifo := t.fifo.close }

def writings (t : Transfer size) (writings : List Writing) : Transfer size :=
  writings.foldl writing t

theorem writing_of_closed {t : Transfer size} (hclosed : t.fifo.closed = true)
    (writing : Writing) : t.writing writing = t :=
  if_pos hclosed

theorem writing_write {t : Transfer size} (hopen : ¬ t.fifo.closed = true) (bytes : List UInt8) :
    t.writing (.write bytes) =
      { t with fifo := t.fifo.write bytes, written := t.written ++ bytes } :=
  if_neg hopen

theorem writing_close {t : Transfer size} (hopen : ¬ t.fifo.closed = true) :
    t.writing .close = { t with fifo := t.fifo.close } :=
  if_neg hopen

/-- Whether the loop can take a turn. A loop that waits can when its pipe has an event for it. -/
def isReady (t : Transfer size) : Bool :=
  match t.phase with
  | .reading => true
  | .waiting => t.fifo.wait?.isSome
  | .ended _ => false

/-- The turn that the loop is about to take. -/
def due (t : Transfer size) : Turn Pipe.Fifo size := turn Pipe.Fifo.pipe t.phase t.buffer t.fifo

/-- After the pipe has answered to the turn that is due, and before anything is handed on. -/
def asked (t : Transfer size) : Transfer size :=
  { t with fifo := t.due.pipe, phase := t.due.next, buffer := t.due.buffer }

def record (t : Transfer size) (events : List Event) : Transfer size :=
  { t with events := t.events ++ events }

def step (t : Transfer size) : Move → Transfer size
  | .writer writing => t.writing writing
  | .register => if t.phase = .waiting then { t with fifo := t.fifo.register } else t
  | .loop meanwhile =>
    if t.isReady then (t.asked.writings meanwhile).record t.due.events else t

def moves (t : Transfer size) (moves : List Move) : Transfer size := moves.foldl step t

/-- The bytes handed on so far. -/
def received (t : Transfer size) : List UInt8 := (chunks t.events).flatten

/-- The bytes that the turn that is due gets from the pipe. -/
def inHand (t : Transfer size) : List UInt8 := (chunks t.due.events).flatten

/-! ### What a turn can do -/

/-- A turn of a loop on a pipe that does not block hands on what it reads, or sees the end of a
closed pipe, or does neither and goes on. -/
theorem due_cases {t : Transfer size} (hsize : 0 < size) (hnonBlocking : t.fifo.nonBlocking = true)
    (hready : t.isReady = true) :
    (t.fifo.bytes ≠ [] ∧ t.due =
      ⟨[.read (.ok (t.fifo.bytes.take size).length), .append (t.fifo.bytes.take size)],
        t.buffer.fill (t.fifo.bytes.take size), { t.fifo with bytes := t.fifo.bytes.drop size },
        .reading⟩) ∨
    (t.fifo.bytes = [] ∧ t.fifo.closed = true ∧
      t.due = ⟨[.read (.ok 0)], t.buffer, t.fifo, .ended .endOfStream⟩) ∨
    (∃ event readiness next, event.chunk? = none ∧ (∀ ending, next ≠ .ended ending) ∧
      t.due = ⟨[event], t.buffer, { t.fifo with readiness }, next⟩) := by
  rw [due]
  cases hphase : t.phase with
  | reading =>
    by_cases hbytes : t.fifo.bytes = []
    · cases hclosed : t.fifo.closed with
      | false =>
        have hread := Pipe.Fifo.read_of_open hsize hnonBlocking hbytes hclosed
        have hnext : afterFailure (Pipe.Fifo.pipe.nonBlocking t.fifo) Pipe.Fifo.wouldBlock =
            .waiting := by
          rw [afterFailure_of_wouldBlock rfl]
          exact if_pos hnonBlocking
        refine .inr (.inr ⟨.read (.error Pipe.Fifo.wouldBlock), t.fifo.readiness, .waiting, rfl,
          by simp, ?_⟩)
        rw [turn_reading_of_error hread, hnext]
      | true =>
        have hread : Pipe.Fifo.pipe.read size t.fifo = (.ok [], t.fifo) :=
          Pipe.Fifo.read_of_closed hbytes hclosed
        exact .inr (.inl ⟨hbytes, rfl, turn_reading_of_end hread⟩)
    · have htake : t.fifo.bytes.take size ≠ [] := by simp [hbytes, Nat.ne_of_gt hsize]
      refine .inl ⟨hbytes, ?_⟩
      rw [turn_reading_of_chunk (Pipe.Fifo.read_of_pending hbytes) htake,
        Buffer.front_fill t.buffer (List.length_take_le _ _)]
  | waiting =>
    rw [isReady, hphase] at hready
    obtain ⟨readiness, hwait⟩ := Pipe.Fifo.wait_of_isSome hready
    exact .inr (.inr ⟨.wait (.ok ()), readiness, .reading, rfl, Phase.reading_ne_ended,
      turn_waiting_of_ok hwait⟩)
  | ended ending =>
    rw [isReady, hphase] at hready
    cases hready

/-! ### The bytes stay together -/

/-- What holds of a transfer whose loop has some bytes in its hand. -/
structure Conserved (t : Transfer size) (hand : List UInt8) : Prop where
  nonBlocking : t.fifo.nonBlocking = true
  bytes_eq : t.received ++ hand ++ t.fifo.bytes = t.written
  chunk_bounds : ∀ chunk ∈ chunks t.events, chunk ≠ [] ∧ chunk.length ≤ size
  of_ended : ∀ ending, t.phase = .ended ending →
    ending = .endOfStream ∧ t.fifo.closed = true ∧ t.fifo.bytes = []

namespace Conserved

variable {t : Transfer size} {hand : List UInt8}

theorem start {loop : EventLoop} (hrunning : loop.state = .running) :
    Conserved (Transfer.start loop) [] where
  nonBlocking := rfl
  bytes_eq := rfl
  chunk_bounds := by simp [Transfer.start, chunks]
  of_ended := by simp [Transfer.start, hrunning]

theorem writing (h : Conserved t hand) (writing : Writing) :
    Conserved (t.writing writing) hand := by
  by_cases hclosed : t.fifo.closed = true
  · rw [writing_of_closed hclosed]
    exact h
  -- The pipe of an ended run is closed, so this one goes on.
  have hgoing (ending : Ending) : t.phase ≠ .ended ending := fun hended ↦
    hclosed (h.of_ended ending hended).2.1
  cases writing with
  | write bytes =>
    rw [writing_write hclosed]
    refine ⟨?_, ?_, h.chunk_bounds, fun ending hended ↦ absurd hended (hgoing ending)⟩
    · exact (Pipe.Fifo.nonBlocking_write bytes).trans h.nonBlocking
    · show t.received ++ hand ++ (t.fifo.write bytes).bytes = t.written ++ bytes
      rw [Pipe.Fifo.bytes_write, ← List.append_assoc, h.bytes_eq]
  | close =>
    rw [writing_close hclosed]
    exact ⟨h.nonBlocking, h.bytes_eq, h.chunk_bounds,
      fun ending hended ↦ absurd hended (hgoing ending)⟩

theorem writings (h : Conserved t hand) (writings : List Writing) :
    Conserved (t.writings writings) hand := by
  induction writings generalizing t with
  | nil => exact h
  | cons first rest ih => exact ih (h.writing first)

/-- What the pipe gives away is in the hand of the loop. -/
theorem asked (hsize : 0 < size) (h : Conserved t []) (hready : t.isReady = true) :
    Conserved t.asked t.inHand := by
  have hbytes : t.received ++ t.fifo.bytes = t.written := by simpa using h.bytes_eq
  rw [inHand, Transfer.asked]
  rcases due_cases hsize h.nonBlocking hready with
    ⟨-, hdue⟩ | ⟨hempty, hclosed, hdue⟩ | ⟨event, readiness, next, hchunk, hgoing, hdue⟩
  · rw [hdue]
    refine ⟨h.nonBlocking, ?_, h.chunk_bounds, fun ending hended ↦ absurd hended (by simp)⟩
    show t.received ++ (t.fifo.bytes.take size ++ []) ++ t.fifo.bytes.drop size = t.written
    rw [List.append_nil, List.append_assoc, List.take_append_drop, hbytes]
  · rw [hdue]
    refine ⟨h.nonBlocking, h.bytes_eq, h.chunk_bounds, fun ending hended ↦ ?_⟩
    cases hended
    exact ⟨rfl, hclosed, hempty⟩
  · rw [hdue]
    have hnone : chunks [event] = [] := by simp [chunks, hchunk]
    refine ⟨h.nonBlocking, ?_, h.chunk_bounds, fun ending hended ↦ absurd hended (hgoing ending)⟩
    rw [hnone]
    exact h.bytes_eq

theorem record {events : List Event} (h : Conserved t (chunks events).flatten)
    (hbounds : ∀ chunk ∈ chunks events, chunk ≠ [] ∧ chunk.length ≤ size) :
    Conserved (t.record events) [] where
  nonBlocking := h.nonBlocking
  bytes_eq := by
    show (chunks (t.events ++ events)).flatten ++ [] ++ t.fifo.bytes = t.written
    rw [List.append_nil, chunks_append, List.flatten_append, ← h.bytes_eq, received]
  chunk_bounds chunk hchunk := by
    rw [Transfer.record, chunks_append, List.mem_append] at hchunk
    exact hchunk.elim (h.chunk_bounds chunk) (hbounds chunk)
  of_ended := h.of_ended

/-- A turn hands on at least one byte if it hands on any, and no more than the buffer has room
for. -/
theorem due_bounds (hsize : 0 < size) (h : Conserved t []) (hready : t.isReady = true) :
    ∀ chunk ∈ chunks t.due.events, chunk ≠ [] ∧ chunk.length ≤ size := by
  intro chunk hchunk
  rw [mem_chunks] at hchunk
  rcases due_cases hsize h.nonBlocking hready with
    ⟨hbytes, hdue⟩ | ⟨-, -, hdue⟩ | ⟨event, _, _, hnone, -, hdue⟩
  · have heq : chunk = t.fifo.bytes.take size := by simpa [hdue] using hchunk
    rw [heq]
    exact ⟨by simp [hbytes, Nat.ne_of_gt hsize], List.length_take_le _ _⟩
  · simp [hdue] at hchunk
  · have heq : Event.append chunk = event := by simpa [hdue] using hchunk
    rw [← heq] at hnone
    cases hnone

theorem step (hsize : 0 < size) (h : Conserved t []) (move : Move) :
    Conserved (t.step move) [] := by
  cases move with
  | writer writing => exact h.writing writing
  | register =>
    rw [Transfer.step]
    by_cases hwaiting : t.phase = .waiting
    · obtain ⟨readiness, hregister⟩ := t.fifo.exists_register
      rw [if_pos hwaiting, hregister]
      exact ⟨h.nonBlocking, h.bytes_eq, h.chunk_bounds, h.of_ended⟩
    · rw [if_neg hwaiting]
      exact h
  | loop meanwhile =>
    rw [Transfer.step]
    by_cases hready : t.isReady = true
    · rw [if_pos hready]
      exact ((h.asked hsize hready).writings meanwhile).record (h.due_bounds hsize hready)
    · rw [if_neg hready]
      exact h

theorem moves (hsize : 0 < size) (h : Conserved t []) (moves : List Move) :
    Conserved (t.moves moves) [] := by
  induction moves generalizing t with
  | nil => exact h
  | cons move rest ih => exact ih (h.step hsize move)

end Conserved

/-! ### Writes of no bytes -/

theorem writing_of_isEmpty {writing : Writing} (hempty : writing.isEmpty = true)
    (t : Transfer size) : t.writing writing = t := by
  cases writing with
  | write bytes =>
    rw [Writing.isEmpty, List.isEmpty_iff] at hempty
    by_cases hclosed : t.fifo.closed = true
    · exact writing_of_closed hclosed _
    · rw [writing_write hclosed, hempty, List.append_nil]
      rfl
  | close => cases hempty

theorem writings_filter (t : Transfer size) (writings : List Writing) :
    t.writings (writings.filter fun writing ↦ !writing.isEmpty) = t.writings writings := by
  induction writings generalizing t with
  | nil => rfl
  | cons first rest ih =>
    have hcons : t.writings (first :: rest) = (t.writing first).writings rest := rfl
    cases hempty : first.isEmpty with
    | false =>
      rw [List.filter_cons_of_pos (by simp [hempty]), hcons]
      exact ih (t.writing first)
    | true => rw [List.filter_cons_of_neg (by simp [hempty]), hcons, writing_of_isEmpty hempty, ih]

theorem moves_filterMap_solid? (t : Transfer size) (moves : List Move) :
    t.moves (moves.filterMap Move.solid?) = t.moves moves := by
  induction moves generalizing t with
  | nil => rfl
  | cons move rest ih =>
    have hcons : t.moves (move :: rest) = (t.step move).moves rest := rfl
    rw [hcons, ← ih (t.step move)]
    cases move with
    | writer writing =>
      cases hempty : writing.isEmpty with
      | false => simp [Move.solid?, hempty, Transfer.moves]
      | true => simp [Move.solid?, hempty, step, writing_of_isEmpty hempty]
    | register => rfl
    | loop meanwhile =>
      show (t.step (.loop _)).moves _ = _
      rw [step, writings_filter]
      rfl

/-! ### A loop that nobody disturbs -/

theorem moves_loop_of_ended {t : Transfer size} {ending : Ending} (hended : t.phase = .ended ending)
    (count : Nat) : t.moves (List.replicate count (.loop [])) = t := by
  have hready : t.isReady = false := by rw [isReady, hended]
  induction count with
  | zero => rfl
  | succ count ih =>
    show (t.step (.loop [])).moves (List.replicate count (.loop [])) = t
    rw [step, hready]
    exact ih

theorem moves_loop_succ {t : Transfer size} (hready : t.isReady = true) (count : Nat) :
    t.moves (List.replicate (count + 1) (.loop [])) =
      (t.asked.record t.due.events).moves (List.replicate count (.loop [])) := by
  show (t.step (.loop [])).moves (List.replicate count (.loop [])) = _
  rw [step, if_pos hready]
  rfl

/-- A loop that is not ready would fail to wait. -/
theorem isReady_of_due {t : Transfer size} (hphase : ∀ ending, t.phase ≠ .ended ending)
    (hdue : ∀ error, t.due.next ≠ .ended (.failed error)) : t.isReady = true := by
  cases hwaiting : t.phase with
  | reading => rw [isReady, hwaiting]
  | waiting =>
    rw [isReady, hwaiting]
    cases hwait : t.fifo.wait? with
    | some later => rfl
    | none =>
      have hfails : Pipe.Fifo.pipe.wait t.fifo = (.error Pipe.Fifo.wouldBlock, t.fifo) := by
        simp only [Pipe.Fifo.pipe, hwait]
      refine absurd ?_ (hdue (.waitFailed Pipe.Fifo.wouldBlock))
      rw [due, hwaiting, turn_waiting_of_error hfails]
  | ended ending => exact absurd hwaiting (hphase ending)

/-- Where the writer does nothing, the moves of the loop are the turns of its run, unless that run
fails. It fails where it would have to wait for the writer. -/
theorem moves_replicate_loop (fuel : Nat) {t : Transfer size}
    (hphase : ∀ ending, t.phase ≠ .ended ending) :
    let run := drain Pipe.Fifo.pipe fuel t.phase t.buffer t.fifo
    let later := t.moves (List.replicate fuel (.loop []))
    (∀ error, run.ending ≠ some (.failed error)) →
      later.events = t.events ++ run.events ∧ later.fifo = run.pipe ∧ later.buffer = run.buffer ∧
        ∀ ending, later.phase = .ended ending ↔ run.ending = some ending := by
  induction fuel generalizing t with
  | zero =>
    intro run later _
    refine ⟨(List.append_nil t.events).symm, rfl, rfl, fun ending ↦ ?_⟩
    simp [later, run, drain, moves, hphase]
  | succ fuel ih =>
    intro run later hrun
    by_cases hended : ∃ ending, t.due.next = .ended ending
    · obtain ⟨ending, hending⟩ := hended
      have hdrain : run = ⟨t.due.events, t.due.buffer, t.due.pipe, some ending⟩ :=
        drain_succ_of_ended hending
      have hready : t.isReady = true := isReady_of_due hphase fun error herror ↦ by
        rw [hdrain] at hrun
        rw [hending] at herror
        exact hrun error (congrArg some (Phase.ended.inj herror))
      have hlater : later = t.asked.record t.due.events :=
        (moves_loop_succ hready fuel).trans (moves_loop_of_ended hending fuel)
      rw [hlater, hdrain]
      refine ⟨rfl, rfl, rfl, fun other ↦ ?_⟩
      show t.due.next = .ended other ↔ _
      rw [hending, Phase.ended.injEq, Option.some.injEq]
    · have hgoing := not_exists.mp hended
      have hdrain : run = (drain Pipe.Fifo.pipe fuel t.due.next t.due.buffer t.due.pipe).after
          t.due.events := drain_succ_of_going hgoing
      have hready : t.isReady = true := isReady_of_due hphase fun error ↦ hgoing _
      have hlater : later = (t.asked.record t.due.events).moves (List.replicate fuel (.loop [])) :=
        moves_loop_succ hready fuel
      rw [hdrain] at hrun ⊢
      rw [hlater]
      obtain ⟨hevents, hfifo, hbuffer, hphases⟩ := ih (t := t.asked.record t.due.events) hgoing hrun
      refine ⟨?_, hfifo, hbuffer, hphases⟩
      rw [hevents]
      exact List.append_assoc _ _ _

/-! ### All orders -/

/-- In whatever order a writer and a loop act on a pipe, at any moment the bytes that the loop has
handed on and those still in the pipe are the bytes that were written. Midway through a turn the
bytes in the hand of the loop stand between them. The loop's run can only end at the end of the
stream, which it sees only after the writer has closed its end, and then all that was written has
been handed on. Nothing but pieces with bytes in them is handed on, and a write of no bytes makes no
difference, neither at once nor to what comes later. -/
theorem nothing_lost {loop : EventLoop} (hrunning : loop.state = .running) (order : List Move) :
    let t := (start loop).moves order
    t.received ++ t.fifo.bytes = t.written ∧
      (t.isReady = true → ∀ meanwhile, let midway := t.asked.writings meanwhile
        midway.received ++ t.inHand ++ midway.fifo.bytes = midway.written) ∧
      (∀ ending, t.phase = .ended ending →
        ending = .endOfStream ∧ t.fifo.closed = true ∧ t.received = t.written) ∧
      (∀ chunk ∈ chunks t.events, chunk ≠ [] ∧ chunk.length ≤ loop.bufferSize) ∧
      t.step (.writer (.write [])) = t ∧
      (start loop).moves (order.filterMap Move.solid?) = t := by
  intro t
  have hsize := loop.bufferSize_pos
  have hkept : Conserved t [] := (Conserved.start hrunning).moves hsize order
  have hbytes : t.received ++ t.fifo.bytes = t.written := by simpa using hkept.bytes_eq
  refine ⟨hbytes, ?_, ?_, hkept.chunk_bounds, ?_, moves_filterMap_solid? (start loop) order⟩
  · intro hready meanwhile midway
    exact ((hkept.asked hsize hready).writings meanwhile).bytes_eq
  · intro ending hended
    obtain ⟨hending, hclosed, hempty⟩ := hkept.of_ended ending hended
    rw [hempty, List.append_nil] at hbytes
    exact ⟨hending, hclosed, hbytes⟩
  · show t.writing (.write []) = t
    exact writing_of_isEmpty rfl t

/-- The loop finds nothing and begins to wait. Its writer then writes, nothing at first, also while
turns are being taken, and closes its end. -/
def entangled : List Move :=
  [.loop [], .register, .writer (.write []), .loop [], .writer (.write [1, 2, 3]),
    .loop [.write [4], .write []], .loop [.write [5]], .loop [.close], .loop [], .loop []]

theorem all_received_of_entangled :
    let t := (start narrow).moves entangled
    narrow.state = .running ∧ t.phase = .ended .endOfStream ∧ t.fifo.closed = true ∧
      chunks t.events = [[1, 2], [3, 4], [5]] ∧ t.received = [1, 2, 3, 4, 5] := by
  intro t
  have hrunning : narrow.state = .running := rfl
  have hended : t.phase = .ended .endOfStream := by decide +kernel
  obtain ⟨-, -, hending, -⟩ := nothing_lost hrunning entangled
  obtain ⟨-, hclosed, hreceived⟩ := hending .endOfStream hended
  exact ⟨hrunning, hended, hclosed, by decide +kernel, hreceived⟩

end Transfer

end EventLoop

end LintCore
