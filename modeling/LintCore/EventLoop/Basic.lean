import LintCore.Config.Basic
import LintCore.EventLoop.Buffer
import LintCore.Pipe.Basic

/-!
The loop that reads a pipe to its end and hands on every piece that it gets. It has one buffer for
all its reads, and hands on the front of it. An interrupted read is tried again. A pipe without
bytes that does not block is waited for; one that blocks should not have said so. Any other failure
ends the run, and a later run goes on from where it ended. Once the end of the stream has been seen
the loop is done, and does nothing any more.
-/

set_option autoImplicit false
set_option relaxedAutoImplicit false

namespace LintCore

namespace EventLoop

inductive State where
  | running
  | done
deriving DecidableEq

inductive Error where
  | zeroBufferSize
  | unexpectedWouldBlock
  | waitFailed (error : Pipe.Error)
  | readFailed (error : Pipe.Error)
deriving DecidableEq

def Error.message : Error → String
  | zeroBufferSize => "read buffer size must be greater than zero"
  | unexpectedWouldBlock => "blocking pipe reported that a read would block"
  | waitFailed error => "failed to wait for pipe to become readable: " ++ error.text
  | readFailed error => "failed to read from pipe: " ++ error.text

/-- What the loop does, as the pipe and the receiver of the bytes see it. -/
inductive Event where
  | read (outcome : Except Pipe.Error Nat)
  | wait (outcome : Except Pipe.Error Unit)
  | append (chunk : List UInt8)

/-- How a run ends. -/
inductive Ending where
  | endOfStream
  | failed (error : Error)
deriving DecidableEq

/-- What the loop is about to do. -/
inductive Phase where
  | reading
  | waiting
  | ended (ending : Ending)
deriving DecidableEq

theorem Phase.reading_ne_ended (ending : Ending) : Phase.reading ≠ .ended ending :=
  Phase.noConfusion

/-! ### One turn of the loop -/

/-- What a turn has come to. -/
structure Turn (σ : Type) (size : Nat) where
  events : List Event
  buffer : Buffer size
  pipe : σ
  next : Phase

section

variable {σ : Type} {size : Nat} (pipe : Pipe σ)

/-- What to do after a read that failed. -/
def afterFailure (nonBlocking : Bool) (error : Pipe.Error) : Phase :=
  match error.kind with
  | .interrupted => .reading
  | .wouldBlock => if nonBlocking then .waiting else .ended (.failed .unexpectedWouldBlock)
  | _ => .ended (.failed (.readFailed error))

theorem afterFailure_of_interrupted {error : Pipe.Error} (h : error.kind = .interrupted)
    (nonBlocking : Bool) : afterFailure nonBlocking error = .reading := by
  rw [afterFailure, h]

theorem afterFailure_of_wouldBlock {error : Pipe.Error} (h : error.kind = .wouldBlock)
    (nonBlocking : Bool) :
    afterFailure nonBlocking error =
      if nonBlocking then .waiting else .ended (.failed .unexpectedWouldBlock) := by
  rw [afterFailure, h]

theorem afterFailure_of_fatal {error : Pipe.Error} (hinterrupted : error.kind ≠ .interrupted)
    (hwouldBlock : error.kind ≠ .wouldBlock) (nonBlocking : Bool) :
    afterFailure nonBlocking error = .ended (.failed (.readFailed error)) := by
  unfold afterFailure
  split
  · next h => exact absurd h hinterrupted
  · next h => exact absurd h hwouldBlock
  · rfl

/-- Reads into the buffer, and hands on as much of its front as the read has filled. -/
def readTurn (buffer : Buffer size) (condition : σ) : Turn σ size :=
  match pipe.read size condition with
  | (.ok [], condition) => ⟨[.read (.ok 0)], buffer, condition, .ended .endOfStream⟩
  | (.ok chunk, condition) =>
    let buffer := buffer.fill chunk
    ⟨[.read (.ok chunk.length), .append (buffer.front chunk.length)], buffer, condition, .reading⟩
  | (.error error, condition) =>
    ⟨[.read (.error error)], buffer, condition, afterFailure (pipe.nonBlocking condition) error⟩

/-- Waits until there is something to read. -/
def waitTurn (buffer : Buffer size) (condition : σ) : Turn σ size :=
  match pipe.wait condition with
  | (.ok (), condition) => ⟨[.wait (.ok ())], buffer, condition, .reading⟩
  | (.error error, condition) =>
    ⟨[.wait (.error error)], buffer, condition, .ended (.failed (.waitFailed error))⟩

/-- Does what the phase says. -/
def turn : Phase → Buffer size → σ → Turn σ size
  | .reading, buffer, condition => readTurn pipe buffer condition
  | .waiting, buffer, condition => waitTurn pipe buffer condition
  | .ended ending, buffer, condition => ⟨[], buffer, condition, .ended ending⟩

variable {pipe} {buffer : Buffer size} {condition next : σ}

theorem turn_reading_of_end (h : pipe.read size condition = (.ok [], next)) :
    turn pipe .reading buffer condition = ⟨[.read (.ok 0)], buffer, next, .ended .endOfStream⟩ := by
  rw [turn, readTurn, h]

theorem turn_reading_of_chunk {chunk : List UInt8}
    (h : pipe.read size condition = (.ok chunk, next)) (hchunk : chunk ≠ []) :
    turn pipe .reading buffer condition =
      ⟨[.read (.ok chunk.length), .append ((buffer.fill chunk).front chunk.length)],
        buffer.fill chunk, next, .reading⟩ := by
  rw [turn, readTurn, h]
  cases chunk with
  | nil => exact absurd rfl hchunk
  | cons byte rest => rfl

theorem turn_reading_of_error {error : Pipe.Error}
    (h : pipe.read size condition = (.error error, next)) :
    turn pipe .reading buffer condition =
      ⟨[.read (.error error)], buffer, next, afterFailure (pipe.nonBlocking next) error⟩ := by
  rw [turn, readTurn, h]

theorem turn_waiting_of_ok (h : pipe.wait condition = (.ok (), next)) :
    turn pipe .waiting buffer condition = ⟨[.wait (.ok ())], buffer, next, .reading⟩ := by
  rw [turn, waitTurn, h]

theorem turn_waiting_of_error {error : Pipe.Error}
    (h : pipe.wait condition = (.error error, next)) :
    turn pipe .waiting buffer condition =
      ⟨[.wait (.error error)], buffer, next, .ended (.failed (.waitFailed error))⟩ := by
  rw [turn, waitTurn, h]

/-- What a turn can come to: one case for each sort of answer. -/
inductive Turned (pipe : Pipe σ) (buffer : Buffer size) (condition : σ) : Phase → Turn σ size → Prop
  | atEnd {next : σ} : pipe.read size condition = (.ok [], next) →
    Turned pipe buffer condition .reading ⟨[.read (.ok 0)], buffer, next, .ended .endOfStream⟩
  | chunk {chunk : List UInt8} {next : σ} : pipe.read size condition = (.ok chunk, next) →
    chunk ≠ [] → Turned pipe buffer condition .reading
      ⟨[.read (.ok chunk.length), .append ((buffer.fill chunk).front chunk.length)],
        buffer.fill chunk, next, .reading⟩
  | failure {error : Pipe.Error} {next : σ} : pipe.read size condition = (.error error, next) →
    Turned pipe buffer condition .reading
      ⟨[.read (.error error)], buffer, next, afterFailure (pipe.nonBlocking next) error⟩
  | waited {next : σ} : pipe.wait condition = (.ok (), next) →
    Turned pipe buffer condition .waiting ⟨[.wait (.ok ())], buffer, next, .reading⟩
  | waitFailure {error : Pipe.Error} {next : σ} : pipe.wait condition = (.error error, next) →
    Turned pipe buffer condition .waiting
      ⟨[.wait (.error error)], buffer, next, .ended (.failed (.waitFailed error))⟩

theorem turned (pipe : Pipe σ) {phase : Phase} (hphase : ∀ ending, phase ≠ .ended ending)
    (buffer : Buffer size) (condition : σ) :
    Turned pipe buffer condition phase (turn pipe phase buffer condition) := by
  cases phase with
  | reading =>
    match h : pipe.read size condition with
    | (.ok [], next) =>
      rw [turn_reading_of_end h]
      exact .atEnd h
    | (.ok (byte :: rest), next) =>
      rw [turn_reading_of_chunk h (List.cons_ne_nil byte rest)]
      exact .chunk h (List.cons_ne_nil byte rest)
    | (.error error, next) =>
      rw [turn_reading_of_error h]
      exact .failure h
  | waiting =>
    match h : pipe.wait condition with
    | (.ok (), next) =>
      rw [turn_waiting_of_ok h]
      exact .waited h
    | (.error error, next) =>
      rw [turn_waiting_of_error h]
      exact .waitFailure h
  | ended ending => exact absurd rfl (hphase ending)

end

/-! ### Turn after turn -/

/-- What a run, or the part of a run that the fuel lasted for, has come to. -/
structure Run (σ : Type) (size : Nat) where
  events : List Event
  buffer : Buffer size
  pipe : σ
  /-- None if the run goes on. -/
  ending : Option Ending

namespace Run

variable {σ : Type} {size : Nat}

/-- The run with events before it. -/
def after (events : List Event) (run : Run σ size) : Run σ size :=
  { run with events := events ++ run.events }

/-- The bytes handed on. -/
def received (run : Run σ size) : List UInt8 :=
  run.events.flatMap fun event ↦
    match event with
    | .append chunk => chunk
    | _ => []

end Run

/-- Takes turns until the run ends. Each turn takes one unit of fuel. -/
def drain {σ : Type} {size : Nat} (pipe : Pipe σ) :
    (fuel : Nat) → Phase → Buffer size → σ → Run σ size
  | 0, _, buffer, condition => ⟨[], buffer, condition, none⟩
  | fuel + 1, phase, buffer, condition =>
    let done := turn pipe phase buffer condition
    match done.next with
    | .ended ending => ⟨done.events, done.buffer, done.pipe, some ending⟩
    | next => (drain pipe fuel next done.buffer done.pipe).after done.events

section

variable {σ : Type} {size : Nat} {pipe : Pipe σ} {fuel : Nat} {phase : Phase} {buffer : Buffer size}
  {condition : σ}

theorem drain_succ_of_ended {ending : Ending}
    (h : (turn pipe phase buffer condition).next = .ended ending) :
    drain pipe (fuel + 1) phase buffer condition =
      ⟨(turn pipe phase buffer condition).events, (turn pipe phase buffer condition).buffer,
        (turn pipe phase buffer condition).pipe, some ending⟩ := by
  simp only [drain, h]

theorem drain_succ_of_going
    (h : ∀ ending, (turn pipe phase buffer condition).next ≠ .ended ending) :
    drain pipe (fuel + 1) phase buffer condition =
      (drain pipe fuel (turn pipe phase buffer condition).next
        (turn pipe phase buffer condition).buffer (turn pipe phase buffer condition).pipe).after
        (turn pipe phase buffer condition).events := by
  rw [drain]
  cases hnext : (turn pipe phase buffer condition).next with
  | reading => rfl
  | waiting => rfl
  | ended ending => exact absurd hnext (h ending)

theorem drain_of_turn_ended {filled : Buffer size} {later : σ} {events : List Event}
    {ending : Ending}
    (hturn : turn pipe phase buffer condition = ⟨events, filled, later, .ended ending⟩) :
    drain pipe (fuel + 1) phase buffer condition = ⟨events, filled, later, some ending⟩ := by
  rw [drain_succ_of_ended (congrArg Turn.next hturn), hturn]

theorem drain_of_turn_going {next : Phase} {filled : Buffer size} {later : σ}
    {events : List Event} (hturn : turn pipe phase buffer condition = ⟨events, filled, later, next⟩)
    (hnext : ∀ ending, next ≠ .ended ending) :
    drain pipe (fuel + 1) phase buffer condition =
      (drain pipe fuel next filled later).after events := by
  rw [drain_succ_of_going (by rw [hturn]; exact hnext), hturn]

/-- What holds of a run of no turns, of a turn that ends the run, and of a turn before a run of
which it holds, holds of every run. -/
theorem drain_induction {motive : Phase → Buffer size → σ → Run σ size → Prop}
    (paused : ∀ phase buffer condition, motive phase buffer condition ⟨[], buffer, condition, none⟩)
    (last : ∀ phase buffer condition ending done, Turned pipe buffer condition phase done →
      done.next = .ended ending →
        motive phase buffer condition ⟨done.events, done.buffer, done.pipe, some ending⟩)
    (next : ∀ phase buffer condition done run, Turned pipe buffer condition phase done →
      (∀ ending, done.next ≠ .ended ending) → motive done.next done.buffer done.pipe run →
        motive phase buffer condition (run.after done.events))
    (fuel : Nat) (hphase : ∀ ending, phase ≠ .ended ending) (buffer : Buffer size)
    (condition : σ) : motive phase buffer condition (drain pipe fuel phase buffer condition) := by
  induction fuel generalizing phase buffer condition with
  | zero => exact paused phase buffer condition
  | succ fuel ih =>
    have hturned := turned pipe hphase buffer condition
    by_cases hended : ∃ ending, (turn pipe phase buffer condition).next = .ended ending
    · obtain ⟨ending, hending⟩ := hended
      rw [drain_succ_of_ended hending]
      exact last phase buffer condition ending _ hturned hending
    · have hgoing := not_exists.mp hended
      rw [drain_succ_of_going hgoing]
      exact next phase buffer condition _ _ hturned hgoing (ih hgoing _ _)

end

end EventLoop

/-- A loop with its buffer, which has room for at least one byte. -/
structure EventLoop where
  bufferSize : Nat
  bufferSize_pos : 0 < bufferSize
  buffer : EventLoop.Buffer bufferSize := .zeros bufferSize
  state : EventLoop.State := .running

namespace EventLoop

def ofSize? (size : Nat) : Except Error EventLoop :=
  if h : 0 < size then .ok { bufferSize := size, bufferSize_pos := h }
  else .error .zeroBufferSize

def ofConfig? (config : EventLoopConfig) : Except Error EventLoop := ofSize? config.readBufferSize

/-- A loop with the buffer that a configuration has by itself. -/
def standard : EventLoop where
  bufferSize := ({} : EventLoopConfig).readBufferSize
  bufferSize_pos := by decide

/-- Reads the pipe to its end, or up to a failure, with fuel for so many turns. -/
def run {σ : Type} (loop : EventLoop) (pipe : Pipe σ) (fuel : Nat) (condition : σ) :
    Run σ loop.bufferSize × EventLoop :=
  match loop.state with
  | .done => (⟨[], loop.buffer, condition, some .endOfStream⟩, loop)
  | .running =>
    let run := drain pipe fuel .reading loop.buffer condition
    (run, { loop with
      buffer := run.buffer
      state := if run.ending = some .endOfStream then .done else .running })

/-- A loop that is done does nothing. -/
theorem run_of_done {σ : Type} {pipe : Pipe σ} {loop : EventLoop} (hdone : loop.state = .done)
    (fuel : Nat) (condition : σ) :
    loop.run pipe fuel condition = (⟨[], loop.buffer, condition, some .endOfStream⟩, loop) := by
  rw [run, hdone]

theorem run_of_running {σ : Type} {pipe : Pipe σ} {loop : EventLoop}
    (hrunning : loop.state = .running) (fuel : Nat) (condition : σ) :
    loop.run pipe fuel condition =
      (drain pipe fuel .reading loop.buffer condition,
        { loop with
          buffer := (drain pipe fuel .reading loop.buffer condition).buffer
          state := if (drain pipe fuel .reading loop.buffer condition).ending = some .endOfStream
            then .done else .running }) := by
  rw [run, hrunning]

end EventLoop

end LintCore
