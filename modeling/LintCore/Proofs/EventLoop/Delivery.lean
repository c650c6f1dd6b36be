import LintCore.Proofs.EventLoop.Scripted

/-!
# Every byte is delivered once, over the whole life of a loop

A loop may be called again after a call has come back, with an error or without. `Life` is a loop
and its pipe after any number of calls, with all that the calls did; a call is given fuel, and one
that comes back with less fuel than it needs is a call seen midway. `Life.Sound` is kept by each
call (`Life.Sound.call`), so it holds after any number of them (`Life.Sound.calls`): the pipe
accounts for all events since the first call, and the loop is done exactly when a read has given no
bytes. `delivered_exactly_once` puts together what follows for the bytes handed on, for the calls
after an error, and for the calls after the end.
-/

set_option autoImplicit false
set_option relaxedAutoImplicit false

namespace LintCore.EventLoop

variable {σ : Type} {pipe : Pipe σ}

/-! ### A single call -/

theorem bufferSize_run (loop : EventLoop) (fuel : Nat) (condition : σ) :
    (loop.run pipe fuel condition).2.bufferSize = loop.bufferSize := by
  cases hstate : loop.state <;> rw [run, hstate]

theorem run_traced {loop : EventLoop} (hfits : pipe.Fits loop.bufferSize) (fuel : Nat)
    (condition : σ) :
    Traced pipe loop.bufferSize condition (loop.run pipe fuel condition).1.events
      (loop.run pipe fuel condition).1.pipe := by
  cases hstate : loop.state with
  | done =>
    rw [run_of_done hstate]
    exact Traced.nil condition
  | running =>
    rw [run_of_running hstate]
    exact drain_traced hfits fuel Phase.reading_ne_ended loop.buffer condition

/-- After a call that it began running, a loop is done if a read of that call gave no bytes. -/
theorem state_run_eq_done_iff {loop : EventLoop} (hrunning : loop.state = .running) (fuel : Nat)
    (condition : σ) :
    (loop.run pipe fuel condition).2.state = .done ↔
      Event.read (.ok 0) ∈ (loop.run pipe fuel condition).1.events := by
  have hending := drain_ending_eq_endOfStream_iff pipe fuel Phase.reading_ne_ended loop.buffer
    condition
  rw [run_of_running hrunning, ← hending]
  simp

theorem state_run_of_failed {loop : EventLoop} {fuel : Nat} {condition : σ} {error : Error}
    (hfailed : (loop.run pipe fuel condition).1.ending = some (.failed error)) :
    (loop.run pipe fuel condition).2.state = .running := by
  cases hstate : loop.state with
  | done =>
    rw [run_of_done hstate] at hfailed
    cases hfailed
  | running =>
    rw [run_of_running hstate] at hfailed ⊢
    rw [hfailed]
    rfl

/-- A call that begins running first reacts to what the pipe answers next. -/
theorem reaction_prefix_run {loop : EventLoop} (hfits : pipe.Fits loop.bufferSize)
    (hrunning : loop.state = .running) (fuel : Nat) (condition : σ) :
    reaction (.read (pipe.read loop.bufferSize condition).1) <+:
      (loop.run pipe (fuel + 1) condition).1.events := by
  have hfirst : (turn pipe .reading loop.buffer condition).events =
      reaction (.read (pipe.read loop.bufferSize condition).1) := by
    have hturned := turned pipe Phase.reading_ne_ended loop.buffer condition
    generalize turn pipe .reading loop.buffer condition = done at *
    cases hturned with
    | atEnd hread => rw [hread, reaction]
    | chunk hread hchunk =>
      rw [hread, reaction_of_ne_nil hchunk, Buffer.front_fill _ (hfits _ _ _ hread)]
    | failure hread => rw [hread, reaction]
  rw [run_of_running hrunning, ← hfirst]
  by_cases hended : ∃ ending, (turn pipe .reading loop.buffer condition).next = .ended ending
  · obtain ⟨ending, hending⟩ := hended
    exact ⟨[], by rw [List.append_nil, drain_succ_of_ended hending]⟩
  · rw [drain_succ_of_going (not_exists.mp hended)]
    exact List.prefix_append _ _

/-! ### Any number of calls -/

/-- A loop and its pipe after some calls, with what the calls did. -/
structure Life (σ : Type) where
  loop : EventLoop
  condition : σ
  events : List Event

namespace Life

/-- Before the first call. -/
def start (loop : EventLoop) (condition : σ) : Life σ := ⟨loop, condition, []⟩

/-- After one more call. -/
def call (pipe : Pipe σ) (life : Life σ) (fuel : Nat) : Life σ where
  loop := (life.loop.run pipe fuel life.condition).2
  condition := (life.loop.run pipe fuel life.condition).1.pipe
  events := life.events ++ (life.loop.run pipe fuel life.condition).1.events

/-- After more calls, each with fuel of its own. -/
def calls (pipe : Pipe σ) (life : Life σ) (fuels : List Nat) : Life σ :=
  fuels.foldl (call pipe) life

theorem call_of_done {life : Life σ} (hdone : life.loop.state = .done) (fuel : Nat) :
    life.call pipe fuel = life := by
  simp only [call, run_of_done hdone, List.append_nil]

theorem calls_of_done {life : Life σ} (hdone : life.loop.state = .done) (fuels : List Nat) :
    life.calls pipe fuels = life := by
  induction fuels with
  | nil => rfl
  | cons fuel rest ih =>
    show (life.call pipe fuel).calls pipe rest = life
    rw [call_of_done hdone, ih]

/-- What holds of a life whose pipe was in the condition `first` at the start. -/
structure Sound (pipe : Pipe σ) (size : Nat) (first : σ) (life : Life σ) : Prop where
  size_eq : life.loop.bufferSize = size
  traced : Traced pipe size first life.events life.condition
  done_iff : life.loop.state = .done ↔ Event.read (.ok 0) ∈ life.events

namespace Sound

variable {size : Nat} {first : σ}

theorem start {loop : EventLoop} (hrunning : loop.state = .running) (first : σ) :
    Sound pipe loop.bufferSize first (Life.start loop first) where
  size_eq := rfl
  traced := Traced.nil first
  done_iff := by simp [Life.start, hrunning]

theorem call (hfits : pipe.Fits size) {life : Life σ} (h : Sound pipe size first life)
    (fuel : Nat) : Sound pipe size first (life.call pipe fuel) := by
  obtain ⟨rfl, htraced, hdone⟩ := h
  refine ⟨bufferSize_run life.loop fuel life.condition,
    htraced.append (run_traced hfits fuel life.condition), ?_⟩
  show (life.loop.run pipe fuel life.condition).2.state = .done ↔
    Event.read (.ok 0) ∈ life.events ++ (life.loop.run pipe fuel life.condition).1.events
  cases hstate : life.loop.state with
  | done =>
    rw [run_of_done hstate, List.append_nil]
    exact hdone
  | running =>
    have hbefore : Event.read (.ok 0) ∉ life.events := fun hmem ↦ by
      rw [hdone.mpr hmem] at hstate
      cases hstate
    rw [state_run_eq_done_iff hstate, List.mem_append]
    simp [hbefore]

theorem calls (hfits : pipe.Fits size) {life : Life σ} (h : Sound pipe size first life)
    (fuels : List Nat) : Sound pipe size first (life.calls pipe fuels) := by
  induction fuels generalizing life with
  | nil => exact h
  | cons fuel rest ih => exact ih (h.call hfits fuel)

/-- No piece handed on is empty, and none is larger than the buffer. -/
theorem chunk_bounds (hfits : pipe.Fits size) {life : Life σ} (h : Sound pipe size first life)
    {chunk : List UInt8} (hchunk : chunk ∈ chunks life.events) :
    chunk ≠ [] ∧ chunk.length ≤ size := by
  rw [mem_chunks, h.traced.events_eq, List.mem_flatMap] at hchunk
  obtain ⟨answer, hanswer, hmem⟩ := hchunk
  obtain ⟨rfl, hne⟩ := eq_of_append_mem_reaction hmem
  obtain ⟨condition, next, hread⟩ := pipe.exists_read_of_mem_answers size hanswer
  exact ⟨hne, hfits condition chunk next hread⟩

end Sound

end Life

/-- Every delegate receives the bytes that the pipe hands out once and in order, however often the
loop is called. -/
theorem delivered_exactly_once (loop : EventLoop) (hrunning : loop.state = .running) (pipe : Pipe σ)
    (hfits : pipe.Fits loop.bufferSize) (first : σ) (fuels : List Nat) :
    let life := (Life.start loop first).calls pipe fuels
    let served := pipe.answers loop.bufferSize (requests life.events) first
    life.events = served.1.flatMap reaction ∧
      life.condition = served.2 ∧
      (chunks life.events).flatten = served.1.flatMap Pipe.Answer.bytes ∧
      (∀ chunk ∈ chunks life.events, chunk ≠ [] ∧ chunk.length ≤ loop.bufferSize) ∧
      (life.loop.state = .done ↔ Pipe.Answer.read (.ok []) ∈ served.1) ∧
      (∀ fuel error,
        (life.loop.run pipe fuel life.condition).1.ending = some (.failed error) →
          (life.call pipe fuel).loop.state = .running) ∧
      (life.loop.state = .running → ∀ fuel,
        reaction (.read (pipe.read loop.bufferSize life.condition).1) <+:
          (life.loop.run pipe (fuel + 1) life.condition).1.events) ∧
      (life.loop.state = .done → ∀ fuel more,
        (life.loop.run pipe fuel life.condition).1 =
            ⟨[], life.loop.buffer, life.condition, some .endOfStream⟩ ∧
          life.calls pipe more = life) := by
  intro life served
  have hsound : Life.Sound pipe loop.bufferSize first life :=
    (Life.Sound.start hrunning first).calls hfits fuels
  have hevents : life.events = served.1.flatMap reaction := hsound.traced.events_eq
  refine ⟨hevents, hsound.traced.last_eq, ?_, fun chunk hchunk ↦ hsound.chunk_bounds hfits hchunk,
    hsound.done_iff.trans hsound.traced.read_zero_mem_iff, ?_, ?_, ?_⟩
  · rw [hevents, flatten_chunks_flatMap_reaction]
  · intro fuel error hfailed
    exact state_run_of_failed hfailed
  · intro hstate fuel
    have hsize := hsound.size_eq
    rw [← hsize]
    exact reaction_prefix_run (hsize ▸ hfits) hstate fuel life.condition
  · intro hstate fuel more
    exact ⟨congrArg Prod.fst (run_of_done hstate fuel life.condition),
      Life.calls_of_done hstate more⟩

/-- A loop whose buffer has room for two bytes. -/
def narrow : EventLoop := { bufferSize := 2, bufferSize_pos := Nat.two_pos }

/-- A script with a failed read, a failed wait, and data behind the end of the stream. -/
def troubled : Pipe.Script where
  steps := [.data [1, 2, 3], .fail ⟨.brokenPipe, "broken"⟩, .fail ⟨.wouldBlock, "later"⟩,
    .data [4], .data [], .data [5]]
  waits := [some ⟨.timedOut, "late"⟩]

/-- Four calls, of which two fail, one comes to the end and one does nothing, deliver what comes
before the end. -/
theorem delivered_in_four_calls :
    let life := (Life.start narrow troubled).calls (Pipe.Script.pipe true) [9, 9, 9, 9]
    narrow.state = .running ∧ (Pipe.Script.pipe true).Fits narrow.bufferSize ∧
      (chunks life.events).flatten = [1, 2, 3, 4] ∧ life.loop.state = .done := by
  intro life
  have hfits := Pipe.Script.fits_pipe true narrow.bufferSize
  obtain ⟨-, -, hbytes, -, hdone, -⟩ := delivered_exactly_once narrow rfl (Pipe.Script.pipe true)
    hfits troubled [9, 9, 9, 9]
  refine ⟨rfl, hfits, hbytes.trans (by rfl), hdone.mpr ?_⟩
  decide

end LintCore.EventLoop
