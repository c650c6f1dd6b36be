import LintCore.EventLoop.Basic
import Mathlib.Data.List.Basic

/-!
# What a run does is what the pipe answers

A pipe is asked to read and to wait, and answers; `Pipe.answers` are the answers to requests made
one after the other, from a given condition on. The requests of a run can be read off its events.
`drain_traced` says that its events are the reactions to the answers that the pipe gives to exactly
these requests, and that the pipe is left as these requests leave it: nothing is read that is not
reacted to, and nothing is reacted to twice. The reaction to bytes is to hand them on at once, so a
chunk has the bytes of the read before it and no others, whatever the buffer held.
`drain_ending_eq_endOfStream_iff` says that a run comes to the end of the stream exactly when one of
its reads gives no bytes.
-/

set_option autoImplicit false
set_option relaxedAutoImplicit false

namespace LintCore

/-! ### Requests and answers -/

namespace Pipe

/-- What can be asked of a pipe. -/
inductive Request where
  | read
  | wait

/-- What a pipe answers. To a read it answers with the bytes that it hands out. -/
inductive Answer where
  | read (result : Except Error (List UInt8))
  | wait (result : Except Error Unit)
deriving DecidableEq

/-- The bytes that an answer hands out. -/
def Answer.bytes : Answer → List UInt8
  | read (.ok chunk) => chunk
  | _ => []

variable {σ : Type} (pipe : Pipe σ) (size : Nat)

def answer (condition : σ) : Request → Answer × σ
  | .read => (.read (pipe.read size condition).1, (pipe.read size condition).2)
  | .wait => (.wait (pipe.wait condition).1, (pipe.wait condition).2)

/-- The answers to requests made one after the other, and the condition of the pipe after them. -/
def answers : List Request → σ → List Answer × σ
  | [], condition => ([], condition)
  | request :: rest, condition =>
    let first := pipe.answer size condition request
    let later := answers rest first.2
    (first.1 :: later.1, later.2)

theorem answers_append (first later : List Request) (condition : σ) :
    pipe.answers size (first ++ later) condition =
      ((pipe.answers size first condition).1 ++
          (pipe.answers size later (pipe.answers size first condition).2).1,
        (pipe.answers size later (pipe.answers size first condition).2).2) := by
  induction first generalizing condition with
  | nil => rfl
  | cons request rest ih => simp only [List.cons_append, answers, ih]

/-- An answer with bytes was given to a read. -/
theorem exists_read_of_mem_answers {requests : List Request} {condition : σ}
    {result : Except Error (List UInt8)}
    (h : Answer.read result ∈ (pipe.answers size requests condition).1) :
    ∃ before after, pipe.read size before = (result, after) := by
  induction requests generalizing condition with
  | nil => cases h
  | cons request rest ih =>
    rcases List.mem_cons.mp h with hfirst | hlater
    · cases request with
      | read =>
        cases hfirst
        exact ⟨condition, _, rfl⟩
      | wait => cases hfirst
    · exact ih hlater

/-- No read gives more bytes than the buffer has room for. -/
def Fits : Prop :=
  ∀ condition chunk next, pipe.read size condition = (.ok chunk, next) → chunk.length ≤ size

end Pipe

namespace EventLoop

variable {σ : Type} {pipe : Pipe σ} {size : Nat}

def Event.request? : Event → Option Pipe.Request
  | read _ => some .read
  | wait _ => some .wait
  | append _ => none

/-- What was asked of the pipe, in order. -/
def requests (events : List Event) : List Pipe.Request := events.filterMap Event.request?

def Event.chunk? : Event → Option (List UInt8)
  | append chunk => some chunk
  | _ => none

/-- What was handed on, piece by piece. -/
def chunks (events : List Event) : List (List UInt8) := events.filterMap Event.chunk?

/-- What the loop does about an answer: it takes note of it, and hands on bytes at once. -/
def reaction : Pipe.Answer → List Event
  | .read (.ok []) => [.read (.ok 0)]
  | .read (.ok (byte :: rest)) => [.read (.ok (rest.length + 1)), .append (byte :: rest)]
  | .read (.error error) => [.read (.error error)]
  | .wait result => [.wait result]

theorem requests_append (first later : List Event) :
    requests (first ++ later) = requests first ++ requests later :=
  List.filterMap_append

theorem chunks_append (first later : List Event) :
    chunks (first ++ later) = chunks first ++ chunks later :=
  List.filterMap_append

theorem mem_chunks {events : List Event} {chunk : List UInt8} :
    chunk ∈ chunks events ↔ Event.append chunk ∈ events := by
  rw [chunks, List.mem_filterMap]
  constructor
  · rintro ⟨event, hevent, hchunk⟩
    cases event with
    | append other =>
      cases hchunk
      exact hevent
    | read _ => cases hchunk
    | wait _ => cases hchunk
  · intro hevent
    exact ⟨_, hevent, rfl⟩

theorem flatten_chunks_reaction (answer : Pipe.Answer) :
    (chunks (reaction answer)).flatten = answer.bytes := by
  rcases answer with ⟨_ | _ | ⟨byte, rest⟩⟩ | _
  · rfl
  · rfl
  · exact List.append_nil _
  · rfl

/-- Reactions hand on all the bytes of the answers, in order. -/
theorem flatten_chunks_flatMap_reaction (answers : List Pipe.Answer) :
    (chunks (answers.flatMap reaction)).flatten = answers.flatMap Pipe.Answer.bytes := by
  induction answers with
  | nil => rfl
  | cons answer rest ih =>
    rw [List.flatMap_cons, chunks_append, List.flatten_append, flatten_chunks_reaction, ih,
      List.flatMap_cons]

theorem requests_reaction_read (result : Except Pipe.Error (List UInt8)) :
    requests (reaction (.read result)) = [.read] := by
  rcases result with _ | _ | _ <;> rfl

theorem read_zero_mem_reaction_iff (answer : Pipe.Answer) :
    Event.read (.ok 0) ∈ reaction answer ↔ answer = .read (.ok []) := by
  rcases answer with ⟨_ | _ | ⟨byte, rest⟩⟩ | _ <;> simp [reaction]

theorem eq_of_append_mem_reaction {answer : Pipe.Answer} {chunk : List UInt8}
    (h : Event.append chunk ∈ reaction answer) : answer = .read (.ok chunk) ∧ chunk ≠ [] := by
  rcases answer with ⟨_ | _ | ⟨byte, rest⟩⟩ | _ <;> simp [reaction] at h
  rw [h]
  exact ⟨rfl, List.cons_ne_nil byte rest⟩

/-! ### Events that the pipe accounts for -/

/-- The events are the reactions to what the pipe answers, from the condition `start` on, to the
requests among them, and `last` is its condition then. -/
structure Traced (pipe : Pipe σ) (size : Nat) (start : σ) (events : List Event) (last : σ) :
    Prop where
  events_eq : events = (pipe.answers size (requests events) start).1.flatMap reaction
  last_eq : last = (pipe.answers size (requests events) start).2

namespace Traced

theorem nil (start : σ) : Traced pipe size start [] start := ⟨rfl, rfl⟩

theorem read {start last : σ} {result : Except Pipe.Error (List UInt8)}
    (h : pipe.read size start = (result, last)) :
    Traced pipe size start (reaction (.read result)) last := by
  constructor <;> simp only [requests_reaction_read, Pipe.answers, Pipe.answer, h,
    List.flatMap_cons, List.flatMap_nil, List.append_nil]

theorem wait {start last : σ} {result : Except Pipe.Error Unit}
    (h : pipe.wait start = (result, last)) :
    Traced pipe size start (reaction (.wait result)) last := by
  constructor <;> simp [requests, reaction, Event.request?, Pipe.answers, Pipe.answer, h]

theorem append {start middle last : σ} {first later : List Event}
    (hfirst : Traced pipe size start first middle) (hlater : Traced pipe size middle later last) :
    Traced pipe size start (first ++ later) last := by
  have hanswers := pipe.answers_append size (requests first) (requests later) start
  rw [← hfirst.last_eq, ← requests_append] at hanswers
  constructor
  · rw [hanswers, List.flatMap_append, ← hfirst.events_eq, ← hlater.events_eq]
  · rw [hanswers]
    exact hlater.last_eq

theorem read_zero_mem_iff {start last : σ} {events : List Event}
    (h : Traced pipe size start events last) :
    Event.read (.ok 0) ∈ events ↔
      Pipe.Answer.read (.ok []) ∈ (pipe.answers size (requests events) start).1 := by
  rw [h.events_eq, List.mem_flatMap]
  simp only [read_zero_mem_reaction_iff, exists_eq_right, ← h.events_eq]

end Traced

theorem reaction_of_ne_nil {chunk : List UInt8} (hchunk : chunk ≠ []) :
    reaction (.read (.ok chunk)) = [.read (.ok chunk.length), .append chunk] := by
  cases chunk with
  | nil => exact absurd rfl hchunk
  | cons byte rest => rfl

/-- A turn reacts to the answer of the pipe. In particular the bytes handed on are those that the
pipe has just put into the buffer. -/
theorem Turned.traced (hfits : pipe.Fits size) {phase : Phase} {buffer : Buffer size}
    {condition : σ} {done : Turn σ size} (h : Turned pipe buffer condition phase done) :
    Traced pipe size condition done.events done.pipe := by
  cases h with
  | atEnd hread => exact Traced.read hread
  | chunk hread hchunk =>
    have htraced := Traced.read hread
    rw [reaction_of_ne_nil hchunk] at htraced
    rw [Buffer.front_fill buffer (hfits _ _ _ hread)]
    exact htraced
  | failure hread => exact Traced.read hread
  | waited hwait => exact Traced.wait hwait
  | waitFailure hwait => exact Traced.wait hwait

/-- The pipe accounts for all that a run does, also for a run seen midway. -/
theorem drain_traced (hfits : pipe.Fits size) (fuel : Nat) {phase : Phase}
    (hphase : ∀ ending, phase ≠ .ended ending) (buffer : Buffer size) (condition : σ) :
    Traced pipe size condition (drain pipe fuel phase buffer condition).events
      (drain pipe fuel phase buffer condition).pipe := by
  refine drain_induction (motive := fun _ _ condition run ↦
    Traced pipe size condition run.events run.pipe) ?_ ?_ ?_ fuel hphase buffer condition
  · intro _ _ condition
    exact Traced.nil condition
  · intro _ _ _ _ _ hturned _
    exact hturned.traced hfits
  · intro _ _ _ _ _ hturned _ hrest
    exact (hturned.traced hfits).append hrest

/-! ### The end of the stream -/

theorem afterFailure_ne_endOfStream (nonBlocking : Bool) (error : Pipe.Error) :
    afterFailure nonBlocking error ≠ .ended .endOfStream := by
  by_cases hinterrupted : error.kind = .interrupted
  · rw [afterFailure_of_interrupted hinterrupted]
    exact Phase.noConfusion
  · by_cases hwouldBlock : error.kind = .wouldBlock
    · rw [afterFailure_of_wouldBlock hwouldBlock]
      cases nonBlocking <;> simp
    · rw [afterFailure_of_fatal hinterrupted hwouldBlock]
      simp

theorem Turned.next_eq_endOfStream_iff {phase : Phase} {buffer : Buffer size} {condition : σ}
    {done : Turn σ size} (h : Turned pipe buffer condition phase done) :
    done.next = .ended .endOfStream ↔ Event.read (.ok 0) ∈ done.events := by
  cases h with
  | atEnd _ => simp
  | chunk _ hchunk => simp [eq_comm, hchunk]
  | failure _ => simp [afterFailure_ne_endOfStream]
  | waited _ => simp
  | waitFailure _ => simp

/-- A run comes to the end of the stream exactly when one of its reads gives no bytes. -/
theorem drain_ending_eq_endOfStream_iff (pipe : Pipe σ) (fuel : Nat) {phase : Phase}
    (hphase : ∀ ending, phase ≠ .ended ending) (buffer : Buffer size) (condition : σ) :
    (drain pipe fuel phase buffer condition).ending = some .endOfStream ↔
      Event.read (.ok 0) ∈ (drain pipe fuel phase buffer condition).events := by
  refine drain_induction (motive := fun _ _ _ run ↦
    run.ending = some .endOfStream ↔ Event.read (.ok 0) ∈ run.events) ?_ ?_ ?_ fuel hphase buffer
    condition
  · intro _ _ _
    simp
  · intro _ _ _ ending done hturned hending
    rw [← hturned.next_eq_endOfStream_iff, hending]
    simp
  · intro _ _ _ done run hturned hgoing hrest
    rw [Run.after, hrest, List.mem_append, ← hturned.next_eq_endOfStream_iff]
    simp [hgoing]

end EventLoop

end LintCore
