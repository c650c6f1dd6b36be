import LintCore.Proofs.EventLoop.Scripted
import LintCore.Proofs.EventLoop.Waits
import Mathlib.Data.Nat.Find
import Mathlib.Tactic.IntervalCases

/-!
# The first terminal outcome ends a run

A `Pipe.Course` says what all reads and all waits of a pipe come to, one after the other and without
end; every script has one (`Pipe.Script.follows`). `Terminal` tells which reads of a course end a
run, and how. A read that is not terminal is gone past (`drain_going`), and so is any number of them
(`drain_going_of_lt`); a terminal one is the last that the run makes (`drain_last`). Hence a run
ends exactly if the course has a terminal read, and then with the first one
(`ended_by_first_terminal`).
-/

set_option autoImplicit false
set_option relaxedAutoImplicit false

namespace LintCore

/-! ### Courses -/

namespace Pipe

/-- What the reads and the waits of a pipe come to. Both are counted from zero, each on its own. -/
structure Course where
  reads : Nat → Except Error (List UInt8)
  waits : Nat → Except Error Unit

/-- The pipe answers as the course says, with at most `size` bytes at a time, and `condition` is its
condition after so many reads and so many waits. -/
structure Follows {σ : Type} (pipe : Pipe σ) (size : Nat) (nonBlocking : Bool) (course : Course)
    (condition : Nat → Nat → σ) : Prop where
  nonBlocking_eq : ∀ reads waits, pipe.nonBlocking (condition reads waits) = nonBlocking
  read_eq : ∀ reads waits, pipe.read size (condition reads waits) =
    (course.reads reads, condition (reads + 1) waits)
  wait_eq : ∀ reads waits, pipe.wait (condition reads waits) =
    (course.waits waits, condition reads (waits + 1))
  length_le : ∀ read chunk, course.reads read = .ok chunk → chunk.length ≤ size

namespace Course

variable (course : Course) (nonBlocking : Bool) (read : Nat)

/-- Whether a read would have blocked on a pipe that does not block, so that it is waited for. -/
def isWaited : Bool :=
  match course.reads read with
  | .error error => nonBlocking && error.kind = .wouldBlock
  | .ok _ => false

/-- The number of waits that the reads before this one take. -/
def waitsBefore : Nat := (List.range read).countP (course.isWaited nonBlocking)

/-- What is asked of the pipe for a read. -/
def requests : List Request := if course.isWaited nonBlocking read then [.read, .wait] else [.read]

/-- The bytes that a read gives, if it gives any. -/
def chunk? : Option (List UInt8) :=
  match course.reads read with
  | .ok [] => none
  | .ok chunk => some chunk
  | .error _ => none

variable {course read}

theorem isWaited_of_ok {chunk : List UInt8} (h : course.reads read = .ok chunk) :
    course.isWaited nonBlocking read = false := by
  rw [isWaited, h]

theorem isWaited_of_error {error : Error} (h : course.reads read = .error error) :
    course.isWaited nonBlocking read = (nonBlocking && error.kind = .wouldBlock) := by
  rw [isWaited, h]

theorem isWaited_of_wouldBlock {error : Error} (h : course.reads read = .error error)
    (hkind : error.kind = .wouldBlock) : course.isWaited true read = true := by
  rw [isWaited_of_error true h]
  simp [hkind]

theorem isWaited_of_ne_wouldBlock {error : Error} (h : course.reads read = .error error)
    (hkind : error.kind ≠ .wouldBlock) : course.isWaited nonBlocking read = false := by
  rw [isWaited_of_error nonBlocking h]
  simp [hkind]

theorem waitsBefore_succ :
    course.waitsBefore nonBlocking (read + 1) =
      course.waitsBefore nonBlocking read + if course.isWaited nonBlocking read then 1 else 0 := by
  simp only [waitsBefore, List.range_succ, List.countP_append, List.countP_singleton]

theorem waitsBefore_blocking (course : Course) (read : Nat) :
    course.waitsBefore false read = 0 := by
  refine List.countP_eq_zero.mpr fun earlier _ ↦ ?_
  cases h : course.reads earlier with
  | ok chunk => simp [isWaited_of_ok false h]
  | error error => simp [isWaited_of_error false h]

/-- A pipe that goes through the course. Its condition is the number of reads and of waits so
far. -/
def replay (course : Course) (nonBlocking : Bool) : Pipe (Nat × Nat) where
  nonBlocking _ := nonBlocking
  read _ condition := (course.reads condition.1, condition.1 + 1, condition.2)
  wait condition := (course.waits condition.2, condition.1, condition.2 + 1)

/-- Every course with reads of at most `size` bytes is followed by a pipe. -/
theorem follows_replay {size : Nat}
    (hfits : ∀ read chunk, course.reads read = .ok chunk → chunk.length ≤ size) :
    (course.replay nonBlocking).Follows size nonBlocking course Prod.mk where
  nonBlocking_eq _ _ := rfl
  read_eq _ _ := rfl
  wait_eq _ _ := rfl
  length_le := hfits

end Course

/-! ### The course of a script -/

namespace Script

/-- The steps that are left after so many reads of at most `size` bytes. -/
def stepsAfter (size : Nat) (steps : List Step) : Nat → List Step
  | 0 => steps
  | reads + 1 => (read size ⟨stepsAfter size steps reads, []⟩).2.steps

/-- What the reads of at most `size` bytes, and the waits, come to. -/
def course (script : Script) (size : Nat) : Course where
  reads count := (read size ⟨stepsAfter size script.steps count, []⟩).1
  waits count :=
    match (script.waits.drop count).head?.join with
    | none => .ok ()
    | some failure => .error failure

theorem read_eq_of_steps (size : Nat) (steps : List Step) (waits : List (Option Error)) :
    read size ⟨steps, waits⟩ =
      ((read size ⟨steps, []⟩).1, ⟨(read size ⟨steps, []⟩).2.steps, waits⟩) := by
  match steps with
  | [] => rfl
  | .fail error :: rest => rfl
  | .data bytes :: rest =>
    by_cases h : bytes.length ≤ size
    · simp [read, h]
    · simp [read, h]

/-- The pipe of a script follows the script's course. -/
theorem follows (script : Script) (nonBlocking : Bool) (size : Nat) :
    (pipe nonBlocking).Follows size nonBlocking (script.course size)
      fun reads waits ↦ ⟨stepsAfter size script.steps reads, script.waits.drop waits⟩ where
  nonBlocking_eq _ _ := rfl
  read_eq reads waits := read_eq_of_steps size (stepsAfter size script.steps reads) _
  wait_eq reads waits := by
    rw [← List.tail_drop]
    cases h : (script.waits.drop waits).head?.join with
    | none =>
      rw [wait_of_none nonBlocking _ h]
      simp only [course, h]
    | some failure =>
      rw [wait_of_some nonBlocking _ h]
      simp only [course, h]
  length_le read chunk h := by
    have hread : (pipe nonBlocking).read size ⟨stepsAfter size script.steps read, []⟩ =
        (.ok chunk, ⟨stepsAfter size script.steps (read + 1), []⟩) :=
      (read_eq_of_steps size _ []).trans (Prod.ext h rfl)
    exact fits_pipe nonBlocking size _ chunk _ hread

end Script

end Pipe

namespace EventLoop

variable {σ : Type} {pipe : Pipe σ} {size : Nat}

/-! ### Reads that end a run -/

/-- The reads of a course that end a run, with the ending. The wait for a read is the next one after
those for the reads before it. -/
inductive Terminal (course : Pipe.Course) (nonBlocking : Bool) (read : Nat) : Ending → Prop
  | endOfStream : course.reads read = .ok [] → Terminal course nonBlocking read .endOfStream
  | unexpectedWouldBlock {error : Pipe.Error} : course.reads read = .error error →
    error.kind = .wouldBlock → nonBlocking = false →
      Terminal course nonBlocking read (.failed .unexpectedWouldBlock)
  | waitFailed {error failure : Pipe.Error} : course.reads read = .error error →
    error.kind = .wouldBlock → nonBlocking = true →
      course.waits (course.waitsBefore nonBlocking read) = .error failure →
        Terminal course nonBlocking read (.failed (.waitFailed failure))
  | readFailed {error : Pipe.Error} : course.reads read = .error error →
    error.kind ≠ .interrupted → error.kind ≠ .wouldBlock →
      Terminal course nonBlocking read (.failed (.readFailed error))

/-- What a run does about a read and the wait for it. -/
def handling (course : Pipe.Course) (nonBlocking : Bool) (read : Nat) : List Event :=
  reaction (.read (course.reads read)) ++
    if course.isWaited nonBlocking read then
      reaction (.wait (course.waits (course.waitsBefore nonBlocking read)))
    else []

theorem handling_of_not_isWaited {course : Pipe.Course} {nonBlocking : Bool} {read : Nat}
    (h : course.isWaited nonBlocking read = false) :
    handling course nonBlocking read = reaction (.read (course.reads read)) := by
  rw [handling, h, if_neg Bool.false_ne_true, List.append_nil]

theorem handling_of_isWaited {course : Pipe.Course} {nonBlocking : Bool} {read : Nat}
    (h : course.isWaited nonBlocking read = true) :
    handling course nonBlocking read = reaction (.read (course.reads read)) ++
      [.wait (course.waits (course.waitsBefore nonBlocking read))] := by
  rw [handling, h, if_pos rfl, reaction]

/-! ### One read of a course -/

theorem Run.after_after (run : Run σ size) (first later : List Event) :
    (run.after later).after first = run.after (first ++ later) := by
  rw [after, after, after, List.append_assoc]

section

variable {nonBlocking : Bool} {course : Pipe.Course} {condition : Nat → Nat → σ} {read : Nat}

/-- The first turn for a read of the course that fails. -/
theorem turn_of_failure (hfollows : pipe.Follows size nonBlocking course condition)
    {error : Pipe.Error} (h : course.reads read = .error error) (waits : Nat)
    (buffer : Buffer size) :
    turn pipe .reading buffer (condition read waits) =
      ⟨[.read (.error error)], buffer, condition (read + 1) waits,
        afterFailure nonBlocking error⟩ := by
  have hread := hfollows.read_eq read waits
  rw [h] at hread
  rw [turn_reading_of_error hread, hfollows.nonBlocking_eq]

/-- After a read that would have blocked comes a wait. -/
theorem drain_of_wouldBlock (hfollows : pipe.Follows size true course condition)
    {error : Pipe.Error} (h : course.reads read = .error error) (hkind : error.kind = .wouldBlock)
    (waits : Nat) (buffer : Buffer size) (fuel : Nat) :
    drain pipe (fuel + 1) .reading buffer (condition read waits) =
      (drain pipe fuel .waiting buffer (condition (read + 1) waits)).after
        [.read (.error error)] := by
  have hturn := turn_of_failure hfollows h waits buffer
  rw [afterFailure_of_wouldBlock hkind, if_pos rfl] at hturn
  exact drain_of_turn_going hturn fun _ ↦ Phase.noConfusion

/-- A read that is not terminal is gone past, with one turn for it and one for its wait. -/
theorem drain_going (hfollows : pipe.Follows size nonBlocking course condition)
    (hgoing : ∀ ending, ¬ Terminal course nonBlocking read ending) (buffer : Buffer size) :
    ∃ filled : Buffer size, ∀ fuel,
      drain pipe (fuel + 1 + if course.isWaited nonBlocking read then 1 else 0) .reading buffer
          (condition read (course.waitsBefore nonBlocking read)) =
        (drain pipe fuel .reading filled
          (condition (read + 1) (course.waitsBefore nonBlocking (read + 1)))).after
            (handling course nonBlocking read) := by
  rw [Pipe.Course.waitsBefore_succ]
  generalize hwaits : course.waitsBefore nonBlocking read = waits
  cases h : course.reads read with
  | ok chunk =>
    have hchunk : chunk ≠ [] := by
      rintro rfl
      exact hgoing _ (.endOfStream h)
    have hread := hfollows.read_eq read waits
    rw [h] at hread
    have hturn : turn pipe .reading buffer (condition read waits) = _ :=
      turn_reading_of_chunk hread hchunk
    rw [Buffer.front_fill buffer (hfollows.length_le read chunk h)] at hturn
    have hnot := Pipe.Course.isWaited_of_ok nonBlocking h
    refine ⟨buffer.fill chunk, fun fuel ↦ ?_⟩
    rw [handling_of_not_isWaited hnot, hnot, h, reaction_of_ne_nil hchunk]
    exact drain_of_turn_going hturn Phase.reading_ne_ended
  | error error =>
    refine ⟨buffer, fun fuel ↦ ?_⟩
    by_cases hwouldBlock : error.kind = .wouldBlock
    · cases nonBlocking with
      | false => exact absurd (.unexpectedWouldBlock h hwouldBlock rfl) (hgoing _)
      | true =>
        have hwaited := Pipe.Course.isWaited_of_wouldBlock h hwouldBlock
        cases hwait : course.waits waits with
        | error failure =>
          exact absurd (.waitFailed h hwouldBlock rfl (hwaits ▸ hwait)) (hgoing _)
        | ok done =>
          have hpipe := hfollows.wait_eq (read + 1) waits
          rw [hwait] at hpipe
          rw [handling_of_isWaited hwaited, hwaited, h, hwaits, hwait, if_pos rfl,
            drain_of_wouldBlock hfollows h hwouldBlock,
            drain_of_turn_going (turn_waiting_of_ok hpipe) Phase.reading_ne_ended, Run.after_after]
          rfl
    · have hinterrupted : error.kind = .interrupted := by
        by_contra hother
        exact hgoing _ (.readFailed h hother hwouldBlock)
      have hturn := turn_of_failure hfollows h waits buffer
      have hnot := Pipe.Course.isWaited_of_ne_wouldBlock nonBlocking h hwouldBlock
      rw [afterFailure_of_interrupted hinterrupted] at hturn
      rw [handling_of_not_isWaited hnot, hnot, h]
      exact drain_of_turn_going hturn Phase.reading_ne_ended

/-- A terminal read is the last of a run. -/
theorem drain_last (hfollows : pipe.Follows size nonBlocking course condition) {ending : Ending}
    (hterminal : Terminal course nonBlocking read ending) (buffer : Buffer size) (fuel : Nat) :
    drain pipe (fuel + 1 + if course.isWaited nonBlocking read then 1 else 0) .reading buffer
        (condition read (course.waitsBefore nonBlocking read)) =
      ⟨handling course nonBlocking read, buffer,
        condition (read + 1) (course.waitsBefore nonBlocking (read + 1)), some ending⟩ := by
  rw [Pipe.Course.waitsBefore_succ]
  cases hterminal with
  | endOfStream h =>
    have hread := hfollows.read_eq read (course.waitsBefore nonBlocking read)
    rw [h] at hread
    have hnot := Pipe.Course.isWaited_of_ok nonBlocking h
    rw [handling_of_not_isWaited hnot, hnot, h]
    exact drain_of_turn_ended (turn_reading_of_end hread)
  | unexpectedWouldBlock h hwouldBlock hmode =>
    subst hmode
    have hturn := turn_of_failure hfollows h (course.waitsBefore false read) buffer
    have hnot : course.isWaited false read = false := Pipe.Course.isWaited_of_error false h
    rw [afterFailure_of_wouldBlock hwouldBlock, if_neg Bool.false_ne_true] at hturn
    rw [handling_of_not_isWaited hnot, hnot, h]
    exact drain_of_turn_ended hturn
  | waitFailed h hwouldBlock hmode hwait =>
    subst hmode
    have hwaited := Pipe.Course.isWaited_of_wouldBlock h hwouldBlock
    have hpipe := hfollows.wait_eq (read + 1) (course.waitsBefore true read)
    rw [hwait] at hpipe
    rw [handling_of_isWaited hwaited, hwaited, h, hwait, if_pos rfl,
      drain_of_wouldBlock hfollows h hwouldBlock,
      drain_of_turn_ended (turn_waiting_of_error hpipe)]
    rfl
  | readFailed h hinterrupted hwouldBlock =>
    have hturn := turn_of_failure hfollows h (course.waitsBefore nonBlocking read) buffer
    have hnot := Pipe.Course.isWaited_of_ne_wouldBlock nonBlocking h hwouldBlock
    rw [afterFailure_of_fatal hinterrupted hwouldBlock] at hturn
    rw [handling_of_not_isWaited hnot, hnot, h]
    exact drain_of_turn_ended hturn

/-! ### All reads of a course -/

/-- Any number of reads that are not terminal are gone past. -/
theorem drain_going_of_lt (hfollows : pipe.Follows size nonBlocking course condition) {count : Nat}
    (hgoing : ∀ read < count, ∀ ending, ¬ Terminal course nonBlocking read ending)
    (buffer : Buffer size) :
    ∃ filled : Buffer size, ∀ fuel,
      drain pipe (fuel + count + course.waitsBefore nonBlocking count) .reading buffer
          (condition 0 0) =
        (drain pipe fuel .reading filled
          (condition count (course.waitsBefore nonBlocking count))).after
            ((List.range count).flatMap (handling course nonBlocking)) := by
  induction count with
  | zero => exact ⟨buffer, fun fuel ↦ rfl⟩
  | succ count ih =>
    obtain ⟨before, hbefore⟩ := ih fun read hread ↦ hgoing read (Nat.lt_succ_of_lt hread)
    obtain ⟨filled, hfilled⟩ := drain_going hfollows (hgoing count (Nat.lt_succ_self count)) before
    refine ⟨filled, fun fuel ↦ ?_⟩
    have hfuel : fuel + (count + 1) + course.waitsBefore nonBlocking (count + 1) =
        (fuel + 1 + if course.isWaited nonBlocking count then 1 else 0) + count +
          course.waitsBefore nonBlocking count := by
      rw [Pipe.Course.waitsBefore_succ]
      omega
    rw [hfuel, hbefore, hfilled, Run.after_after, List.range_succ, List.flatMap_append,
      List.flatMap_singleton]

/-- A run over a course whose first terminal read is known. -/
theorem drain_of_first_terminal (hfollows : pipe.Follows size nonBlocking course condition)
    {last : Nat} {ending : Ending} (hlast : Terminal course nonBlocking last ending)
    (hfirst : ∀ earlier < last, ∀ other, ¬ Terminal course nonBlocking earlier other)
    (buffer : Buffer size) {fuel : Nat}
    (hfuel : last + 1 + course.waitsBefore nonBlocking (last + 1) ≤ fuel) :
    ∃ filled : Buffer size, drain pipe fuel .reading buffer (condition 0 0) =
      ⟨(List.range (last + 1)).flatMap (handling course nonBlocking), filled,
        condition (last + 1) (course.waitsBefore nonBlocking (last + 1)), some ending⟩ := by
  obtain ⟨filled, hfilled⟩ := drain_going_of_lt hfollows hfirst buffer
  obtain ⟨spare, rfl⟩ := Nat.exists_eq_add_of_le' hfuel
  have hsplit : spare + (last + 1 + course.waitsBefore nonBlocking (last + 1)) =
      (spare + 1 + if course.isWaited nonBlocking last then 1 else 0) + last +
        course.waitsBefore nonBlocking last := by
    rw [Pipe.Course.waitsBefore_succ]
    omega
  refine ⟨filled, ?_⟩
  rw [hsplit, hfilled, drain_last hfollows hlast, Run.after, List.range_succ, List.flatMap_append,
    List.flatMap_singleton]

/-- A run over a course without a terminal read does not end. -/
theorem drain_ending_of_no_terminal (hfollows : pipe.Follows size nonBlocking course condition)
    (hnone : ∀ read ending, ¬ Terminal course nonBlocking read ending) (buffer : Buffer size)
    (fuel : Nat) : (drain pipe fuel .reading buffer (condition 0 0)).ending = none := by
  have hgoing : ∀ read < fuel, ∀ ending, ¬ Terminal course nonBlocking read ending :=
    fun read _ ↦ hnone read
  obtain ⟨filled, hfilled⟩ := drain_going_of_lt hfollows hgoing buffer
  have hmore := hfilled 0
  rw [← Option.not_isSome_iff_eq_none]
  intro hended
  -- With more fuel the run would have come to the same end, but it is still going then.
  rw [drain_of_isSome hended (by omega)] at hmore
  rw [hmore] at hended
  cases hended

end

/-! ### What a run has done for the reads of a course -/

section

variable (course : Pipe.Course) (nonBlocking : Bool)

theorem requests_handling (read : Nat) :
    requests (handling course nonBlocking read) = course.requests nonBlocking read := by
  by_cases h : course.isWaited nonBlocking read
  · rw [handling_of_isWaited h, requests_append, requests_reaction_read, Pipe.Course.requests,
      if_pos h]
    rfl
  · have hnot := Bool.eq_false_iff.mpr h
    rw [handling_of_not_isWaited hnot, requests_reaction_read, Pipe.Course.requests, if_neg h]

theorem chunks_handling (read : Nat) :
    chunks (handling course nonBlocking read) = (course.chunk? read).toList := by
  have hread : chunks (reaction (.read (course.reads read))) = (course.chunk? read).toList := by
    rw [Pipe.Course.chunk?]
    rcases course.reads read with _ | _ | ⟨_, _⟩ <;> rfl
  by_cases h : course.isWaited nonBlocking read
  · rw [handling_of_isWaited h, chunks_append, hread]
    exact List.append_nil _
  · rw [handling_of_not_isWaited (Bool.eq_false_iff.mpr h), hread]

theorem waitCount_handling (read : Nat) :
    waitCount (handling course nonBlocking read) =
      if course.isWaited nonBlocking read then 1 else 0 := by
  have hread : waitCount (reaction (.read (course.reads read))) = 0 := by
    rcases course.reads read with _ | _ | ⟨_, _⟩ <;> rfl
  by_cases h : course.isWaited nonBlocking read
  · rw [handling_of_isWaited h, waitCount_append, hread, if_pos h]
    rfl
  · rw [handling_of_not_isWaited (Bool.eq_false_iff.mpr h), hread, if_neg h]

theorem requests_flatMap_handling (count : Nat) :
    requests ((List.range count).flatMap (handling course nonBlocking)) =
      (List.range count).flatMap (course.requests nonBlocking) := by
  rw [requests, List.filterMap_flatMap]
  exact congrArg (List.range count).flatMap (funext (requests_handling course nonBlocking))

theorem chunks_flatMap_handling (count : Nat) :
    chunks ((List.range count).flatMap (handling course nonBlocking)) =
      (List.range count).filterMap course.chunk? := by
  rw [chunks, List.filterMap_flatMap, List.filterMap_eq_flatMap_toList]
  exact congrArg (List.range count).flatMap (funext (chunks_handling course nonBlocking))

theorem waitCount_flatMap_handling (count : Nat) :
    waitCount ((List.range count).flatMap (handling course nonBlocking)) =
      course.waitsBefore nonBlocking count := by
  induction count with
  | zero => rfl
  | succ count ih =>
    rw [List.range_succ, List.flatMap_append, List.flatMap_singleton, waitCount_append, ih,
      waitCount_handling, Pipe.Course.waitsBefore_succ]

end

/-! ### The call of a loop -/

/-- A call of a loop ends with the first terminal outcome of the pipe, whatever comes behind it, and
does not end if there is none. It has made just the reads up to this outcome, each with its wait if
it had one, has handed on what they gave, and leaves the pipe there; the loop is done if the outcome
was the end of the stream, and can be called again if it was a failure. -/
theorem ended_by_first_terminal (loop : EventLoop) (hrunning : loop.state = .running)
    {nonBlocking : Bool} {course : Pipe.Course} {condition : Nat → Nat → σ}
    (hfollows : pipe.Follows loop.bufferSize nonBlocking course condition) :
    ((∃ read ending, Terminal course nonBlocking read ending) →
      ∃ last ending, Terminal course nonBlocking last ending ∧
        (∀ earlier < last, ∀ other, ¬ Terminal course nonBlocking earlier other) ∧
        ∀ fuel, last + 1 + course.waitsBefore nonBlocking (last + 1) ≤ fuel →
          let called := loop.run pipe fuel (condition 0 0)
          called.1.ending = some ending ∧
          called.1.pipe = condition (last + 1) (course.waitsBefore nonBlocking (last + 1)) ∧
          requests called.1.events =
            (List.range (last + 1)).flatMap (course.requests nonBlocking) ∧
          waitCount called.1.events = course.waitsBefore nonBlocking (last + 1) ∧
          (ending = .failed .unexpectedWouldBlock → waitCount called.1.events = 0) ∧
          chunks called.1.events = (List.range (last + 1)).filterMap course.chunk? ∧
          called.2.state = if ending = .endOfStream then .done else .running) ∧
    ((∀ read ending, ¬ Terminal course nonBlocking read ending) →
      ∀ fuel, (loop.run pipe fuel (condition 0 0)).1.ending = none) := by
  constructor
  · intro hexists
    classical
    obtain ⟨ending, hlast⟩ := Nat.find_spec hexists
    have hfirst : ∀ earlier < Nat.find hexists, ∀ other,
        ¬ Terminal course nonBlocking earlier other := fun earlier hearlier ↦
      not_exists.mp (Nat.find_min hexists hearlier)
    refine ⟨Nat.find hexists, ending, hlast, hfirst, fun fuel hfuel ↦ ?_⟩
    obtain ⟨filled, hdrain⟩ := drain_of_first_terminal hfollows hlast hfirst loop.buffer hfuel
    rw [run_of_running hrunning, hdrain]
    refine ⟨rfl, rfl, requests_flatMap_handling course nonBlocking _,
      waitCount_flatMap_handling course nonBlocking _, ?_, chunks_flatMap_handling course _ _, ?_⟩
    · rintro rfl
      cases hlast with
      | unexpectedWouldBlock _ _ hmode =>
        subst hmode
        exact (waitCount_flatMap_handling course false _).trans
          (Pipe.Course.waitsBefore_blocking course _)
    · simp
  · intro hnone fuel
    rw [run_of_running hrunning]
    exact drain_ending_of_no_terminal hfollows hnone loop.buffer fuel

/-- A script with data for two reads, an interruption, a wait that succeeds and one that fails. -/
def impatient : Pipe.Script where
  steps := [.data [1, 2, 3], .fail ⟨.interrupted, "again"⟩, .fail ⟨.wouldBlock, "later"⟩,
    .fail ⟨.wouldBlock, "later"⟩, .data [4], .data []]
  waits := [none, some ⟨.timedOut, "late"⟩]

/-- Reads that are interrupted for ever. -/
def interruptions : Pipe.Course := ⟨fun _ ↦ .error ⟨.interrupted, "again"⟩, fun _ ↦ .ok ()⟩

/-- The fifth read ends a call, as the wait for it fails, and a call that is always interrupted goes
on. -/
theorem ended_by_fifth_read :
    let loop : EventLoop := { bufferSize := 2, bufferSize_pos := Nat.two_pos }
    let failure : Ending := .failed (.waitFailed ⟨.timedOut, "late"⟩)
    let called := loop.run (Pipe.Script.pipe true) 7 impatient
    loop.state = .running ∧ Terminal (impatient.course 2) true 4 failure ∧
      called.1.ending = some failure ∧ called.1.pipe.steps = [.data [4], .data []] ∧
      chunks called.1.events = [[1, 2], [3]] ∧ called.2.state = .running ∧
      ∀ fuel, (loop.run (interruptions.replay true) fuel (0, 0)).1.ending = none := by
  intro loop failure called
  have hterminal : Terminal (impatient.course 2) true 4 failure := .waitFailed rfl rfl rfl rfl
  have hnone : ∀ read < 4, ∀ other, ¬ Terminal (impatient.course 2) true read other := by
    rintro read hread other (h | ⟨-, -, hmode⟩ | ⟨-, -, -, hwait⟩ | ⟨h, hinterrupted, hwouldBlock⟩)
    · interval_cases read <;> cases h
    · cases hmode
    · interval_cases read <;> cases hwait
    · interval_cases read <;> cases h
      · exact hinterrupted rfl
      · exact hwouldBlock rfl
  obtain ⟨last, ending, hlast, hfirst, hcalled⟩ :=
    (ended_by_first_terminal loop rfl (impatient.follows true 2)).1 ⟨4, failure, hterminal⟩
  have hlast_eq : last = 4 :=
    Nat.le_antisymm (Nat.le_of_not_lt fun hlater ↦ hfirst 4 hlater failure hterminal)
      (Nat.le_of_not_lt fun hearlier ↦ hnone last hearlier ending hlast)
  subst hlast_eq
  obtain ⟨-, hpipe, -, -, -, hchunks, -⟩ := hcalled 7 (by decide)
  refine ⟨rfl, hterminal, by decide, congrArg Pipe.Script.steps hpipe, hchunks, by decide, ?_⟩
  refine (ended_by_first_terminal loop rfl
    (interruptions.follows_replay true fun _ _ h ↦ by cases h)).2 ?_
  rintro read ending (h | ⟨-, -, hmode⟩ | ⟨-, -, -, hwait⟩ | ⟨h, hinterrupted, -⟩)
  · cases h
  · cases hmode
  · cases hwait
  · cases h
    exact hinterrupted rfl

end EventLoop

end LintCore
