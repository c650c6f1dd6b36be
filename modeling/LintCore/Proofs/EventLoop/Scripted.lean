import LintCore.Pipe.Script
import LintCore.Proofs.EventLoop.Trace

/-!
# Runs over a scripted pipe

A script never hands out more than is asked for (`Pipe.Script.fits_pipe`), and every run over it
comes to an end: `turnsLeft` goes down with each turn (`turnsLeft_turn_reading_lt`,
`turnsLeft_turn_waiting_lt`), so the fuel that `Pipe.Script.turns` names suffices
(`drain_isSome_of_turnsLeft`). More fuel changes nothing then, for this pipe or another
(`drain_of_isSome`). The `drain_script` equations say what a run does with the first step of its
script and go on with the rest.
-/

set_option autoImplicit false
set_option relaxedAutoImplicit false

namespace LintCore

/-! ### Reads of a script -/

namespace Pipe.Script

variable (nonBlocking : Bool) (count : Nat) (waits : List (Option Error))

theorem read_nil :
    (pipe nonBlocking).read count ⟨[], waits⟩ = (.error endOfScript, ⟨[], waits⟩) :=
  rfl

theorem read_fail (error : Error) (rest : List Step) :
    (pipe nonBlocking).read count ⟨.fail error :: rest, waits⟩ = (.error error, ⟨rest, waits⟩) :=
  rfl

variable {count}

theorem read_data_of_le {bytes : List UInt8} (h : bytes.length ≤ count) (rest : List Step) :
    (pipe nonBlocking).read count ⟨.data bytes :: rest, waits⟩ = (.ok bytes, ⟨rest, waits⟩) :=
  if_pos h

theorem read_data_of_lt {bytes : List UInt8} (h : count < bytes.length) (rest : List Step) :
    (pipe nonBlocking).read count ⟨.data bytes :: rest, waits⟩ =
      (.ok (bytes.take count), ⟨.data (bytes.drop count) :: rest, waits⟩) :=
  if_neg (Nat.not_le.mpr h)

theorem wait_of_none (h : waits.head?.join = none) (steps : List Step) :
    (pipe nonBlocking).wait ⟨steps, waits⟩ = (.ok (), ⟨steps, waits.tail⟩) := by
  rcases waits with _ | ⟨_ | failure, rest⟩
  · rfl
  · rfl
  · cases h

theorem wait_of_some {failure : Error} (h : waits.head?.join = some failure) (steps : List Step) :
    (pipe nonBlocking).wait ⟨steps, waits⟩ = (.error failure, ⟨steps, waits.tail⟩) := by
  rcases waits with _ | ⟨_ | other, rest⟩
  · cases h
  · cases h
  · cases h
    rfl

theorem steps_wait (script : Script) : ((pipe nonBlocking).wait script).2.steps = script.steps := by
  obtain ⟨steps, _ | ⟨failure?, rest⟩⟩ := script <;> rfl

theorem fits_pipe (size : Nat) : (pipe nonBlocking).Fits size := by
  rintro ⟨steps, waits⟩ chunk next hread
  match steps with
  | [] => cases hread
  | .fail error :: rest => cases hread
  | .data bytes :: rest =>
    rcases Nat.lt_or_ge size bytes.length with hlong | hshort
    · rw [read_data_of_lt nonBlocking waits hlong] at hread
      cases hread
      exact List.length_take_le size bytes
    · rw [read_data_of_le nonBlocking waits hshort] at hread
      cases hread
      exact hshort

end Pipe.Script

namespace EventLoop

variable {σ : Type} {pipe : Pipe σ} {size : Nat}

/-! ### Fuel -/

/-- Once a run has ended, more fuel is of no use. -/
theorem drain_of_isSome {fuel more : Nat} {phase : Phase} {buffer : Buffer size} {condition : σ}
    (hended : (drain pipe fuel phase buffer condition).ending.isSome) (hle : fuel ≤ more) :
    drain pipe more phase buffer condition = drain pipe fuel phase buffer condition := by
  induction fuel generalizing more phase buffer condition with
  | zero => cases hended
  | succ fuel ih =>
    obtain ⟨more, rfl⟩ := Nat.exists_eq_add_of_le' (show 1 ≤ more by omega)
    by_cases hnext : ∃ ending, (turn pipe phase buffer condition).next = .ended ending
    · obtain ⟨ending, hending⟩ := hnext
      rw [drain_succ_of_ended hending, drain_succ_of_ended hending]
    · have hgoing := not_exists.mp hnext
      rw [drain_succ_of_going hgoing] at hended ⊢
      rw [drain_succ_of_going hgoing, ih hended (Nat.le_of_succ_le_succ hle)]

/-- The number of turns that a run over a script may still take. -/
def turnsLeft (script : Pipe.Script) : Phase → Nat
  | .reading => 2 * Pipe.Script.reads script.steps + 1
  | .waiting => 2 * Pipe.Script.reads script.steps + 2
  | .ended _ => 0

theorem turnsLeft_afterFailure_lt (nonBlocking : Bool) (error : Pipe.Error) (rest : List Pipe.Step)
    (waits : List (Option Pipe.Error)) :
    turnsLeft ⟨rest, waits⟩ (afterFailure nonBlocking error) <
      turnsLeft ⟨.fail error :: rest, waits⟩ .reading := by
  by_cases hinterrupted : error.kind = .interrupted
  · rw [afterFailure_of_interrupted hinterrupted]
    simp only [turnsLeft, Pipe.Script.reads]
    omega
  · by_cases hwouldBlock : error.kind = .wouldBlock
    · rw [afterFailure_of_wouldBlock hwouldBlock]
      cases nonBlocking
      · simp [turnsLeft]
      · simp only [turnsLeft, Pipe.Script.reads, if_true]
        omega
    · rw [afterFailure_of_fatal hinterrupted hwouldBlock]
      simp [turnsLeft]

/-- A turn that reads brings a run over a script nearer to its end. -/
theorem turnsLeft_turn_reading_lt (hsize : 0 < size) (nonBlocking : Bool) (buffer : Buffer size)
    (script : Pipe.Script) :
    turnsLeft (turn (Pipe.Script.pipe nonBlocking) .reading buffer script).pipe
        (turn (Pipe.Script.pipe nonBlocking) .reading buffer script).next <
      turnsLeft script .reading := by
  obtain ⟨steps, waits⟩ := script
  match steps with
  | [] =>
    rw [turn_reading_of_error (Pipe.Script.read_nil nonBlocking size waits)]
    simp [turnsLeft, afterFailure, Pipe.Script.endOfScript]
  | .fail error :: rest =>
    rw [turn_reading_of_error (Pipe.Script.read_fail nonBlocking size waits error rest)]
    exact turnsLeft_afterFailure_lt nonBlocking error rest waits
  | .data [] :: rest =>
    rw [turn_reading_of_end (Pipe.Script.read_data_of_le nonBlocking waits (Nat.zero_le size) rest)]
    simp [turnsLeft]
  | .data (byte :: bytes) :: rest =>
    rcases Nat.lt_or_ge size (byte :: bytes).length with hlong | hshort
    · have hread := Pipe.Script.read_data_of_lt nonBlocking waits hlong rest
      have htaken : (byte :: bytes).take size ≠ [] := by simp [Nat.ne_of_gt hsize]
      rw [turn_reading_of_chunk hread htaken]
      simp only [turnsLeft, Pipe.Script.reads, List.length_drop]
      omega
    · have hread := Pipe.Script.read_data_of_le nonBlocking waits hshort rest
      rw [turn_reading_of_chunk hread (List.cons_ne_nil byte bytes)]
      simp only [turnsLeft, Pipe.Script.reads]
      omega

theorem turnsLeft_turn_waiting_lt (nonBlocking : Bool) (buffer : Buffer size)
    (script : Pipe.Script) :
    turnsLeft (turn (Pipe.Script.pipe nonBlocking) .waiting buffer script).pipe
        (turn (Pipe.Script.pipe nonBlocking) .waiting buffer script).next <
      turnsLeft script .waiting := by
  rcases h : (Pipe.Script.pipe nonBlocking).wait script with ⟨error | _, next⟩
  · rw [turn_waiting_of_error h]
    simp [turnsLeft]
  · have hsteps : next.steps = script.steps := by
      rw [← Pipe.Script.steps_wait nonBlocking script, h]
    rw [turn_waiting_of_ok h]
    simp only [turnsLeft, hsteps]
    omega

/-- A run over a script ends, if it has fuel for the turns that are left. -/
theorem drain_isSome_of_turnsLeft (hsize : 0 < size) (nonBlocking : Bool) {fuel : Nat}
    {phase : Phase} (hphase : ∀ ending, phase ≠ .ended ending) (buffer : Buffer size)
    (script : Pipe.Script) (hfuel : turnsLeft script phase ≤ fuel) :
    (drain (Pipe.Script.pipe nonBlocking) fuel phase buffer script).ending.isSome := by
  induction fuel generalizing phase buffer script with
  | zero =>
    cases phase with
    | reading => cases hfuel
    | waiting => cases hfuel
    | ended ending => exact absurd rfl (hphase ending)
  | succ fuel ih =>
    have hless : turnsLeft (turn (Pipe.Script.pipe nonBlocking) phase buffer script).pipe
        (turn (Pipe.Script.pipe nonBlocking) phase buffer script).next <
          turnsLeft script phase := by
      cases phase with
      | reading => exact turnsLeft_turn_reading_lt hsize nonBlocking buffer script
      | waiting => exact turnsLeft_turn_waiting_lt nonBlocking buffer script
      | ended ending => exact absurd rfl (hphase ending)
    by_cases hnext : ∃ ending,
        (turn (Pipe.Script.pipe nonBlocking) phase buffer script).next = .ended ending
    · obtain ⟨ending, hending⟩ := hnext
      rw [drain_succ_of_ended hending]
      rfl
    · have hgoing := not_exists.mp hnext
      rw [drain_succ_of_going hgoing]
      exact ih hgoing _ _ (Nat.le_of_lt_succ (Nat.lt_of_lt_of_le hless hfuel))

/-! ### A run over a script, step by step -/

section

variable {nonBlocking : Bool} {fuel : Nat} {buffer : Buffer size} {error : Pipe.Error}
  {rest : List Pipe.Step} {waits : List (Option Pipe.Error)}

theorem drain_script_nil :
    drain (Pipe.Script.pipe nonBlocking) (fuel + 1) .reading buffer ⟨[], waits⟩ =
      ⟨[.read (.error Pipe.Script.endOfScript)], buffer, ⟨[], waits⟩,
        some (.failed (.readFailed Pipe.Script.endOfScript))⟩ :=
  rfl

theorem drain_script_interrupted (hkind : error.kind = .interrupted) :
    drain (Pipe.Script.pipe nonBlocking) (fuel + 1) .reading buffer ⟨.fail error :: rest, waits⟩ =
      (drain (Pipe.Script.pipe nonBlocking) fuel .reading buffer ⟨rest, waits⟩).after
        [.read (.error error)] := by
  have hturn : turn (Pipe.Script.pipe nonBlocking) .reading buffer ⟨.fail error :: rest, waits⟩ =
      ⟨[.read (.error error)], buffer, ⟨rest, waits⟩, .reading⟩ := by
    rw [turn_reading_of_error (Pipe.Script.read_fail nonBlocking size waits error rest),
      afterFailure_of_interrupted hkind]
  exact drain_of_turn_going hturn Phase.reading_ne_ended

theorem drain_script_fatal (hinterrupted : error.kind ≠ .interrupted)
    (hwouldBlock : error.kind ≠ .wouldBlock) :
    drain (Pipe.Script.pipe nonBlocking) (fuel + 1) .reading buffer ⟨.fail error :: rest, waits⟩ =
      ⟨[.read (.error error)], buffer, ⟨rest, waits⟩, some (.failed (.readFailed error))⟩ := by
  have hturn : turn (Pipe.Script.pipe nonBlocking) .reading buffer ⟨.fail error :: rest, waits⟩ =
      ⟨[.read (.error error)], buffer, ⟨rest, waits⟩, .ended (.failed (.readFailed error))⟩ := by
    rw [turn_reading_of_error (Pipe.Script.read_fail nonBlocking size waits error rest),
      afterFailure_of_fatal hinterrupted hwouldBlock]
  exact drain_of_turn_ended hturn

theorem drain_script_unexpected (hkind : error.kind = .wouldBlock) :
    drain (Pipe.Script.pipe false) (fuel + 1) .reading buffer ⟨.fail error :: rest, waits⟩ =
      ⟨[.read (.error error)], buffer, ⟨rest, waits⟩, some (.failed .unexpectedWouldBlock)⟩ := by
  have hturn : turn (Pipe.Script.pipe false) .reading buffer ⟨.fail error :: rest, waits⟩ =
      ⟨[.read (.error error)], buffer, ⟨rest, waits⟩, .ended (.failed .unexpectedWouldBlock)⟩ := by
    rw [turn_reading_of_error (Pipe.Script.read_fail false size waits error rest),
      afterFailure_of_wouldBlock hkind]
    rfl
  exact drain_of_turn_ended hturn

theorem drain_script_wouldBlock (hkind : error.kind = .wouldBlock) :
    drain (Pipe.Script.pipe true) (fuel + 1) .reading buffer ⟨.fail error :: rest, waits⟩ =
      (drain (Pipe.Script.pipe true) fuel .waiting buffer ⟨rest, waits⟩).after
        [.read (.error error)] := by
  have hturn : turn (Pipe.Script.pipe true) .reading buffer ⟨.fail error :: rest, waits⟩ =
      ⟨[.read (.error error)], buffer, ⟨rest, waits⟩, .waiting⟩ := by
    rw [turn_reading_of_error (Pipe.Script.read_fail true size waits error rest),
      afterFailure_of_wouldBlock hkind]
    rfl
  exact drain_of_turn_going hturn fun _ ↦ Phase.noConfusion

/-- A read that would have blocked, and a wait that succeeds. -/
theorem drain_script_waited (hkind : error.kind = .wouldBlock) (hwait : waits.head?.join = none) :
    drain (Pipe.Script.pipe true) (fuel + 2) .reading buffer ⟨.fail error :: rest, waits⟩ =
      (drain (Pipe.Script.pipe true) fuel .reading buffer ⟨rest, waits.tail⟩).after
        [.read (.error error), .wait (.ok ())] := by
  have hturn : turn (Pipe.Script.pipe true) .waiting buffer ⟨rest, waits⟩ =
      ⟨[.wait (.ok ())], buffer, ⟨rest, waits.tail⟩, .reading⟩ :=
    turn_waiting_of_ok (Pipe.Script.wait_of_none true waits hwait rest)
  rw [drain_script_wouldBlock hkind, drain_of_turn_going hturn Phase.reading_ne_ended]
  rfl

/-- A read that would have blocked, and a wait that fails. -/
theorem drain_script_waitFailed (hkind : error.kind = .wouldBlock) {failure : Pipe.Error}
    (hwait : waits.head?.join = some failure) :
    drain (Pipe.Script.pipe true) (fuel + 2) .reading buffer ⟨.fail error :: rest, waits⟩ =
      ⟨[.read (.error error), .wait (.error failure)], buffer, ⟨rest, waits.tail⟩,
        some (.failed (.waitFailed failure))⟩ := by
  have hturn : turn (Pipe.Script.pipe true) .waiting buffer ⟨rest, waits⟩ =
      ⟨[.wait (.error failure)], buffer, ⟨rest, waits.tail⟩,
        .ended (.failed (.waitFailed failure))⟩ :=
    turn_waiting_of_error (Pipe.Script.wait_of_some true waits hwait rest)
  rw [drain_script_wouldBlock hkind, drain_of_turn_ended hturn]
  rfl

theorem drain_script_end :
    drain (Pipe.Script.pipe nonBlocking) (fuel + 1) .reading buffer ⟨.data [] :: rest, waits⟩ =
      ⟨[.read (.ok 0)], buffer, ⟨rest, waits⟩, some .endOfStream⟩ := by
  have hturn : turn (Pipe.Script.pipe nonBlocking) .reading buffer ⟨.data [] :: rest, waits⟩ =
      ⟨[.read (.ok 0)], buffer, ⟨rest, waits⟩, .ended .endOfStream⟩ :=
    turn_reading_of_end (Pipe.Script.read_data_of_le nonBlocking waits (Nat.zero_le size) rest)
  exact drain_of_turn_ended hturn

/-- What is handed on when a script gives a piece of data that fits into the buffer. -/
theorem drain_script_chunk {chunk : List UInt8} (hchunk : chunk ≠ [])
    (hshort : chunk.length ≤ size) :
    drain (Pipe.Script.pipe nonBlocking) (fuel + 1) .reading buffer ⟨.data chunk :: rest, waits⟩ =
      (drain (Pipe.Script.pipe nonBlocking) fuel .reading (buffer.fill chunk) ⟨rest, waits⟩).after
        [.read (.ok chunk.length), .append chunk] := by
  have hturn : turn (Pipe.Script.pipe nonBlocking) .reading buffer ⟨.data chunk :: rest, waits⟩ =
      ⟨[.read (.ok chunk.length), .append chunk], buffer.fill chunk, ⟨rest, waits⟩, .reading⟩ := by
    rw [turn_reading_of_chunk (Pipe.Script.read_data_of_le nonBlocking waits hshort rest) hchunk,
      Buffer.front_fill buffer hshort]
  exact drain_of_turn_going hturn Phase.reading_ne_ended

/-- Of data that does not fit, a read takes as much as there is room for. -/
theorem drain_script_front {front more : List UInt8} (hfront : front.length = size)
    (hsize : 0 < size) (hmore : more ≠ []) :
    drain (Pipe.Script.pipe nonBlocking) (fuel + 1) .reading buffer
        ⟨.data (front ++ more) :: rest, waits⟩ =
      (drain (Pipe.Script.pipe nonBlocking) fuel .reading (buffer.fill front)
          ⟨.data more :: rest, waits⟩).after
        [.read (.ok front.length), .append front] := by
  have hlong : size < (front ++ more).length := by
    have hpositive := List.length_pos_of_ne_nil hmore
    rw [List.length_append]
    omega
  have hread := Pipe.Script.read_data_of_lt nonBlocking waits hlong rest
  rw [← hfront, List.take_left, List.drop_left, hfront] at hread
  have hne : front ≠ [] := List.ne_nil_of_length_pos (hfront ▸ hsize)
  have hturn : turn (Pipe.Script.pipe nonBlocking) .reading buffer
      ⟨.data (front ++ more) :: rest, waits⟩ =
        ⟨[.read (.ok front.length), .append front], buffer.fill front,
          ⟨.data more :: rest, waits⟩, .reading⟩ := by
    rw [turn_reading_of_chunk hread hne, Buffer.front_fill buffer (Nat.le_of_eq hfront)]
  exact drain_of_turn_going hturn Phase.reading_ne_ended

end

end EventLoop

end LintCore
