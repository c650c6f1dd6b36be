import LintCore.Proofs.EventLoop.Scripted
import LintCore.Proofs.EventLoop.Waits

/-!
# Retries do not show

`Pipe.Script.Entry` lists a script with retries put in anywhere: between two steps, before the first
and behind the last, and between two reads of one step. A retry is an interrupted read, or, where
the pipe does not block, a read that would have blocked and whose wait succeeds. `SameOutcome` says
what a run with the retries has in common with the run without them, and is proved along the
entries: each entry has a lemma that takes it from the rest to the whole (`Agree`).
`retries_invisible` states the result for a loop.
-/

set_option autoImplicit false
set_option relaxedAutoImplicit false

namespace LintCore

/-! ### Scripts with retries put in -/

namespace Pipe.Script

/-- A step of a script that has had retries put in. -/
inductive Entry where
  /-- A step of the script itself. -/
  | kept (step : Step)
  /-- As many bytes as one read takes, of a step with more data than that. -/
  | piece (bytes : List UInt8)
  /-- A failed read that was put in. -/
  | retry (error : Error)

namespace Entry

def step : Entry → Step
  | kept step => step
  | piece bytes => .data bytes
  | retry error => .fail error

/-- The steps with the retries. -/
def extended (entries : List Entry) : List Step := entries.map step

/-- The data of a piece comes before that of the step it was cut off from. -/
def join (bytes : List UInt8) : List Step → List Step
  | .data more :: rest => .data (bytes ++ more) :: rest
  | rest => .data bytes :: rest

/-- The steps without the retries. -/
def original : List Entry → List Step
  | [] => []
  | kept step :: rest => step :: original rest
  | piece bytes :: rest => join bytes (original rest)
  | retry _ :: rest => original rest

/-- What the waits come to, with a success put in for each retry that is waited for. -/
def extendedWaits (waits : List (Option Error)) : List Entry → List (Option Error)
  | [] => waits
  | retry error :: rest =>
    if error.kind = .wouldBlock then none :: extendedWaits waits rest else extendedWaits waits rest
  | kept (.fail error) :: rest =>
    if error.kind = .wouldBlock then waits.head?.join :: extendedWaits waits.tail rest
    else extendedWaits waits rest
  | kept (.data _) :: rest => extendedWaits waits rest
  | piece _ :: rest => extendedWaits waits rest

/-- Whether an entry is a retry that is waited for. -/
def isWaited : Entry → Bool
  | retry error => error.kind = .wouldBlock
  | _ => false

/-- What may be put in: reads are interrupted, or would have blocked if the pipe does not block. A
piece is as long as a read, and more data follows it. -/
def Valid (nonBlocking : Bool) (size : Nat) : List Entry → Prop
  | [] => True
  | kept _ :: rest => Valid nonBlocking size rest
  | piece bytes :: rest =>
    bytes.length = size ∧ (∃ more steps, more ≠ [] ∧ original rest = .data more :: steps) ∧
      Valid nonBlocking size rest
  | retry error :: rest =>
    (error.kind = .interrupted ∨ error.kind = .wouldBlock ∧ nonBlocking = true) ∧
      Valid nonBlocking size rest

end Entry

end Pipe.Script

namespace EventLoop

open Pipe.Script Pipe.Script.Entry

variable {size : Nat}

/-! ### What two runs have in common -/

/-- How the run with the retries compares to the one without. Both have come to the same place in
the entries, and the run with the retries has waited once more for each retry before that place that
is waited for. -/
structure SameOutcome (entries : List Entry) (plain padded : Run Pipe.Script size) : Prop where
  ending_eq : padded.ending = plain.ending
  buffer_eq : padded.buffer = plain.buffer
  chunks_eq : chunks padded.events = chunks plain.events
  reached : ∃ count, (entries ≠ [] → 0 < count) ∧
    plain.pipe.steps = original (entries.drop count) ∧
    padded.pipe.steps = extended (entries.drop count) ∧
    waitCount padded.events = waitCount plain.events + (entries.take count).countP isWaited

namespace SameOutcome

variable {entries : List Entry} {plain padded : Run Pipe.Script size}

/-- Both runs go past an entry. -/
theorem after {entry : Entry} (h : SameOutcome entries plain padded) {earlier later : List Event}
    (hchunks : chunks later = chunks earlier)
    (hwaits : waitCount later = waitCount earlier + [entry].countP isWaited) :
    SameOutcome (entry :: entries) (plain.after earlier) (padded.after later) := by
  obtain ⟨count, -, hplain, hpadded, hcount⟩ := h.reached
  refine ⟨h.ending_eq, h.buffer_eq, ?_, count + 1, fun _ ↦ count.succ_pos, hplain, hpadded, ?_⟩
  · rw [Run.after, Run.after, chunks_append, chunks_append, hchunks, h.chunks_eq]
  · have hsplit : (entry :: entries).take (count + 1) = [entry] ++ entries.take count := rfl
    rw [Run.after, Run.after, waitCount_append, waitCount_append, hwaits, hcount, hsplit,
      List.countP_append]
    omega

/-- Only the run with the retries goes past an entry. -/
theorem insert {entry : Entry} (h : SameOutcome entries plain padded) {later : List Event}
    (hchunks : chunks later = []) (hwaits : waitCount later = [entry].countP isWaited) :
    SameOutcome (entry :: entries) plain (padded.after later) := by
  show SameOutcome (entry :: entries) (plain.after []) (padded.after later)
  exact h.after hchunks (hwaits.trans (Nat.zero_add _).symm)

/-- Both runs end with an entry. -/
theorem last {entry : Entry} {events : List Event} {buffer : Buffer size} {ending : Ending}
    {waits paddedWaits : List (Option Pipe.Error)} (hkept : [entry].countP isWaited = 0) :
    SameOutcome (entry :: entries) ⟨events, buffer, ⟨original entries, waits⟩, some ending⟩
      ⟨events, buffer, ⟨extended entries, paddedWaits⟩, some ending⟩ :=
  ⟨rfl, rfl, rfl, 1, fun _ ↦ Nat.one_pos, rfl, rfl, by
    rw [List.take_one, List.head?_cons, Option.toList_some, hkept, Nat.add_zero]⟩

/-- Both runs take the front of some data. -/
theorem front {front more : List UInt8}
    (h : SameOutcome (.kept (.data more) :: entries) plain padded) (events : List Event) :
    SameOutcome (.kept (.data (front ++ more)) :: entries) (plain.after events)
      (padded.after events) := by
  obtain ⟨_ | count, hpos, hplain, hpadded, hcount⟩ := h.reached
  · exact absurd (hpos (List.cons_ne_nil _ _)) (Nat.lt_irrefl 0)
  · refine ⟨h.ending_eq, h.buffer_eq, ?_, count + 1, fun _ ↦ count.succ_pos, hplain, hpadded, ?_⟩
    · rw [Run.after, Run.after, chunks_append, chunks_append, h.chunks_eq]
    · rw [Run.after, Run.after, waitCount_append, waitCount_append, hcount, Nat.add_assoc]
      rfl

end SameOutcome

/-- With fuel enough for both, the run with the retries compares to the one without. -/
def Agree (nonBlocking : Bool) (size : Nat) (entries : List Entry) : Prop :=
  ∀ (waits : List (Option Pipe.Error)) (buffer : Buffer size) (fuel more : Nat),
    2 * reads (original entries) + 1 ≤ fuel → 2 * reads (extended entries) + 1 ≤ more →
      SameOutcome entries
        (drain (pipe nonBlocking) fuel .reading buffer ⟨original entries, waits⟩)
        (drain (pipe nonBlocking) more .reading buffer
          ⟨extended entries, extendedWaits waits entries⟩)

namespace Agree

variable {nonBlocking : Bool} {entries : List Entry}

theorem nil : Agree nonBlocking size [] := by
  intro waits buffer fuel more hfuel hmore
  obtain ⟨fuel, rfl⟩ := Nat.exists_eq_add_of_le' (show 1 ≤ fuel by omega)
  obtain ⟨more, rfl⟩ := Nat.exists_eq_add_of_le' (show 1 ≤ more by omega)
  show SameOutcome [] (drain _ (fuel + 1) .reading buffer ⟨[], waits⟩)
    (drain _ (more + 1) .reading buffer ⟨[], waits⟩)
  rw [drain_script_nil, drain_script_nil]
  exact ⟨rfl, rfl, rfl, 0, fun h ↦ absurd rfl h, rfl, rfl, rfl⟩

/-- An interruption that was put in is a read more. -/
theorem retry_interrupted (h : Agree nonBlocking size entries) {error : Pipe.Error}
    (hkind : error.kind = .interrupted) : Agree nonBlocking size (.retry error :: entries) := by
  intro waits buffer fuel more hfuel hmore
  have hwaited : error.kind ≠ .wouldBlock := by simp [hkind]
  have hwaits : extendedWaits waits (.retry error :: entries) = extendedWaits waits entries :=
    if_neg hwaited
  change 2 * (1 + reads (extended entries)) + 1 ≤ more at hmore
  obtain ⟨more, rfl⟩ := Nat.exists_eq_add_of_le' (show 1 ≤ more by omega)
  have hrest := h waits buffer fuel more hfuel (by omega)
  show SameOutcome _ (drain _ fuel .reading buffer ⟨original entries, waits⟩)
    (drain _ (more + 1) .reading buffer ⟨.fail error :: extended entries, _⟩)
  rw [hwaits, drain_script_interrupted hkind]
  exact hrest.insert rfl (by simp [waitCount, Event.isWait, isWaited, hwaited])

/-- A read that would have blocked, put in with a wait that succeeds, is a read and a wait more. -/
theorem retry_wouldBlock (h : Agree true size entries) {error : Pipe.Error}
    (hkind : error.kind = .wouldBlock) : Agree true size (.retry error :: entries) := by
  intro waits buffer fuel more hfuel hmore
  have hwaits : extendedWaits waits (.retry error :: entries) =
      none :: extendedWaits waits entries := if_pos hkind
  change 2 * (1 + reads (extended entries)) + 1 ≤ more at hmore
  obtain ⟨more, rfl⟩ := Nat.exists_eq_add_of_le' (show 2 ≤ more by omega)
  have hrest := h waits buffer fuel more hfuel (by omega)
  show SameOutcome _ (drain _ fuel .reading buffer ⟨original entries, waits⟩)
    (drain _ (more + 2) .reading buffer ⟨.fail error :: extended entries, _⟩)
  rw [hwaits, drain_script_waited hkind rfl]
  exact hrest.insert rfl (by simp [waitCount, Event.isWait, isWaited, hkind])

/-- A failed read of the script itself is retried, waited for or fatal in both runs. -/
theorem fail (h : Agree nonBlocking size entries) (error : Pipe.Error) :
    Agree nonBlocking size (.kept (.fail error) :: entries) := by
  intro waits buffer fuel more hfuel hmore
  change 2 * (1 + reads (original entries)) + 1 ≤ fuel at hfuel
  change 2 * (1 + reads (extended entries)) + 1 ≤ more at hmore
  show SameOutcome _ (drain _ fuel .reading buffer ⟨.fail error :: original entries, waits⟩)
    (drain _ more .reading buffer ⟨.fail error :: extended entries, _⟩)
  obtain ⟨fuel, rfl⟩ := Nat.exists_eq_add_of_le' (show 2 ≤ fuel by omega)
  obtain ⟨more, rfl⟩ := Nat.exists_eq_add_of_le' (show 2 ≤ more by omega)
  by_cases hwaited : error.kind = .wouldBlock
  · have hwaits : extendedWaits waits (.kept (.fail error) :: entries) =
        waits.head?.join :: extendedWaits waits.tail entries := if_pos hwaited
    rw [hwaits]
    cases nonBlocking with
    | false =>
      rw [drain_script_unexpected hwaited, drain_script_unexpected hwaited]
      exact SameOutcome.last rfl
    | true =>
      cases hwait : waits.head?.join with
      | none =>
        rw [drain_script_waited hwaited hwait, drain_script_waited hwaited rfl]
        exact (h waits.tail buffer fuel more (by omega) (by omega)).after rfl rfl
      | some failure =>
        rw [drain_script_waitFailed hwaited hwait, drain_script_waitFailed hwaited rfl]
        exact SameOutcome.last rfl
  · have hwaits : extendedWaits waits (.kept (.fail error) :: entries) =
        extendedWaits waits entries := if_neg hwaited
    rw [hwaits]
    by_cases hinterrupted : error.kind = .interrupted
    · rw [drain_script_interrupted hinterrupted, drain_script_interrupted hinterrupted]
      exact (h waits buffer (fuel + 1) (more + 1) (by omega) (by omega)).after rfl rfl
    · rw [drain_script_fatal hinterrupted hwaited, drain_script_fatal hinterrupted hwaited]
      exact SameOutcome.last rfl

/-- Data of the script itself is handed on, a buffer at a time, by both runs. The induction is on
its length. -/
theorem data (h : Agree nonBlocking size entries) (hsize : 0 < size) (bytes : List UInt8) :
    Agree nonBlocking size (.kept (.data bytes) :: entries) := by
  induction hlength : bytes.length using Nat.strong_induction_on generalizing bytes with
  | _ length ih =>
    intro waits buffer fuel more hfuel hmore
    change 2 * (bytes.length + 1 + reads (original entries)) + 1 ≤ fuel at hfuel
    change 2 * (bytes.length + 1 + reads (extended entries)) + 1 ≤ more at hmore
    show SameOutcome _ (drain _ fuel .reading buffer ⟨.data bytes :: original entries, waits⟩)
      (drain _ more .reading buffer ⟨.data bytes :: extended entries, extendedWaits waits entries⟩)
    obtain ⟨fuel, rfl⟩ := Nat.exists_eq_add_of_le' (show 1 ≤ fuel by omega)
    obtain ⟨more, rfl⟩ := Nat.exists_eq_add_of_le' (show 1 ≤ more by omega)
    rcases Nat.lt_or_ge size bytes.length with hlong | hshort
    · obtain ⟨front, tail, rfl, hfront⟩ : ∃ front tail, bytes = front ++ tail ∧
          front.length = size :=
        ⟨bytes.take size, bytes.drop size, (List.take_append_drop size bytes).symm,
          List.length_take_of_le hlong.le⟩
      rw [List.length_append] at hlength hlong hfuel hmore
      have htail : tail ≠ [] := List.ne_nil_of_length_pos (by omega)
      rw [drain_script_front hfront hsize htail, drain_script_front hfront hsize htail]
      refine SameOutcome.front
        (ih tail.length (by omega) tail rfl waits (buffer.fill front) fuel more ?_ ?_) _
      · show 2 * (tail.length + 1 + reads (original entries)) + 1 ≤ fuel
        omega
      · show 2 * (tail.length + 1 + reads (extended entries)) + 1 ≤ more
        omega
    · rcases eq_or_ne bytes [] with rfl | hne
      · rw [drain_script_end, drain_script_end]
        exact SameOutcome.last rfl
      · rw [drain_script_chunk hne hshort, drain_script_chunk hne hshort]
        exact (h waits (buffer.fill bytes) fuel more (by omega) (by omega)).after rfl rfl

/-- What was cut off from a step is read as it would have been read. -/
theorem piece (h : Agree nonBlocking size entries) (hsize : 0 < size) {bytes : List UInt8}
    (hlength : bytes.length = size)
    (hnext : ∃ more steps, more ≠ [] ∧ original entries = .data more :: steps) :
    Agree nonBlocking size (.piece bytes :: entries) := by
  intro waits buffer fuel more hfuel hmore
  obtain ⟨tail, steps, htail, hsteps⟩ := hnext
  have horiginal : original (.piece bytes :: entries) = .data (bytes ++ tail) :: steps := by
    rw [original, hsteps, join]
  have hreads : reads (original (.piece bytes :: entries)) =
      bytes.length + reads (original entries) := by
    rw [horiginal, hsteps, reads, reads, List.length_append]
    omega
  have hne : bytes ≠ [] := List.ne_nil_of_length_pos (hlength ▸ hsize)
  rw [hreads] at hfuel
  change 2 * (bytes.length + 1 + reads (extended entries)) + 1 ≤ more at hmore
  obtain ⟨fuel, rfl⟩ := Nat.exists_eq_add_of_le' (show 1 ≤ fuel by omega)
  obtain ⟨more, rfl⟩ := Nat.exists_eq_add_of_le' (show 1 ≤ more by omega)
  have hrest := h waits (buffer.fill bytes) fuel more (by omega) (by omega)
  show SameOutcome _ _
    (drain _ (more + 1) .reading buffer
      ⟨.data bytes :: extended entries, extendedWaits waits entries⟩)
  rw [horiginal, drain_script_front hlength hsize htail, ← hsteps,
    drain_script_chunk hne hlength.le]
  exact hrest.after rfl rfl

end Agree

theorem agree_of_valid {nonBlocking : Bool} (hsize : 0 < size) {entries : List Entry}
    (hvalid : Valid nonBlocking size entries) : Agree nonBlocking size entries := by
  induction entries with
  | nil => exact Agree.nil
  | cons entry rest ih =>
    cases entry with
    | kept step =>
      cases step with
      | data bytes => exact (ih hvalid).data hsize bytes
      | fail error => exact (ih hvalid).fail error
    | piece bytes =>
      obtain ⟨hlength, hnext, hrest⟩ := hvalid
      exact (ih hrest).piece hsize hlength hnext
    | retry error =>
      obtain ⟨hkind | ⟨hkind, rfl⟩, hrest⟩ := hvalid
      · exact (ih hrest).retry_interrupted hkind
      · exact (ih hrest).retry_wouldBlock hkind

/-! ### Two calls of a loop -/

/-- A loop does not show to its delegate that reads had to be tried again. With the retries it hands
on the same pieces, comes to the same result and is left the same; it waits once more for each retry
that it came to and had to wait for. A wait stands between a read that would have blocked and, if it
succeeds, another read, and there is none at all if the pipe blocks. -/
theorem retries_invisible (loop : EventLoop) (nonBlocking : Bool) (entries : List Entry)
    (waits : List (Option Pipe.Error)) (hvalid : Valid nonBlocking loop.bufferSize entries)
    (fuel more : Nat) (hfuel : turns ⟨original entries, waits⟩ ≤ fuel)
    (hmore : turns ⟨extended entries, extendedWaits waits entries⟩ ≤ more) :
    let plain := loop.run (pipe nonBlocking) fuel ⟨original entries, waits⟩
    let padded := loop.run (pipe nonBlocking) more
      ⟨extended entries, extendedWaits waits entries⟩
    plain.1.ending.isSome ∧
      padded.1.ending = plain.1.ending ∧
      padded.2 = plain.2 ∧
      chunks padded.1.events = chunks plain.1.events ∧
      (∃ count, plain.1.pipe.steps = original (entries.drop count) ∧
        padded.1.pipe.steps = extended (entries.drop count) ∧
        waitCount padded.1.events =
          waitCount plain.1.events + (entries.take count).countP isWaited) ∧
      (∀ before result after, padded.1.events = before ++ .wait result :: after →
        (∃ earlier error, before = earlier ++ [.read (.error error)] ∧ error.kind = .wouldBlock) ∧
          (result = .ok () → ∃ answer later, after = .read answer :: later)) ∧
      (nonBlocking = false → waitCount padded.1.events = 0) := by
  cases hstate : loop.state with
  | done =>
    rw [run_of_done hstate, run_of_done hstate]
    refine ⟨rfl, rfl, rfl, rfl, ⟨0, rfl, rfl, rfl⟩, ?_, fun _ ↦ rfl⟩
    intro before result after hevents
    cases before <;> cases hevents
  | running =>
    rw [run_of_running hstate, run_of_running hstate]
    have hsame := agree_of_valid loop.bufferSize_pos hvalid waits loop.buffer fuel more hfuel hmore
    have hended := drain_isSome_of_turnsLeft loop.bufferSize_pos nonBlocking Phase.reading_ne_ended
      loop.buffer ⟨original entries, waits⟩ hfuel
    obtain ⟨count, -, hreached⟩ := hsame.reached
    refine ⟨hended, hsame.ending_eq, ?_, hsame.chunks_eq, ⟨count, hreached⟩, ?_, ?_⟩
    · rw [hsame.buffer_eq, hsame.ending_eq]
    · intro before result after hevents
      exact drain_wait_between (hsame.ending_eq ▸ hended) hevents
    · rintro rfl
      exact drain_waitCount_of_blocking (fun _ ↦ rfl) more loop.buffer _

/-- Retries before the first step, between two reads of one step, before a step that waits, and
behind the last one, which the run does not come to. -/
theorem retries_invisible_between_reads :
    let loop : EventLoop := { bufferSize := 2, bufferSize_pos := Nat.two_pos }
    let interrupted : Pipe.Error := ⟨.interrupted, "again"⟩
    let wouldBlock : Pipe.Error := ⟨.wouldBlock, "later"⟩
    let entries : List Entry := [.retry wouldBlock, .piece [1, 2], .retry interrupted,
      .retry wouldBlock, .kept (.data [3]), .kept (.fail wouldBlock), .kept (.data []),
      .retry wouldBlock]
    let plain := loop.run (pipe true) 20 ⟨original entries, []⟩
    let padded := loop.run (pipe true) 40 ⟨extended entries, extendedWaits [] entries⟩
    Valid true loop.bufferSize entries ∧ turns ⟨original entries, []⟩ ≤ 20 ∧
      turns ⟨extended entries, extendedWaits [] entries⟩ ≤ 40 ∧
      original entries = [.data [1, 2, 3], .fail wouldBlock, .data []] ∧
      chunks padded.1.events = [[1, 2], [3]] ∧
      waitCount plain.1.events = 1 ∧ waitCount padded.1.events = 3 := by
  intro loop interrupted wouldBlock entries plain padded
  have hvalid : Valid true loop.bufferSize entries :=
    ⟨.inr ⟨rfl, rfl⟩, rfl, ⟨[3], _, List.cons_ne_nil _ _, rfl⟩, .inl rfl, .inr ⟨rfl, rfl⟩,
      .inr ⟨rfl, rfl⟩, trivial⟩
  obtain ⟨-, -, -, hchunks, -⟩ :=
    retries_invisible loop true entries [] hvalid 20 40 (by decide) (by decide)
  exact ⟨hvalid, by decide, by decide, rfl, hchunks.trans (by decide), by decide, by decide⟩

end EventLoop

end LintCore
