import LintCore.Proofs.EventLoop.Trace
import Mathlib.Data.List.Chain

/-!
# When a run waits

A wait comes directly after a read that would have blocked, and a wait that succeeds comes directly
before a read. `Event.MayFollow` says this of two events next to each other, and
`drain_isChain_mayFollow` that it holds all along a run; `drain_wait_between` is the same seen from
a single wait. A pipe that always blocks is never waited for (`drain_waitCount_of_blocking`).
-/

set_option autoImplicit false
set_option relaxedAutoImplicit false

namespace LintCore.EventLoop

variable {σ : Type} {pipe : Pipe σ} {size : Nat}

/-! ### Two events next to each other -/

def Event.isWait : Event → Bool
  | wait _ => true
  | _ => false

/-- The number of times that the pipe was waited for. -/
def waitCount (events : List Event) : Nat := events.countP Event.isWait

theorem waitCount_append (first later : List Event) :
    waitCount (first ++ later) = waitCount first + waitCount later :=
  List.countP_append

/-- Only a read that would have blocked has a wait behind it, and a wait that succeeds has a read
behind it. -/
structure Event.MayFollow (earlier later : Event) : Prop where
  wouldBlock_of_wait : ∀ result, later = .wait result →
    ∃ error, earlier = .read (.error error) ∧ error.kind = .wouldBlock
  read_of_wait : earlier = .wait (.ok ()) → ∃ result, later = .read result

/-- The event is of the sort that a phase begins with. -/
def Event.Begins (event : Event) : Phase → Prop
  | .reading => ∃ result, event = .read result
  | .waiting => ∃ result, event = .wait result
  | .ended _ => False

theorem Turned.begins_head {phase : Phase} {buffer : Buffer size} {condition : σ}
    {done : Turn σ size} (h : Turned pipe buffer condition phase done) :
    ∃ event rest, done.events = event :: rest ∧ event.Begins phase := by
  cases h <;> exact ⟨_, _, rfl, _, rfl⟩

theorem mayFollow_failure {nonBlocking : Bool} {error : Pipe.Error} {event : Event}
    (hevent : event.Begins (afterFailure nonBlocking error)) :
    Event.MayFollow (.read (.error error)) event := by
  refine ⟨?_, fun h ↦ by cases h⟩
  rintro result rfl
  refine ⟨error, rfl, ?_⟩
  by_contra hwouldBlock
  by_cases hinterrupted : error.kind = .interrupted
  · rw [afterFailure_of_interrupted hinterrupted] at hevent
    obtain ⟨_, h⟩ := hevent
    cases h
  · rw [afterFailure_of_fatal hinterrupted hwouldBlock] at hevent
    exact hevent

theorem mayFollow_read (earlier : Event) (result : Except Pipe.Error Nat) :
    Event.MayFollow earlier (.read result) :=
  ⟨fun _ h ↦ Event.noConfusion h, fun _ ↦ ⟨result, rfl⟩⟩

/-- What comes after the last event of a turn, if anything, may follow it. -/
theorem Turned.mayFollow_last {phase : Phase} {buffer : Buffer size} {condition : σ}
    {done : Turn σ size} (h : Turned pipe buffer condition phase done) {last event : Event}
    (hlast : last ∈ done.events.getLast?) (hevent : event.Begins done.next) :
    Event.MayFollow last event := by
  cases h with
  | atEnd _ => cases hevent
  | chunk _ _ =>
    obtain ⟨result, rfl⟩ := hevent
    exact mayFollow_read last result
  | failure _ =>
    cases hlast
    exact mayFollow_failure hevent
  | waited _ =>
    obtain ⟨result, rfl⟩ := hevent
    exact mayFollow_read last result
  | waitFailure _ => cases hevent

theorem Turned.isChain {phase : Phase} {buffer : Buffer size} {condition : σ}
    {done : Turn σ size} (h : Turned pipe buffer condition phase done) :
    done.events.IsChain Event.MayFollow := by
  cases h with
  | atEnd _ => exact List.isChain_singleton _
  | chunk _ _ =>
    exact List.isChain_pair.mpr ⟨fun _ h ↦ Event.noConfusion h, fun h ↦ Event.noConfusion h⟩
  | failure _ => exact List.isChain_singleton _
  | waited _ => exact List.isChain_singleton _
  | waitFailure _ => exact List.isChain_singleton _

/-- The last event of a turn that ends a run is no successful wait. -/
theorem Turned.getLast_ne_wait {phase : Phase} {buffer : Buffer size} {condition : σ}
    {done : Turn σ size} (h : Turned pipe buffer condition phase done) {ending : Ending}
    (hending : done.next = .ended ending) : done.events.getLast? ≠ some (.wait (.ok ())) := by
  cases h with
  | atEnd _ => simp
  | chunk _ _ => cases hending
  | failure _ => simp
  | waited _ => cases hending
  | waitFailure _ => simp

theorem Turned.waitCount_reading {buffer : Buffer size} {condition : σ} {done : Turn σ size}
    (h : Turned pipe buffer condition .reading done) : waitCount done.events = 0 := by
  cases h <;> rfl

/-! ### All along a run -/

/-- The events of a run begin as its phase wants it, and each may follow the one before. -/
theorem drain_isChain_mayFollow (pipe : Pipe σ) (fuel : Nat) {phase : Phase}
    (hphase : ∀ ending, phase ≠ .ended ending) (buffer : Buffer size) (condition : σ) :
    (drain pipe fuel phase buffer condition).events.IsChain Event.MayFollow ∧
      ∀ event ∈ (drain pipe fuel phase buffer condition).events.head?, event.Begins phase := by
  refine drain_induction (motive := fun phase _ _ run ↦
    run.events.IsChain Event.MayFollow ∧ ∀ event ∈ run.events.head?, event.Begins phase)
    ?_ ?_ ?_ fuel hphase buffer condition
  · intro _ _ _
    exact ⟨List.isChain_nil, fun _ hevent ↦ by cases hevent⟩
  · intro _ _ _ _ _ hturned _
    obtain ⟨event, rest, hevents, hbegins⟩ := hturned.begins_head
    refine ⟨hturned.isChain, fun _ hhead ↦ ?_⟩
    rw [hevents] at hhead
    cases hhead
    exact hbegins
  · intro _ _ _ _ _ hturned _ hrest
    obtain ⟨event, rest, hevents, hbegins⟩ := hturned.begins_head
    refine ⟨hturned.isChain.append hrest.1 fun last hlast event hevent ↦
      hturned.mayFollow_last hlast (hrest.2 event hevent), fun _ hhead ↦ ?_⟩
    rw [Run.after, hevents] at hhead
    cases hhead
    exact hbegins

/-- A run that has ended has not ended with a successful wait. -/
theorem drain_getLast_ne_wait (fuel : Nat) {phase : Phase}
    (hphase : ∀ ending, phase ≠ .ended ending) (buffer : Buffer size) (condition : σ)
    (hended : (drain pipe fuel phase buffer condition).ending.isSome) :
    (drain pipe fuel phase buffer condition).events.getLast? ≠ some (.wait (.ok ())) := by
  have hlast : (drain pipe fuel phase buffer condition).events ≠ [] ∧
      (drain pipe fuel phase buffer condition).events.getLast? ≠ some (.wait (.ok ())) := by
    refine drain_induction (motive := fun _ _ _ run ↦ run.ending.isSome →
      run.events ≠ [] ∧ run.events.getLast? ≠ some (.wait (.ok ()))) ?_ ?_ ?_ fuel hphase buffer
      condition hended
    · intro _ _ _ h
      cases h
    · intro _ _ _ _ done hturned hending _
      obtain ⟨event, rest, hevents, -⟩ := hturned.begins_head
      refine ⟨?_, hturned.getLast_ne_wait hending⟩
      rw [hevents]
      exact List.cons_ne_nil event rest
    · intro _ _ _ done run _ _ hrest hended
      obtain ⟨hne, hlast⟩ := hrest hended
      refine ⟨List.append_ne_nil_of_right_ne_nil _ hne, ?_⟩
      rw [Run.after, List.getLast?_append_of_ne_nil _ hne]
      exact hlast
  exact hlast.2

/-- Before a wait stands a read that would have blocked, and after a wait that succeeds, if the run
has ended, another read. -/
theorem drain_wait_between {fuel : Nat} {buffer : Buffer size} {condition : σ}
    (hended : (drain pipe fuel .reading buffer condition).ending.isSome)
    {before after : List Event} {result : Except Pipe.Error Unit}
    (hevents : (drain pipe fuel .reading buffer condition).events =
      before ++ .wait result :: after) :
    (∃ earlier error, before = earlier ++ [.read (.error error)] ∧ error.kind = .wouldBlock) ∧
      (result = .ok () → ∃ answer later, after = .read answer :: later) := by
  have hlast := drain_getLast_ne_wait fuel Phase.reading_ne_ended buffer condition hended
  obtain ⟨hchain, hhead⟩ :=
    drain_isChain_mayFollow pipe fuel Phase.reading_ne_ended buffer condition
  rw [hevents] at hlast hchain hhead
  obtain ⟨-, hfromWait, hjoin⟩ := List.isChain_append.mp hchain
  constructor
  · rcases List.eq_nil_or_concat' before with rfl | ⟨earlier, previous, rfl⟩
    · obtain ⟨_, hread⟩ := hhead (.wait result) rfl
      cases hread
    · have hfollow := hjoin previous (by simp) (.wait result) rfl
      obtain ⟨error, rfl, hkind⟩ := hfollow.wouldBlock_of_wait result rfl
      exact ⟨earlier, error, rfl, hkind⟩
  · rintro rfl
    cases after with
    | nil => exact absurd (by simp) hlast
    | cons event later =>
      obtain ⟨answer, rfl⟩ := (List.isChain_cons_cons.mp hfromWait).1.read_of_wait rfl
      exact ⟨answer, later, rfl⟩

/-- A pipe that always blocks is not waited for. -/
theorem drain_waitCount_of_blocking (hblocking : ∀ condition, pipe.nonBlocking condition = false)
    (fuel : Nat) (buffer : Buffer size) (condition : σ) :
    waitCount (drain pipe fuel .reading buffer condition).events = 0 := by
  refine drain_induction (motive := fun phase _ _ run ↦ phase = .reading →
    waitCount run.events = 0) ?_ ?_ ?_ fuel Phase.reading_ne_ended buffer condition rfl
  · intro _ _ _ _
    rfl
  · rintro _ _ _ _ _ hturned _ rfl
    exact hturned.waitCount_reading
  · rintro _ _ _ done run hturned hgoing hrest rfl
    rw [Run.after, waitCount_append, hturned.waitCount_reading, Nat.zero_add]
    refine hrest ?_
    cases hturned with
    | atEnd _ => exact absurd rfl (hgoing _)
    | chunk _ _ => rfl
    | @failure error next _ =>
      rw [hblocking] at hgoing ⊢
      by_cases hinterrupted : error.kind = .interrupted
      · exact afterFailure_of_interrupted hinterrupted false
      · by_cases hwouldBlock : error.kind = .wouldBlock
        · exact absurd (afterFailure_of_wouldBlock hwouldBlock false) (hgoing _)
        · exact absurd (afterFailure_of_fatal hinterrupted hwouldBlock false) (hgoing _)

end LintCore.EventLoop
