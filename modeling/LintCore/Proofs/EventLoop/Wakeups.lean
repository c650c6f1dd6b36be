import LintCore.Proofs.EventLoop.Interleaving
import LintCore.Proofs.EventLoop.Waits

/-!
# No loop sleeps over input

A loop that waits is woken by an event. Events tell of writes and of the close, and one that was
made pending for bytes which the loop has read since is stale; here events may even come for no
reason (`Happening.stray`). The loop registers for events only when it first waits, and the writer
may act before and after that. Still there is always an event for a loop that waits while there is
something to read, because a read that would have blocked found nothing, and whatever the writer
does afterwards is either announced or found at the registration (`Transfer.Alert.announced`). What
each of the two sides does keeps this up, and so `never_asleep_over_input` says it of all orders.

Stale events cost little. Each of them is taken by one wait, and behind each wait stands at most one
read that would have blocked. Waits and such reads are counted along with the events
(`Transfer.Alert.wait_le`, `Transfer.Alert.refusals_eq`).
-/

set_option autoImplicit false
set_option relaxedAutoImplicit false

namespace LintCore

namespace Pipe

/-! ### Events for a reader -/

/-- How many waits come to an end by what has happened so far. A reader that has not registered may
find something when it does. -/
def Readiness.credit : Readiness → Nat
  | unregistered => 1
  | registered pending => pending.toNat

theorem Readiness.credit_notify_le (readiness : Readiness) :
    readiness.notify.credit ≤ readiness.credit + 1 := by
  cases readiness with
  | unregistered => exact Nat.le_succ 1
  | registered pending => exact Nat.le_add_left 1 _

theorem Readiness.notify_ne (readiness : Readiness) : readiness.notify ≠ .registered false := by
  cases readiness <;> simp [notify]

namespace Fifo

variable {fifo : Fifo}

theorem isReadable_eq_false_iff :
    fifo.isReadable = false ↔ fifo.bytes = [] ∧ fifo.closed = false := by
  simp [isReadable]

/-- A wait takes the event, and may only have to register for it before. -/
theorem wait_of_ready (hnonBlocking : fifo.nonBlocking = true) (hready : fifo.wait?.isSome = true) :
    1 ≤ fifo.readiness.credit ∧
      pipe.wait fifo = (.ok (), { fifo with readiness := .registered false }) := by
  cases hreadiness : fifo.readiness with
  | unregistered =>
    have hreadable : fifo.isReadable = true := by
      simpa [wait?, hnonBlocking, hreadiness] using hready
    exact ⟨Nat.le_refl 1, by simp [pipe, wait?, hnonBlocking, hreadiness, hreadable]⟩
  | registered pending =>
    have hpending : pending = true := by
      simpa [wait?, hnonBlocking, hreadiness] using hready
    exact ⟨by rw [hpending]; exact Nat.le_refl 1,
      by simp [pipe, wait?, hnonBlocking, hreadiness, hpending]⟩

/-- If there is something to read, a reader sleeps only if it has registered and has no event. -/
theorem readiness_of_asleep (hnonBlocking : fifo.nonBlocking = true)
    (hasleep : fifo.wait?.isSome = false) (hreadable : fifo.isReadable = true) :
    fifo.readiness = .registered false := by
  cases hreadiness : fifo.readiness with
  | unregistered => simp [wait?, hnonBlocking, hreadiness, hreadable] at hasleep
  | registered pending =>
    cases pending with
    | false => rfl
    | true => simp [wait?, hnonBlocking, hreadiness] at hasleep

end Fifo

end Pipe

namespace EventLoop

/-! ### What happens -/

/-- The event is a read that would have blocked. -/
def Event.isRefusal : Event → Bool
  | read (.error error) => error.kind = .wouldBlock
  | _ => false

/-- The number of reads that would have blocked. -/
def refusals (events : List Event) : Nat := events.countP Event.isRefusal

theorem refusals_append (first later : List Event) :
    refusals (first ++ later) = refusals first + refusals later :=
  List.countP_append

/-- What the writer does in a move. -/
def Move.writings : Move → List Writing
  | writer writing => [writing]
  | register => []
  | loop meanwhile => meanwhile

/-- Something that happens to a loop and its pipe. -/
inductive Happening where
  | move (move : Move)
  /-- An event that neither a write nor the close is the reason of. -/
  | stray

/-- The number of events that it can make pending. -/
def Happening.notices : Happening → Nat
  | .move taken => taken.writings.countP fun writing ↦ !writing.isEmpty
  | .stray => 1

/-- The number of events that can be made pending in all. -/
def totalNotices : List Happening → Nat
  | [] => 0
  | happening :: rest => happening.notices + totalNotices rest

namespace Transfer

variable {size : Nat}

def happen (t : Transfer size) : Happening → Transfer size
  | .move move => t.step move
  | .stray => { t with fifo := { t.fifo with readiness := t.fifo.readiness.notify } }

def happenings (t : Transfer size) (happenings : List Happening) : Transfer size :=
  happenings.foldl happen t

/-- The loop waits, and there is no event to wake it. -/
def Asleep (t : Transfer size) : Prop := t.phase = .waiting ∧ t.isReady = false

instance (t : Transfer size) : Decidable t.Asleep :=
  inferInstanceAs (Decidable (t.phase = .waiting ∧ t.isReady = false))

/-! ### Turns -/

variable {t : Transfer size} {notices : Nat}

/-- A turn that finds nothing to read begins to wait. -/
theorem due_of_unreadable (hsize : 0 < size) (hnonBlocking : t.fifo.nonBlocking = true)
    (hreading : t.phase = .reading) (hunreadable : t.fifo.isReadable = false) :
    t.due = ⟨[.read (.error Pipe.Fifo.wouldBlock)], t.buffer, t.fifo, .waiting⟩ := by
  obtain ⟨hbytes, hopen⟩ := Pipe.Fifo.isReadable_eq_false_iff.mp hunreadable
  rw [due, hreading, turn_reading_of_error (Pipe.Fifo.read_of_open hsize hnonBlocking hbytes hopen),
    afterFailure_of_wouldBlock rfl]
  exact congrArg _ (if_pos hnonBlocking)

/-- A turn that reads otherwise hands on bytes, or sees the end. -/
theorem due_of_readable (hsize : 0 < size) (hreading : t.phase = .reading)
    (hreadable : t.fifo.isReadable = true) :
    (∃ chunk buffer bytes, t.due = ⟨[.read (.ok (List.length chunk)), .append chunk], buffer,
      { t.fifo with bytes }, .reading⟩) ∨
    t.due = ⟨[.read (.ok 0)], t.buffer, t.fifo, .ended .endOfStream⟩ := by
  rw [due, hreading]
  by_cases hbytes : t.fifo.bytes = []
  · have hclosed : t.fifo.closed = true := by simpa [Pipe.Fifo.isReadable, hbytes] using hreadable
    exact .inr (turn_reading_of_end (Pipe.Fifo.read_of_closed hbytes hclosed))
  · have htake : t.fifo.bytes.take size ≠ [] := by simp [hbytes, Nat.ne_of_gt hsize]
    refine .inl ⟨t.fifo.bytes.take size, t.buffer.fill (t.fifo.bytes.take size),
      t.fifo.bytes.drop size, ?_⟩
    rw [turn_reading_of_chunk (Pipe.Fifo.read_of_pending hbytes) htake,
      Buffer.front_fill t.buffer (List.length_take_le _ _)]

/-- A turn that waits takes the event. -/
theorem due_of_waiting (hnonBlocking : t.fifo.nonBlocking = true) (hwaiting : t.phase = .waiting)
    (hready : t.isReady = true) :
    1 ≤ t.fifo.readiness.credit ∧
      t.due = ⟨[.wait (.ok ())], t.buffer, { t.fifo with readiness := .registered false },
        .reading⟩ := by
  rw [isReady, hwaiting] at hready
  obtain ⟨hcredit, hwait⟩ := Pipe.Fifo.wait_of_ready hnonBlocking hready
  rw [due, hwaiting]
  exact ⟨hcredit, turn_waiting_of_ok hwait⟩

/-- What the writer does and what the loop notes down do not depend on each other. -/
theorem record_writings (t : Transfer size) (events : List Event) (writings : List Writing) :
    (t.writings writings).record events = (t.record events).writings writings := by
  induction writings generalizing t with
  | nil => rfl
  | cons first rest ih =>
    have hfirst : (t.writing first).record events = (t.record events).writing first := by
      cases hclosed : t.fifo.closed with
      | true =>
        rw [writing_of_closed hclosed]
        exact (writing_of_closed (t := t.record events) hclosed first).symm
      | false => cases first <;> simp [Transfer.writing, record, hclosed]
    show ((t.writing first).writings rest).record events = _
    rw [ih, hfirst]
    rfl

/-- A turn leaves the transfer as the turn that was due says. -/
theorem record_asked {events : List Event} {buffer : Buffer size} {fifo : Pipe.Fifo} {next : Phase}
    (hdue : t.due = ⟨events, buffer, fifo, next⟩) :
    t.asked.record t.due.events =
      { t with fifo, phase := next, buffer, events := t.events ++ events } := by
  rw [record, asked, hdue]

/-! ### Every event is heard -/

/-- What holds of a transfer in which so many events can have been made pending. -/
structure Alert (t : Transfer size) (notices : Nat) : Prop where
  nonBlocking : t.fifo.nonBlocking = true
  announced : t.phase = .waiting → t.fifo.isReadable = true →
    t.fifo.readiness ≠ .registered false
  wait_le : waitCount t.events + t.fifo.readiness.credit ≤ notices + 1
  refusals_eq : refusals t.events = waitCount t.events + if t.phase = .waiting then 1 else 0

namespace Alert

theorem start (loop : EventLoop) : Alert (Transfer.start loop) 0 := by
  have hphase : (Transfer.start loop).phase ≠ .waiting := by
    rw [Transfer.start]
    cases loop.state <;> simp
  refine ⟨rfl, fun hwaiting ↦ absurd hwaiting hphase, Nat.le_refl 1, ?_⟩
  rw [if_neg hphase]
  rfl

theorem mono {more : Nat} (h : Alert t notices) (hmore : notices ≤ more) : Alert t more :=
  ⟨h.nonBlocking, h.announced, h.wait_le.trans (Nat.succ_le_succ hmore), h.refusals_eq⟩

/-- An event is pending for a loop that waits, whatever it has been made pending for. -/
theorem notified {later : Transfer size} (h : Alert t notices) (hphase : later.phase = t.phase)
    (hevents : later.events = t.events) (hnonBlocking : later.fifo.nonBlocking = t.fifo.nonBlocking)
    (hreadiness : later.fifo.readiness = t.fifo.readiness.notify) : Alert later (notices + 1) where
  nonBlocking := hnonBlocking.trans h.nonBlocking
  announced _ _ := hreadiness ▸ t.fifo.readiness.notify_ne
  wait_le := by
    have hcredit := t.fifo.readiness.credit_notify_le
    have hwait := h.wait_le
    rw [hevents, hreadiness]
    omega
  refusals_eq := by
    rw [hevents, hphase]
    exact h.refusals_eq

theorem writing (h : Alert t notices) (writing : Writing) :
    Alert (t.writing writing) (notices + if writing.isEmpty then 0 else 1) := by
  by_cases hclosed : t.fifo.closed = true
  · rw [writing_of_closed hclosed]
    exact h.mono (Nat.le_add_right _ _)
  · cases writing with
    | write bytes =>
      cases bytes with
      | nil =>
        rw [writing_of_isEmpty rfl]
        exact h
      | cons byte rest =>
        rw [writing_write hclosed]
        exact h.notified rfl rfl rfl rfl
    | close =>
      rw [writing_close hclosed]
      exact h.notified rfl rfl rfl rfl

theorem writings (h : Alert t notices) (writings : List Writing) :
    Alert (t.writings writings)
      (notices + writings.countP fun writing ↦ !writing.isEmpty) := by
  induction writings generalizing t notices with
  | nil => exact h
  | cons first rest ih =>
    have hcount : notices + (first :: rest).countP (fun writing ↦ !writing.isEmpty) =
        (notices + if first.isEmpty then 0 else 1) +
          rest.countP fun writing ↦ !writing.isEmpty := by
      cases hempty : first.isEmpty <;> simp [hempty]; omega
    rw [hcount]
    exact ih (h.writing first)

/-- A turn keeps it up if it begins to wait only over an empty pipe and does not wait more often
than events allow. -/
theorem of_due {events : List Event} {buffer : Buffer size} {fifo : Pipe.Fifo} {next : Phase}
    (h : Alert t notices) (hdue : t.due = ⟨events, buffer, fifo, next⟩)
    (hnonBlocking : fifo.nonBlocking = t.fifo.nonBlocking)
    (hannounced : next = .waiting → fifo.isReadable = false)
    (hwait : waitCount events + fifo.readiness.credit ≤ t.fifo.readiness.credit)
    (hrefusals : refusals events + (if t.phase = .waiting then 1 else 0) =
      waitCount events + if next = .waiting then 1 else 0) :
    Alert (t.asked.record t.due.events) notices := by
  have hwaited := h.wait_le
  have hrefused := h.refusals_eq
  rw [record_asked hdue]
  refine ⟨hnonBlocking.trans h.nonBlocking, fun hnext hreadable ↦ ?_, ?_, ?_⟩
  · rw [hannounced hnext] at hreadable
    cases hreadable
  · show waitCount (t.events ++ events) + fifo.readiness.credit ≤ notices + 1
    rw [waitCount_append]
    omega
  · show refusals (t.events ++ events) =
      waitCount (t.events ++ events) + if next = .waiting then 1 else 0
    rw [waitCount_append, refusals_append]
    omega

theorem turn (hsize : 0 < size) (h : Alert t notices) (hready : t.isReady = true) :
    Alert (t.asked.record t.due.events) notices := by
  cases hphase : t.phase with
  | reading =>
    cases hreadable : t.fifo.isReadable with
    | false =>
      have hdue := due_of_unreadable hsize h.nonBlocking hphase hreadable
      exact h.of_due hdue rfl (fun _ ↦ hreadable) (Nat.le_of_eq (Nat.zero_add _))
        (by rw [hphase]; rfl)
    | true =>
      rcases due_of_readable hsize hphase hreadable with ⟨chunk, buffer, bytes, hdue⟩ | hdue
      · exact h.of_due hdue rfl nofun (Nat.le_of_eq (Nat.zero_add _)) (by rw [hphase]; rfl)
      · exact h.of_due hdue rfl nofun (Nat.le_of_eq (Nat.zero_add _)) (by rw [hphase]; rfl)
  | waiting =>
    obtain ⟨hcredit, hdue⟩ := due_of_waiting h.nonBlocking hphase hready
    exact h.of_due hdue rfl nofun hcredit (by rw [hphase]; rfl)
  | ended ending =>
    rw [isReady, hphase] at hready
    cases hready

theorem register (h : Alert t notices) : Alert (t.step .register) notices := by
  rw [Transfer.step]
  by_cases hwaiting : t.phase = .waiting
  · rw [if_pos hwaiting]
    cases hreadiness : t.fifo.readiness with
    | unregistered =>
      have hregister : t.fifo.register =
          { t.fifo with readiness := .registered t.fifo.isReadable } := by
        rw [Pipe.Fifo.register, hreadiness]
      have hwait := h.wait_le
      rw [hreadiness] at hwait
      rw [hregister]
      -- What the writer has done since the loop last read is found by registering.
      refine ⟨h.nonBlocking, fun _ hreadable hregistered ↦ ?_, ?_, h.refusals_eq⟩
      · have hunreadable : t.fifo.isReadable = false := Pipe.Readiness.registered.inj hregistered
        exact absurd (hreadable.symm.trans hunreadable) (by simp)
      · have hcredit : t.fifo.isReadable.toNat ≤ 1 := Bool.toNat_le _
        exact (Nat.add_le_add_left hcredit _).trans hwait
    | registered pending =>
      have hregister : t.fifo.register = t.fifo := by rw [Pipe.Fifo.register, hreadiness]
      rw [hregister]
      exact h
  · rw [if_neg hwaiting]
    exact h

theorem happen (hsize : 0 < size) (h : Alert t notices) (happening : Happening) :
    Alert (t.happen happening) (notices + happening.notices) := by
  cases happening with
  | stray => exact h.notified rfl rfl rfl rfl
  | move move =>
    cases move with
    | writer writing =>
      have hnotices : (Happening.move (.writer writing)).notices =
          if writing.isEmpty then 0 else 1 := by
        cases hempty : writing.isEmpty <;> simp [Happening.notices, Move.writings, hempty]
      rw [hnotices]
      exact h.writing writing
    | register => exact h.register
    | loop meanwhile =>
      show Alert (t.step (.loop meanwhile)) _
      rw [Transfer.step]
      by_cases hready : t.isReady = true
      · -- The writer acts before the loop notes down its turn, but might as well do so after it.
        rw [if_pos hready, record_writings]
        exact (h.turn hsize hready).writings meanwhile
      · rw [if_neg hready]
        exact h.mono (Nat.le_add_right _ _)

theorem happenings (hsize : 0 < size) (h : Alert t notices) (happenings : List Happening) :
    Alert (t.happenings happenings) (notices + totalNotices happenings) := by
  induction happenings generalizing t notices with
  | nil => exact h
  | cons first rest ih =>
    rw [totalNotices, ← Nat.add_assoc]
    exact ih (h.happen hsize first)

/-- A loop that sleeps has nothing to read. -/
theorem of_asleep (h : Alert t notices) (hasleep : t.Asleep) :
    t.fifo.bytes = [] ∧ t.fifo.closed = false := by
  obtain ⟨hwaiting, hready⟩ := hasleep
  rw [isReady, hwaiting] at hready
  rw [← Pipe.Fifo.isReadable_eq_false_iff, ← Bool.not_eq_true]
  intro hreadable
  exact h.announced hwaiting hreadable
    (Pipe.Fifo.readiness_of_asleep h.nonBlocking hready hreadable)

end Alert

/-! ### All orders -/

/-- A loop that is woken over an empty pipe reads once, and goes to sleep. -/
theorem asleep_of_stale (hsize : 0 < size) (hnonBlocking : t.fifo.nonBlocking = true)
    (hwaiting : t.phase = .waiting) (hready : t.isReady = true) (hbytes : t.fifo.bytes = [])
    (hopen : t.fifo.closed = false) :
    let later := t.moves [.loop [], .loop []]
    later.events = t.events ++ [.wait (.ok ()), .read (.error Pipe.Fifo.wouldBlock)] ∧
      later.fifo = { t.fifo with readiness := .registered false } ∧ later.Asleep := by
  let woken : Transfer size :=
    { t with
      fifo := { t.fifo with readiness := .registered false }
      phase := .reading
      events := t.events ++ [.wait (.ok ())] }
  intro later
  have hwoken : t.asked.record t.due.events = woken :=
    record_asked (due_of_waiting hnonBlocking hwaiting hready).2
  have hdue : woken.due = ⟨[.read (.error Pipe.Fifo.wouldBlock)], t.buffer, woken.fifo, .waiting⟩ :=
    due_of_unreadable hsize hnonBlocking rfl
      (Pipe.Fifo.isReadable_eq_false_iff.mpr ⟨hbytes, hopen⟩)
  have hlater : later =
      { woken with phase := .waiting
                   events := woken.events ++ [.read (.error Pipe.Fifo.wouldBlock)] } := by
    calc later
      _ = (t.asked.record t.due.events).moves [.loop []] := moves_loop_succ hready 1
      _ = woken.moves [.loop []] := by rw [hwoken]
      _ = woken.asked.record woken.due.events := moves_loop_succ (t := woken) rfl 0
      _ = _ := record_asked hdue
  rw [hlater]
  refine ⟨List.append_assoc _ _ _, rfl, rfl, ?_⟩
  simp [isReady, woken, Pipe.Fifo.wait?, hnonBlocking]

/-- Whatever happens to a loop and its pipe, in whatever order: a loop that sleeps has read all that
was written, and its pipe is open. A stale event wakes it for one read that would have blocked, and
then it sleeps. Over a whole run there are as many such reads as waits that came to an end, and one
more if the loop waits now; and no more such waits than events, and one more for what is found at
the registration. -/
theorem never_asleep_over_input (loop : EventLoop) (happenings : List Happening) :
    let t := (start loop).happenings happenings
    (t.Asleep → t.fifo.bytes = [] ∧ t.fifo.closed = false) ∧
      (t.phase = .waiting → t.isReady = true → t.fifo.bytes = [] → t.fifo.closed = false →
        let later := t.moves [.loop [], .loop []]
        later.events = t.events ++ [.wait (.ok ()), .read (.error Pipe.Fifo.wouldBlock)] ∧
          later.fifo = { t.fifo with readiness := .registered false } ∧ later.Asleep) ∧
      refusals t.events = waitCount t.events + (if t.phase = .waiting then 1 else 0) ∧
      waitCount t.events ≤ totalNotices happenings + 1 := by
  intro t
  have hsize := loop.bufferSize_pos
  have halert : Alert t (0 + totalNotices happenings) :=
    (Alert.start loop).happenings hsize happenings
  rw [Nat.zero_add] at halert
  exact ⟨halert.of_asleep, asleep_of_stale hsize halert.nonBlocking, halert.refusals_eq,
    (Nat.le_add_right _ _).trans halert.wait_le⟩

/-- The writer writes between a read that would have blocked and the registration, and again while
the loop is being woken. -/
def overtaken : List Happening :=
  [.move (.loop []), .move (.writer (.write [1])), .move .register, .move (.loop [.write [2]]),
    .move (.loop []), .move (.loop [])]

/-- The event of the second write comes to be stale, since the read that follows the first event
gets both bytes. -/
theorem asleep_of_overtaken :
    let t := (start narrow).happenings overtaken
    let later := t.moves [.loop [], .loop []]
    (t.phase = .waiting ∧ t.isReady = true ∧ t.fifo.bytes = [] ∧ t.fifo.closed = false) ∧
      t.received = [1, 2] ∧ refusals t.events = 2 ∧ later.Asleep := by
  intro t later
  have hwaiting : t.phase = .waiting := by decide +kernel
  have hready : t.isReady = true := by decide +kernel
  have hbytes : t.fifo.bytes = [] := by decide +kernel
  have hopen : t.fifo.closed = false := by decide +kernel
  obtain ⟨-, hstale, hrefusals, -⟩ := never_asleep_over_input narrow overtaken
  obtain ⟨-, -, hasleep⟩ := hstale hwaiting hready hbytes hopen
  refine ⟨⟨hwaiting, hready, hbytes, hopen⟩, by decide +kernel, hrefusals.trans ?_, hasleep⟩
  decide +kernel

end Transfer

end EventLoop

end LintCore
