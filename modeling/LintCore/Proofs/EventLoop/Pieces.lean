import LintCore.Proofs.EventLoop.Scripted
import Mathlib.Algebra.Order.Group.Nat

/-!
# The pieces in which a blocking reader is drained

A reader that never fails hands out its bytes in pieces, none of them empty and none longer than it
was asked for, and then says that there are no more (`Pipe.HandsOut`). A loop hands on the very same
pieces and is done (`drain_of_handsOut`). Which pieces these are is up to the reader. Bytes in
memory are cut every `size` bytes from the first one on (`slices`, `Pipe.handsOut_memory`), so all
pieces but the last fill the buffer, and the last one does if the number of bytes is a multiple of
its size (`length_eq_iff_of_mem_getLast?_slices`). `drained_in_pieces` puts this together.
-/

set_option autoImplicit false
set_option relaxedAutoImplicit false

namespace LintCore

/-! ### Cutting bytes into pieces of one size -/

/-- The bytes from each multiple of `size` up to the next one, or up to the end. -/
def slices (size : Nat) (bytes : List UInt8) : List (List UInt8) :=
  (List.range ((bytes.length + size - 1) / size)).map fun index ↦
    (bytes.drop (index * size)).take size

section Slices

variable {size : Nat} (hsize : 0 < size) {bytes : List UInt8}

include hsize

theorem slices_nil : slices size [] = [] := by
  rw [slices, List.length_nil, Nat.zero_add, Nat.div_eq_of_lt (Nat.sub_one_lt_of_lt hsize)]
  rfl

theorem slices_of_ne_nil (hbytes : bytes ≠ []) :
    slices size bytes = bytes.take size :: slices size (bytes.drop size) := by
  have hpositive := List.length_pos_of_ne_nil hbytes
  have hcount : (bytes.length + size - 1) / size =
      ((bytes.drop size).length + size - 1) / size + 1 := by
    rw [List.length_drop]
    rcases Nat.lt_or_ge bytes.length size with hshort | hlong
    · rw [Nat.sub_eq_zero_of_le (Nat.le_of_lt hshort), Nat.zero_add,
        Nat.div_eq_of_lt (Nat.sub_one_lt_of_lt hsize)]
      exact Nat.div_eq_of_lt_le (by omega) (by omega)
    · rw [← Nat.add_div_right _ hsize]
      exact congrArg (· / size) (by omega)
  rw [slices, hcount, List.range_succ_eq_map, List.map_cons, List.map_map, Nat.zero_mul,
    List.drop_zero, slices]
  refine congrArg (_ :: ·) (List.map_congr_left fun index _ ↦ ?_)
  rw [Function.comp_apply, List.drop_drop, Nat.succ_mul, Nat.add_comm]

/-- What holds of no bytes, and of bytes if it holds of what follows their first slice, holds of all
bytes. -/
theorem slices_induction {motive : List UInt8 → Prop} (nil : motive [])
    (cons : ∀ bytes, bytes ≠ [] → motive (bytes.drop size) → motive bytes) (bytes : List UInt8) :
    motive bytes := by
  induction hlength : bytes.length using Nat.strong_induction_on generalizing bytes with
  | _ length ih =>
    subst hlength
    by_cases hbytes : bytes = []
    · exact hbytes ▸ nil
    · have hpositive := List.length_pos_of_ne_nil hbytes
      exact cons bytes hbytes (ih _ (by rw [List.length_drop]; omega) _ rfl)

theorem flatten_slices (bytes : List UInt8) : (slices size bytes).flatten = bytes := by
  induction bytes using slices_induction hsize with
  | nil => rw [slices_nil hsize, List.flatten_nil]
  | cons bytes hbytes ih =>
    rw [slices_of_ne_nil hsize hbytes, List.flatten_cons, ih, List.take_append_drop]

theorem length_of_mem_slices {piece : List UInt8} (hpiece : piece ∈ slices size bytes) :
    0 < piece.length ∧ piece.length ≤ size := by
  induction bytes using slices_induction hsize with
  | nil =>
    rw [slices_nil hsize] at hpiece
    exact absurd hpiece List.not_mem_nil
  | cons bytes hbytes ih =>
    rw [slices_of_ne_nil hsize hbytes] at hpiece
    rcases List.mem_cons.mp hpiece with rfl | hrest
    · have hpositive := List.length_pos_of_ne_nil hbytes
      rw [List.length_take]
      omega
    · exact ih hrest

/-- Every slice but the last is as long as a slice can be. -/
theorem length_of_mem_dropLast_slices {piece : List UInt8}
    (hpiece : piece ∈ (slices size bytes).dropLast) : piece.length = size := by
  induction bytes using slices_induction hsize with
  | nil =>
    rw [slices_nil hsize] at hpiece
    exact absurd hpiece List.not_mem_nil
  | cons bytes hbytes ih =>
    rw [slices_of_ne_nil hsize hbytes] at hpiece
    by_cases hrest : bytes.drop size = []
    · rw [hrest, slices_nil hsize] at hpiece
      exact absurd hpiece List.not_mem_nil
    · rw [slices_of_ne_nil hsize hrest, List.dropLast_cons_cons,
        ← slices_of_ne_nil hsize hrest] at hpiece
      rcases List.mem_cons.mp hpiece with rfl | hlater
      · have hlong := List.length_pos_of_ne_nil hrest
        rw [List.length_drop] at hlong
        rw [List.length_take]
        omega
      · exact ih hlater

/-- The last slice is as long as the others if their size divides the number of bytes. -/
theorem length_eq_iff_of_mem_getLast?_slices {piece : List UInt8}
    (hpiece : piece ∈ (slices size bytes).getLast?) :
    piece.length = size ↔ size ∣ bytes.length := by
  obtain ⟨front, hfront⟩ := List.getLast?_eq_some_iff.mp hpiece
  have hmem : piece ∈ slices size bytes := hfront ▸ List.mem_concat_self
  obtain ⟨hpositive, hle⟩ := length_of_mem_slices hsize hmem
  have hfull : ∀ full ∈ front, full.length = size := fun full hfull ↦
    length_of_mem_dropLast_slices hsize (by rwa [hfront, List.dropLast_concat])
  have hbytes : bytes.length = front.length * size + piece.length := by
    have hflatten := congrArg List.length (flatten_slices hsize bytes)
    rw [hfront, List.flatten_concat, List.length_append, List.length_flatten,
      List.map_congr_left hfull, List.map_const', List.sum_replicate_nat] at hflatten
    exact hflatten.symm
  rw [hbytes, Nat.dvd_add_right (Nat.dvd_mul_left size front.length)]
  constructor
  · intro hlength
    exact hlength ▸ Nat.dvd_refl _
  · intro hdivides
    exact Nat.le_antisymm hle (Nat.le_of_dvd hpositive hdivides)

end Slices

/-! ### What a reader hands out -/

namespace Pipe

/-- From the condition on, reads of at most `size` bytes give these pieces, none of them empty, and
then the end. -/
inductive HandsOut {σ : Type} (pipe : Pipe σ) (size : Nat) : σ → List (List UInt8) → Prop
  | stop {condition next : σ} : pipe.read size condition = (.ok [], next) →
    HandsOut pipe size condition []
  | piece {condition next : σ} {piece : List UInt8} {pieces : List (List UInt8)} :
    pipe.read size condition = (.ok piece, next) → piece ≠ [] → piece.length ≤ size →
      HandsOut pipe size next pieces → HandsOut pipe size condition (piece :: pieces)

theorem HandsOut.nil_not_mem {σ : Type} {pipe : Pipe σ} {size : Nat} {condition : σ}
    {pieces : List (List UInt8)} (h : pipe.HandsOut size condition pieces) : [] ∉ pieces := by
  induction h with
  | stop _ => exact List.not_mem_nil
  | piece _ hpiece _ _ ih => exact List.not_mem_cons_of_ne_of_not_mem (Ne.symm hpiece) ih

variable {size : Nat} (hsize : 0 < size)

include hsize

theorem handsOut_memory (bytes : List UInt8) :
    (blocking readMemory).HandsOut size bytes (slices size bytes) := by
  induction bytes using slices_induction hsize with
  | nil =>
    rw [slices_nil hsize]
    have hread : (blocking readMemory).read size [] = (.ok [], []) := by
      show (Except.ok (List.take size []), List.drop size []) = _
      rw [List.take_nil, List.drop_nil]
    exact .stop hread
  | cons bytes hbytes ih =>
    rw [slices_of_ne_nil hsize hbytes]
    refine .piece rfl ?_ (List.length_take_le size bytes) ih
    simp [Nat.ne_of_gt hsize, hbytes]

/-- A script that has one piece of data before others hands it out slice by slice. -/
theorem HandsOut.script_data {rest : List Step} {waits : List (Option Error)}
    {pieces : List (List UInt8)} (hrest : Script.reader.HandsOut size ⟨rest, waits⟩ pieces)
    {bytes : List UInt8} (hbytes : bytes ≠ []) :
    Script.reader.HandsOut size ⟨.data bytes :: rest, waits⟩ (slices size bytes ++ pieces) := by
  induction bytes using slices_induction hsize with
  | nil => exact absurd rfl hbytes
  | cons bytes _ ih =>
    rw [slices_of_ne_nil hsize hbytes, List.cons_append]
    have htake : bytes.take size ≠ [] := by simp [Nat.ne_of_gt hsize, hbytes]
    rcases Nat.lt_or_ge size bytes.length with hlong | hshort
    · have hread : Script.reader.read size ⟨.data bytes :: rest, waits⟩ =
          (.ok (bytes.take size), ⟨.data (bytes.drop size) :: rest, waits⟩) :=
        Script.read_data_of_lt false waits hlong rest
      have hdrop : bytes.drop size ≠ [] := fun hnil ↦
        Nat.not_le.mpr hlong (List.drop_eq_nil_iff.mp hnil)
      exact .piece hread htake (List.length_take_le size bytes) (ih hdrop)
    · have hread : Script.reader.read size ⟨.data bytes :: rest, waits⟩ =
          (.ok bytes, ⟨rest, waits⟩) := Script.read_data_of_le false waits hshort rest
      rw [List.drop_eq_nil_of_le hshort, slices_nil hsize, List.nil_append,
        List.take_of_length_le hshort]
      exact .piece hread hbytes hshort hrest

/-- A script of data that ends hands out each piece of it slice by slice. -/
theorem handsOut_script {pieces : List (List UInt8)} (hpieces : [] ∉ pieces)
    (waits : List (Option Error)) :
    Script.reader.HandsOut size ⟨pieces.map .data ++ [.data []], waits⟩
      (pieces.flatMap (slices size)) := by
  induction pieces with
  | nil =>
    have hread : Script.reader.read size ⟨[.data []], waits⟩ = (.ok [], ⟨[], waits⟩) :=
      Script.read_data_of_le false waits (Nat.zero_le size) []
    exact .stop hread
  | cons bytes rest ih =>
    obtain ⟨hbytes, hrest⟩ := not_or.mp (mt List.mem_cons.mpr hpieces)
    exact (ih hrest).script_data hsize (Ne.symm hbytes)

end Pipe

namespace EventLoop

variable {σ : Type} {pipe : Pipe σ} {size : Nat}

/-- A run hands on the pieces that it is given as they are, and ends behind the last of them. -/
theorem drain_of_handsOut {condition : σ} {pieces : List (List UInt8)}
    (h : pipe.HandsOut size condition pieces) (buffer : Buffer size) {fuel : Nat}
    (hfuel : pieces.length < fuel) :
    ∃ filled last, drain pipe fuel .reading buffer condition =
      ⟨pieces.flatMap (fun piece ↦ reaction (.read (.ok piece))) ++ [.read (.ok 0)], filled, last,
        some .endOfStream⟩ := by
  induction h generalizing buffer fuel with
  | @stop condition next hread =>
    obtain ⟨fuel, rfl⟩ := Nat.exists_eq_add_of_le' hfuel
    exact ⟨buffer, next, drain_of_turn_ended (turn_reading_of_end hread)⟩
  | @piece condition next piece pieces hread hpiece hle _ ih =>
    obtain ⟨fuel, rfl⟩ := Nat.exists_eq_add_of_le' (Nat.one_le_of_lt hfuel)
    obtain ⟨filled, last, hrest⟩ := ih (buffer.fill piece) (Nat.lt_of_succ_lt_succ hfuel)
    have hturn : turn pipe .reading buffer condition =
        ⟨reaction (.read (.ok piece)), buffer.fill piece, next, .reading⟩ := by
      rw [turn_reading_of_chunk hread hpiece, Buffer.front_fill buffer hle,
        reaction_of_ne_nil hpiece]
    refine ⟨filled, last, ?_⟩
    rw [drain_of_turn_going hturn Phase.reading_ne_ended, hrest, Run.after, List.flatMap_cons,
      List.append_assoc]

theorem chunks_flatMap_reaction {pieces : List (List UInt8)} (hpieces : [] ∉ pieces) :
    chunks (pieces.flatMap fun piece ↦ reaction (.read (.ok piece))) = pieces := by
  induction pieces with
  | nil => rfl
  | cons piece rest ih =>
    obtain ⟨hpiece, hrest⟩ := not_or.mp (mt List.mem_cons.mpr hpieces)
    rw [List.flatMap_cons, chunks_append, ih hrest, reaction_of_ne_nil (Ne.symm hpiece)]
    rfl

theorem requests_flatMap_reaction_read (pieces : List (List UInt8)) :
    requests (pieces.flatMap fun piece ↦ reaction (.read (.ok piece))) =
      List.replicate pieces.length .read := by
  induction pieces with
  | nil => rfl
  | cons piece rest ih =>
    rw [List.flatMap_cons, requests_append, requests_reaction_read, ih, List.length_cons,
      List.replicate_succ, List.singleton_append]

/-! ### The call of a loop -/

/-- The call has come to the end of the stream and handed on just these pieces, with a read for each
of them and one more, and no waits. -/
structure Drained {loop : EventLoop} (called : Run σ loop.bufferSize × EventLoop)
    (pieces : List (List UInt8)) : Prop where
  chunks_eq : chunks called.1.events = pieces
  requests_eq : requests called.1.events = List.replicate (pieces.length + 1) .read
  ending_eq : called.1.ending = some .endOfStream
  state_eq : called.2.state = .done

theorem drained_of_handsOut {loop : EventLoop} (hrunning : loop.state = .running) {condition : σ}
    {pieces : List (List UInt8)} (h : pipe.HandsOut loop.bufferSize condition pieces) {fuel : Nat}
    (hfuel : pieces.length < fuel) : Drained (loop.run pipe fuel condition) pieces := by
  obtain ⟨filled, last, hdrain⟩ := drain_of_handsOut h loop.buffer hfuel
  rw [run_of_running hrunning, hdrain]
  refine ⟨?_, ?_, rfl, by simp⟩
  · rw [chunks_append, chunks_flatMap_reaction h.nil_not_mem]
    exact List.append_nil _
  · rw [requests_append, requests_flatMap_reaction_read, List.replicate_succ']
    rfl

/-- A loop is called on a pipe around a blocking reader. Bytes in memory are handed on in slices as
long as the buffer, from the first byte on. The number of slices is that of the bytes over the size
of the buffer, rounded up; all but the last fill the buffer, and the last one, which is not empty,
fills it if the size divides the number of bytes and not otherwise. Any other reader has its bytes
handed on in the pieces in which it hands them out, so what they are put together does not depend on
the reader or on the size of the buffer. A reader can hand out any pieces that fit into the buffer:
one that has them in a script does, and it has the longer ones handed on in slices. -/
theorem drained_in_pieces (loop : EventLoop) (hrunning : loop.state = .running) :
    (∀ bytes fuel, (slices loop.bufferSize bytes).length < fuel →
      Drained (loop.run (Pipe.blocking Pipe.readMemory) fuel bytes)
        (slices loop.bufferSize bytes)) ∧
    (∀ bytes, (slices loop.bufferSize bytes).flatten = bytes ∧
      (slices loop.bufferSize bytes).length =
        (bytes.length + loop.bufferSize - 1) / loop.bufferSize ∧
      (∀ piece ∈ (slices loop.bufferSize bytes).dropLast, piece.length = loop.bufferSize) ∧
      ∀ piece ∈ (slices loop.bufferSize bytes).getLast?,
        0 < piece.length ∧ piece.length ≤ loop.bufferSize ∧
          (piece.length = loop.bufferSize ↔ loop.bufferSize ∣ bytes.length)) ∧
    (∀ (σ : Type) (read : Nat → σ → Except Pipe.Error (List UInt8) × σ) (condition : σ)
      (pieces : List (List UInt8)),
      (Pipe.blocking read).HandsOut loop.bufferSize condition pieces →
        ∀ bytes fuel, pieces.flatten = bytes → pieces.length < fuel →
          let called := loop.run (Pipe.blocking read) fuel condition
          Drained called pieces ∧ (chunks called.1.events).flatten = bytes) ∧
    ∀ (pieces : List (List UInt8)) waits fuel, [] ∉ pieces →
      (pieces.flatMap (slices loop.bufferSize)).length < fuel →
        Drained (loop.run Pipe.Script.reader fuel ⟨pieces.map .data ++ [.data []], waits⟩)
          (pieces.flatMap (slices loop.bufferSize)) := by
  have hsize := loop.bufferSize_pos
  refine ⟨fun bytes fuel hfuel ↦ ?_, fun bytes ↦ ⟨flatten_slices hsize bytes, ?_, fun piece ↦
    length_of_mem_dropLast_slices hsize, fun piece hpiece ↦ ?_⟩,
    fun σ read condition pieces hpieces bytes fuel hbytes hfuel ↦ ?_,
    fun pieces waits fuel hpieces hfuel ↦ ?_⟩
  · exact drained_of_handsOut hrunning (Pipe.handsOut_memory hsize bytes) hfuel
  · rw [slices, List.length_map, List.length_range]
  · obtain ⟨hpositive, hle⟩ := length_of_mem_slices hsize (List.mem_of_mem_getLast? hpiece)
    exact ⟨hpositive, hle, length_eq_iff_of_mem_getLast?_slices hsize hpiece⟩
  · have hdrained := drained_of_handsOut hrunning hpieces hfuel
    exact ⟨hdrained, by rw [hdrained.chunks_eq, hbytes]⟩
  · exact drained_of_handsOut hrunning (Pipe.handsOut_script hsize hpieces waits) hfuel

/-- A loop whose buffer has room for eight bytes. -/
def eightWide : EventLoop := { bufferSize := 8, bufferSize_pos := Nat.succ_pos 7 }

/-- Of 27 bytes in memory the last three come in a piece of their own, and a reader that gives three
bytes and then one is not asked to fill the buffer. -/
theorem drained_in_four_pieces :
    let bytes := (List.range 27).map UInt8.ofNat
    let called := eightWide.run (Pipe.blocking Pipe.readMemory) 5 bytes
    let script : Pipe.Script := ⟨[.data [1, 2, 3], .data [4], .data []], []⟩
    let other := eightWide.run (Pipe.blocking Pipe.Script.read) 3 script
    eightWide.state = .running ∧ (slices 8 bytes).length < 5 ∧
      (chunks called.1.events).map List.length = [8, 8, 8, 3] ∧
      (chunks called.1.events).flatten = bytes ∧ called.2.state = .done ∧
      (Pipe.blocking Pipe.Script.read).HandsOut 8 script [[1, 2, 3], [4]] ∧
      chunks other.1.events = [[1, 2, 3], [4]] ∧ other.2.state = .done := by
  intro bytes called script other
  obtain ⟨hmemory, hslices, hreaders, -⟩ := drained_in_pieces eightWide rfl
  have hfuel : (slices 8 bytes).length < 5 := by decide
  have hcalled : Drained called (slices 8 bytes) := hmemory bytes 5 hfuel
  have hpieces : [] ∉ [[1, 2, 3], ([4] : List UInt8)] := by decide
  have hhands : (Pipe.blocking Pipe.Script.read).HandsOut 8 script [[1, 2, 3], [4]] :=
    Pipe.handsOut_script (Nat.succ_pos 7) hpieces []
  obtain ⟨hother, -⟩ := hreaders _ Pipe.Script.read script _ hhands [1, 2, 3, 4] 3 rfl (by decide)
  refine ⟨rfl, hfuel, ?_, ?_, hcalled.state_eq, hhands, hother.chunks_eq, hother.state_eq⟩
  · rw [hcalled.chunks_eq]
    decide
  · rw [hcalled.chunks_eq]
    exact (hslices bytes).1

end EventLoop

end LintCore
