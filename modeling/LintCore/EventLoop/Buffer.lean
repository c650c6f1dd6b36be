/-!
The buffer of an event loop. It has one size for good, and nothing clears it between reads: a read
writes over its front, and what lies behind stays from earlier reads. `front_fill` says that the
front, as long as the read, is what the read gave, whatever was there before.
-/

set_option autoImplicit false
set_option relaxedAutoImplicit false

namespace LintCore.EventLoop

structure Buffer (size : Nat) where
  bytes : List UInt8
  length_bytes : bytes.length = size

namespace Buffer

variable {size : Nat}

def zeros (size : Nat) : Buffer size := ⟨List.replicate size 0, List.length_replicate⟩

/-- After a read: its bytes come first, and the old ones behind them. -/
def fill (buffer : Buffer size) (chunk : List UInt8) : Buffer size where
  bytes := chunk.take size ++ buffer.bytes.drop chunk.length
  length_bytes := by
    have hlength := buffer.length_bytes
    simp only [List.length_append, List.length_take, List.length_drop]
    omega

def front (buffer : Buffer size) (count : Nat) : List UInt8 := buffer.bytes.take count

theorem front_fill (buffer : Buffer size) {chunk : List UInt8} (hchunk : chunk.length ≤ size) :
    (buffer.fill chunk).front chunk.length = chunk := by
  change (chunk.take size ++ buffer.bytes.drop chunk.length).take chunk.length = chunk
  rw [List.take_of_length_le hchunk, List.take_left]

end Buffer

end LintCore.EventLoop
