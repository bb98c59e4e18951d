/-!
# The buffer of a stream

A stream reads into a buffer of cells, and no read takes more bytes than there is room
behind the bytes already there. Bytes that are taken leave free cells in front. If the
room does not suffice, the remaining bytes are moved to the front, as long as no more of
them have to be moved than cells are free there, or else the buffer is made at least
twice as large.
-/

namespace DebugLink.Wire

/-- How the cells of a buffer are used. -/
structure Buffer where
  /-- How many free cells lie in front of the bytes. -/
  start : Nat := 0
  /-- How many bytes there are. -/
  size : Nat := 0
  /-- How many cells there are. -/
  capacity : Nat := 8192
  deriving DecidableEq, Repr

namespace Buffer

/-- How many free cells lie behind the bytes. -/
def room (buffer : Buffer) : Nat := buffer.capacity - (buffer.start + buffer.size)

/-- Put bytes behind those that are there. -/
def put (buffer : Buffer) (count : Nat) : Buffer := { buffer with size := buffer.size + count }

/-- Take bytes from the front, so that `size` of them remain. -/
def shrinkTo (buffer : Buffer) (size : Nat) : Buffer :=
  { buffer with start := buffer.start + (buffer.size - size), size }

/-- Make room for `count` bytes. -/
def reserve (buffer : Buffer) (count : Nat) : Buffer :=
  if count ≤ buffer.room then buffer
  else if buffer.size ≤ buffer.start ∧ buffer.size + count ≤ buffer.capacity then
    { buffer with start := 0 }
  else
    { buffer with
      capacity := max (2 * buffer.capacity) (buffer.start + buffer.size + count) }

/-- There is room for what has been reserved. -/
theorem le_room_reserve (buffer : Buffer) (count : Nat) : count ≤ (buffer.reserve count).room := by
  unfold reserve
  split
  · assumption
  · split <;> simp only [room] <;> omega

end Buffer

end DebugLink.Wire
