import DebugLink.Wire.Codec

/-!
# Decoding a stream piece by piece

A decoder keeps the bytes that no frame has taken yet. Bytes are appended in pieces
of any size, and frames are taken one at a time. A fault is told once; after it the
decoder yields nothing more, and what is appended stays where it is.
-/

namespace DebugLink.Wire

/-- One thing that a stream yields: a frame, or the fault that ends its frames. -/
abbrev Item := Except Fault Frame

/-- A decoder between two calls. -/
structure Decoder where
  /-- The largest payload that is allowed. -/
  limit : Nat := defaultLimit
  /-- The bytes that no frame has taken yet. -/
  buffer : Bytes := []
  /-- Whether a fault has been told. -/
  failed : Bool := false
  deriving DecidableEq

namespace Decoder

/-- Append bytes without decoding anything. -/
def extend (decoder : Decoder) (bytes : Bytes) : Decoder :=
  { decoder with buffer := decoder.buffer ++ bytes }

/-- The next item that the buffered bytes hold. -/
def next (decoder : Decoder) : Option Item × Decoder :=
  if decoder.failed then (none, decoder)
  else
    match decode decoder.limit decoder.buffer with
    | .needMore _ => (none, decoder)
    | .frame frame rest => (some (.ok frame), { decoder with buffer := rest })
    | .fault fault => (some (.error fault), { decoder with failed := true })

/-- At most `count` items of those that the buffered bytes hold. -/
def take (decoder : Decoder) : (count : Nat) → List Item × Decoder
  | 0 => ([], decoder)
  | count + 1 =>
    match decoder.next with
    | (none, decoder) => ([], decoder)
    | (some item, decoder) =>
      let (items, decoder) := decoder.take count
      (item :: items, decoder)

/-- All items that the buffered bytes hold. Each frame takes a byte at least, and a fault is
the last item, so there are no more than the bound given here. -/
def drain (decoder : Decoder) : List Item × Decoder := decoder.take (decoder.buffer.length + 1)

/-- Append bytes and take all items. -/
def push (decoder : Decoder) (bytes : Bytes) : List Item × Decoder :=
  (decoder.extend bytes).drain

/-- The number of bytes that no frame has taken yet. -/
def buffered (decoder : Decoder) : Nat := decoder.buffer.length

/-- How many more bytes the next item needs, one at least. -/
def missing (decoder : Decoder) : Nat :=
  match decode decoder.limit decoder.buffer with
  | .needMore count => max 1 count
  | _ => 1

/-- Forget the bytes that no frame has taken yet. -/
def discard (decoder : Decoder) : Decoder := { decoder with buffer := [] }

/-- At least one byte is missing. -/
theorem missing_pos (decoder : Decoder) : 0 < decoder.missing := by
  unfold missing
  split <;> omega

/-- After a fault there is no further item. -/
theorem next_of_failed {decoder : Decoder} (h : decoder.failed = true) :
    decoder.next = (none, decoder) := by
  simp [next, h]

end Decoder

end DebugLink.Wire
