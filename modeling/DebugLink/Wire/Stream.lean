import DebugLink.Wire.Buffer
import DebugLink.Wire.Reader

/-!
# A source as a stream of frames

The frames of a whole source, in order. What has been read is decoded before more is
read, and a read takes no more of an arrival than the buffer has room for, so that a line
that is not complete may turn out too long before its end has arrived. The first fault is
the last item, and an incomplete rest at the end is dropped.
-/

namespace DebugLink.Wire.Stream

/-- The items that a source yields from a decoder on, whose bytes lie in the given buffer. That
there is nothing to read yet is passed over. -/
def itemsFrom (decoder : Decoder) (buffer : Buffer) : List Arrival → List Item
  | [] => []
  | .data [] :: _ => []
  | .data (b :: bytes) :: source =>
    let roomy := buffer.reserve decoder.missing
    let chunk := (b :: bytes).take roomy.room
    let (items, next) := decoder.push chunk
    if next.failed then items
    else
      items ++ itemsFrom next ((roomy.put chunk.length).shrinkTo next.buffered)
        (Arrival.afterRead roomy.room (b :: bytes) source)
  | .fault fault :: source =>
    if fault.kind = .wouldBlock then itemsFrom decoder buffer source else [.error (.io fault)]
termination_by source => Arrival.totalSize source
decreasing_by
  · exact Arrival.totalSize_afterRead_lt
      (Nat.lt_of_lt_of_le decoder.missing_pos (buffer.le_room_reserve _)) ..
  · simp only [Arrival.totalSize, Arrival.size]
    omega

/-- The items that a source yields. -/
def items (limit : Nat) (source : List Arrival) : List Item := itemsFrom { limit } {} source

end DebugLink.Wire.Stream
