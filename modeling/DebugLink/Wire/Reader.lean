import DebugLink.Wire.Decoder

/-!
# Reading frames from a source

A source is a sequence of arrivals: data, errors, and ends of the stream. A poll takes
a frame that is already there, or else reads on until one is complete. Errors that only
say that there is nothing to read, and interruptions, are passed over; at an end of the
stream the incomplete rest is dropped.
-/

namespace DebugLink.Wire

/-- What a source has ready for a reader. -/
inductive Arrival where
  /-- Bytes; none at all are the end of the stream. -/
  | data (bytes : Bytes)
  /-- An error in place of bytes. -/
  | fault (fault : IoFault)
  deriving DecidableEq

namespace Arrival

/-- A poll reads no more than this many bytes at once; the rest stays in front. -/
def chunkSize : Nat := 8192

/-- How much reading an arrival takes at most. -/
def size : Arrival → Nat
  | data bytes => bytes.length + 1
  | fault _ => 1

/-- How much reading a source takes at most. -/
def totalSize : List Arrival → Nat
  | [] => 0
  | arrival :: rest => arrival.size + totalSize rest

/-- What a source holds after a read of at most `count` bytes from the given data. -/
def afterRead (count : Nat) (bytes : Bytes) (source : List Arrival) : List Arrival :=
  let rest := bytes.drop count
  if rest.isEmpty then source else .data rest :: source

/-- A read leaves less to read. -/
theorem totalSize_afterRead_lt {count : Nat} (h : 0 < count) (b : UInt8) (bytes : Bytes)
    (source : List Arrival) :
    totalSize (afterRead count (b :: bytes) source) < totalSize (.data (b :: bytes) :: source) := by
  have hrest : (List.drop count (b :: bytes)).length ≤ bytes.length := by
    rw [List.length_drop, List.length_cons]
    omega
  simp only [afterRead]
  split <;> simp only [totalSize, size, List.length_cons] <;> omega

end Arrival

/-- What a poll comes to. -/
inductive Poll where
  /-- A frame. -/
  | frame (frame : Frame)
  /-- The end of the stream. -/
  | closed
  /-- Nothing is complete, and the source has nothing ready. -/
  | idle
  /-- A fault of the stream or of its content. -/
  | fault (fault : Fault)
  deriving DecidableEq

/-- A decoder with the source that feeds it. -/
structure Reader where
  /-- What has not been read yet. -/
  source : List Arrival
  /-- What has been read. -/
  decoder : Decoder
  deriving DecidableEq

namespace Reader

/-- What the bytes already read come to, if that is anything. -/
def buffered? (reader : Reader) : Option Poll × Reader :=
  match reader.decoder.next with
  | (none, decoder) => (none, { reader with decoder })
  | (some (.ok frame), decoder) => (some (.frame frame), { reader with decoder })
  | (some (.error fault), decoder) => (some (.fault fault), { reader with decoder })

/-- Poll a source from a decoder on. -/
def pollFrom (decoder : Decoder) (source : List Arrival) : Poll × Reader :=
  match decoder.next with
  | (some (.ok frame), decoder) => (.frame frame, ⟨source, decoder⟩)
  | (some (.error fault), decoder) => (.fault fault, ⟨source, decoder⟩)
  | (none, decoder) =>
    match source with
    | [] => (.idle, ⟨[], decoder⟩)
    | .fault fault :: source =>
      if fault.kind.isIdle || fault.kind == .interrupted then pollFrom decoder source
      else (.fault (.io fault), ⟨source, decoder⟩)
    | .data [] :: source => (.closed, ⟨source, decoder.discard⟩)
    | .data (b :: bytes) :: source =>
      pollFrom (decoder.extend ((b :: bytes).take Arrival.chunkSize))
        (Arrival.afterRead Arrival.chunkSize (b :: bytes) source)
termination_by Arrival.totalSize source
decreasing_by
  · simp only [Arrival.totalSize, Arrival.size]
    omega
  · exact Arrival.totalSize_afterRead_lt (by decide) ..

/-- Poll: a frame that is already there, or what reading on comes to. -/
def poll (reader : Reader) : Poll × Reader := pollFrom reader.decoder reader.source

/-- Poll a source whose last arrival is followed by the end of the stream. -/
def pollFinite (reader : Reader) : Poll × Reader :=
  match reader.poll with
  | (.idle, reader) => (.closed, { reader with decoder := reader.decoder.discard })
  | result => result

/-- Poll without reading: what is not there yet is not waited for. -/
def pollNow (reader : Reader) : Poll × Reader :=
  match reader.buffered? with
  | (some poll, reader) => (poll, reader)
  | (none, reader) => (.idle, reader)

end Reader

end DebugLink.Wire
