import DebugLink.Proofs.Wire.Chunking
import DebugLink.Proofs.Wire.Output

/-!
# Messages and output on one stream

Messages and lines of output may follow each other in any order, and output may stand directly
in front of a message. However their bytes are cut, a decoder yields exactly the messages and
the output, in their order, and in the end nothing is left over. No part of the bytes is
called too large on the way, so that the cut does not matter.
-/

namespace DebugLink.Wire

open Text

/-- What is put on a stream. -/
inductive Segment where
  /-- A message. -/
  | message (message : Message)
  /-- A line of output. -/
  | line (text : String)
  /-- Output directly in front of a message. -/
  | stray (text : String) (message : Message)

namespace Segment

/-- The bytes of what is put on a stream. -/
def encode (limit : Nat) : Segment → Except Fault Bytes
  | message m => Wire.encode limit m
  | line text => .ok (Utf8.encode text ++ [newline])
  | stray text m => (Wire.encode limit m).map (Utf8.encode text ++ ·)

/-- The frames that are expected. -/
def frames : Segment → List Frame
  | message m => [.message m]
  | line text => [.output (withoutReturn text)]
  | stray text m => [.output text, .message m]

/-- The messages may be written, and the output is plain. -/
def IsFaithful (limit : Nat) : Segment → Prop
  | message m => IsWritable limit m
  | line text => IsPlain limit text
  | stray text m => text ≠ "" ∧ IsPlain limit text ∧ IsWritable limit m

end Segment

/-- The bytes of all that is put on a stream. -/
def encodeAll (limit : Nat) : List Segment → Except Fault Bytes
  | [] => .ok []
  | segment :: segments => do
    let bytes ← segment.encode limit
    let others ← encodeAll limit segments
    return bytes ++ others

/-! ## One frame -/

/-- A frame that is taken from the front of bytes as soon as it is known what is behind, and not
before. -/
structure Yields (limit : Nat) (bytes behind : Bytes) (frame : Frame) : Prop where
  /-- All bytes make up the frame. -/
  whole : ∀ rest, decode limit (bytes ++ (behind ++ rest)) = .frame frame (behind ++ rest)
  /-- A part of the bytes is not called too large. -/
  part : ∀ part more, more ≠ [] → part ++ more = bytes ++ behind →
    (decode limit part).isTooLarge = false

/-- The bytes of a message yield the message. -/
theorem yields_message {limit : Nat} {message : Message} (h : IsWritable limit message) :
    Yields limit (messageBytes message) [] (.message message) where
  whole rest := decode_messageBytes h rest
  part part more hm hp := decode_part_messageBytes h hm (by rw [hp, List.append_nil])

/-- A line yields output. -/
theorem yields_line {limit : Nat} {text : String} (h : IsPlain limit text) :
    Yields limit (Utf8.encode text ++ [newline]) [] (.output (withoutReturn text)) where
  whole rest := by
    rw [List.append_assoc]
    exact decode_line h rest
  part part more hm hp := by
    obtain ⟨front, last, rfl⟩ := (List.eq_nil_or_concat more).resolve_left hm
    rw [List.append_nil, List.concat_eq_append, ← List.append_assoc] at hp
    exact decode_part_of_isPlain h (List.append_inj' hp rfl).1.symm

/-- Text directly in front of a token yields output. -/
theorem yields_stray {limit : Nat} {text : String} (h : IsPlain limit text) (hne : text ≠ "")
    (word : Word) : Yields limit (Utf8.encode text) (tokenBytes word) (.output text) where
  whole rest := decode_stray h hne word rest
  part part more hm hp := by
    rcases List.append_eq_append_iff.mp hp with ⟨others, ht, -⟩ | ⟨begun, rfl, hb⟩
    · exact decode_part_of_isPlain h ht
    · by_cases hbegun : begun = []
      · rw [hbegun, List.append_nil]
        exact decode_part_of_isPlain h (List.append_nil _).symm
      · rw [decode_stray_part h hne hbegun hm hb.symm]
        rfl

/-! ## All frames -/

/-- Bytes that are decoded to frames without a rest, and of which no part is called too large. -/
structure Streams (limit : Nat) (bytes : Bytes) (frames : List Frame) : Prop where
  /-- All bytes make up the frames. -/
  whole : Decoder.drain { limit, buffer := bytes } = (frames.map .ok, { limit })
  /-- A part of the bytes is not called too large. -/
  part : ∀ part more, part ++ more = bytes →
    NoneTooLarge (Decoder.drain { limit, buffer := part }).1

/-- No bytes make up no frames. -/
theorem streams_nil (limit : Nat) : Streams limit [] [] where
  whole := rfl
  part part more hp := by
    obtain ⟨rfl, -⟩ := List.append_eq_nil_iff.mp hp
    exact fun _ hi => absurd hi List.not_mem_nil

/-- The next item of a decoder whose bytes start with a frame. -/
theorem next_of_frame {limit : Nat} {bytes rest : Bytes} {frame : Frame}
    (h : decode limit bytes = .frame frame rest) :
    Decoder.next { limit, buffer := bytes } = (some (.ok frame), { limit, buffer := rest }) := by
  simp only [Decoder.next, h, Bool.false_eq_true, if_false]

/-- A frame in front of the bytes of frames. A part in which the frame is found early is followed
by a part of the other bytes, because more bytes do not change the frame. -/
theorem streams_cons {limit : Nat} {bytes behind rest : Bytes} {frame : Frame}
    {frames : List Frame} (hy : Yields limit bytes behind frame)
    (hs : Streams limit (behind ++ rest) frames) :
    Streams limit (bytes ++ (behind ++ rest)) (frame :: frames) where
  whole := by
    rw [Decoder.drain_of_next_some (next_of_frame (hy.whole rest)), hs.whole]
    rfl
  part part more hp := by
    have hlarge : (decode limit part).isTooLarge = false := by
      rw [← List.append_assoc] at hp
      rcases List.append_eq_append_iff.mp hp with ⟨others, hb, -⟩ | ⟨front, rfl, -⟩
      · by_cases ho : others = []
        · have hw := hy.whole []
          rw [List.append_nil, hb, ho, List.append_nil] at hw
          rw [hw]
          rfl
        · exact hy.part part others ho hb.symm
      · rw [List.append_assoc, hy.whole]
        rfl
    cases hd : decode limit part with
    | needMore count =>
      have hn : Decoder.next { limit, buffer := part } = (none, { limit, buffer := part }) := by
        simp only [Decoder.next, hd, Bool.false_eq_true, if_false]
      rw [Decoder.drain_of_next_none hn]
      exact fun _ hi => absurd hi List.not_mem_nil
    | fault fault =>
      have hn : Decoder.next { limit, buffer := part } =
          (some (.error fault), { limit, buffer := part, failed := true }) := by
        simp only [Decoder.next, hd, Bool.false_eq_true, if_false]
      have hf : Item.isTooLarge (.error fault) = false := by
        rw [hd] at hlarge
        cases fault <;> first | rfl | exact hlarge
      rw [Decoder.drain_of_next_some hn, Decoder.drain_of_next_none (Decoder.next_of_failed rfl)]
      exact List.forall_mem_singleton.mpr (by simp [hf])
    | frame found left =>
      have ha := decode_append (by rw [hd]; rfl) more
      rw [hp, hy.whole, hd, Decoded.append, Decoded.frame.injEq] at ha
      rw [Decoder.drain_of_next_some (next_of_frame hd)]
      exact List.forall_mem_cons.mpr ⟨Bool.false_ne_true, hs.part left more ha.2.symm⟩

/-- The bytes of a faithful segment, with those of other segments behind them. -/
theorem streams_segment {limit : Nat} {segment : Segment} (h : segment.IsFaithful limit)
    {others : Bytes} {frames : List Frame} (hs : Streams limit others frames) :
    ∃ bytes, segment.encode limit = .ok bytes ∧
      Streams limit (bytes ++ others) (segment.frames ++ frames) := by
  cases segment with
  | message m => exact ⟨_, encode_of_isWritable h, streams_cons (yields_message h) hs⟩
  | line text => exact ⟨_, rfl, streams_cons (yields_line h) hs⟩
  | stray text m =>
    obtain ⟨hne, ht, hm⟩ := h
    refine ⟨Utf8.encode text ++ messageBytes m, ?_, ?_⟩
    · rw [Segment.encode, encode_of_isWritable hm]
      rfl
    · have hmessage := streams_cons (yields_message hm) hs
      simp only [messageBytes, List.append_assoc, List.nil_append] at hmessage ⊢
      exact streams_cons (yields_stray ht hne m.word) hmessage

/-- The bytes of faithful segments are decoded to their frames. -/
theorem streams_encodeAll {limit : Nat} {segments : List Segment}
    (h : ∀ segment ∈ segments, segment.IsFaithful limit) :
    ∃ bytes, encodeAll limit segments = .ok bytes ∧
      Streams limit bytes (segments.flatMap Segment.frames) := by
  induction segments with
  | nil => exact ⟨[], rfl, streams_nil limit⟩
  | cons segment segments ih =>
    obtain ⟨hf, hfs⟩ := List.forall_mem_cons.mp h
    obtain ⟨others, ho, hos⟩ := ih hfs
    obtain ⟨bytes, hb, hbs⟩ := streams_segment hf hos
    exact ⟨bytes ++ others, by rw [encodeAll, hb, ho]; rfl, hbs⟩

/-! ## Schedules -/

namespace Decoder

/-- No schedule finds something too large if no part of its bytes is called so. -/
theorem noneTooLarge_exhaust {calls : List Call} {decoder : Decoder}
    (h : ∀ part more, part ++ more = fedBytes calls →
      NoneTooLarge (decoder.extend part).drain.1) : NoneTooLarge (decoder.exhaust calls).1 := by
  induction calls generalizing decoder with
  | nil =>
    have hd := h [] [] rfl
    rw [extend, List.append_nil] at hd
    exact hd
  | cons call calls ih =>
    obtain ⟨count, hc⟩ := decoder.answer_eq_take call
    have hfirst := h call.bytes (fedBytes calls) (fedBytes_cons call calls).symm
    rw [drain_eq_take_append count] at hfirst
    obtain ⟨hitems, -⟩ := List.forall_mem_append.mp hfirst
    rw [exhaust_cons, hc]
    refine List.forall_mem_append.mpr ⟨hitems, ih fun part more hp => ?_⟩
    have hboth := h (call.bytes ++ part) more (by rw [fedBytes_cons, List.append_assoc, hp])
    rw [← extend_extend, drain_extend hitems] at hboth
    exact (List.forall_mem_append.mp hboth).2

/-- Messages and output that were put on a stream are read back, however the bytes are cut:
nothing else is yielded, and nothing is left over. -/
theorem exhaust_encodeAll {limit : Nat} {segments : List Segment}
    (h : ∀ segment ∈ segments, segment.IsFaithful limit) :
    ∃ bytes, encodeAll limit segments = .ok bytes ∧
      ∀ calls, fedBytes calls = bytes →
        (exhaust { limit } calls).1 = (segments.flatMap Segment.frames).map .ok ∧
          (exhaust { limit } calls).2.buffered = 0 := by
  obtain ⟨bytes, hb, hs⟩ := streams_encodeAll h
  refine ⟨bytes, hb, fun calls hcalls => ?_⟩
  have hnone : NoneTooLarge (exhaust { limit } calls).1 :=
    noneTooLarge_exhaust fun part more hp => hs.part part more (hp.trans hcalls)
  have hwhole : (extend { limit } (fedBytes calls)).drain =
      ((segments.flatMap Segment.frames).map .ok, { limit }) := by
    rw [hcalls]
    exact hs.whole
  rw [exhaust_eq_drain hnone, hwhole]
  exact ⟨rfl, rfl⟩

/-- Output that ends in half a token, a payload that looks like a token and a bare word. -/
theorem exhaust_encodeAll_half_token :
    let segments : List Segment :=
      [.stray "a>Li" ⟨.line, "12\x00\n>Exit<"⟩, .message ⟨.resume, ""⟩, .line "b\r"]
    (∀ segment ∈ segments, segment.IsFaithful 12) ∧
      ∃ bytes, encodeAll 12 segments = .ok bytes ∧
        ∀ calls, fedBytes calls = bytes →
          (exhaust { limit := 12 } calls).1 = (segments.flatMap Segment.frames).map .ok ∧
            (exhaust { limit := 12 } calls).2.buffered = 0 := by
  intro segments
  have hf : ∀ segment ∈ segments, segment.IsFaithful 12 := by
    have hline : IsWritable 12 ⟨.line, "12\x00\n>Exit<"⟩ := ⟨by decide, by decide⟩
    have hresume : IsWritable 12 ⟨.resume, ""⟩ := ⟨by decide, by decide⟩
    have hstray : IsPlain 12 "a>Li" := by decide
    have hlast : IsPlain 12 "b\r" := by decide
    simp only [segments, List.forall_mem_cons, Segment.IsFaithful]
    exact ⟨⟨by decide, hstray, hline⟩, hresume, hlast, by simp⟩
  exact ⟨hf, exhaust_encodeAll hf⟩

end Decoder

end DebugLink.Wire
