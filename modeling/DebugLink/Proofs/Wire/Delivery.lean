import DebugLink.Proofs.Wire.Encoding
import DebugLink.Proofs.Wire.Writing

/-!
# What a writer puts on the wire

A writer uses one buffer for all messages. Each send begins with an empty one, so nothing that a
failed send left there is written by a later one, and what is on the wire is what each send put
there, one behind the other: all bytes of the message, none of them because it is too large, or some
but not all of them because a write failed. Only the sends that succeeded put whole messages there.
-/

namespace DebugLink.Wire

open Text

/-- A message is written as its bytes, or is too large. -/
theorem encode_cases (limit : Nat) (message : Message) :
    (encode limit message = .ok (messageBytes message) ∧
      (Utf8.encode message.payload).length ≤ limit) ∨
    (encode limit message = .error (.tooLarge (Utf8.encode message.payload).length limit) ∧
      limit < (Utf8.encode message.payload).length) := by
  by_cases h : limit < (Utf8.encode message.payload).length
  · exact .inr ⟨if_pos h, h⟩
  · exact .inl ⟨if_neg h, Nat.le_of_not_lt h⟩

/-- What the send of a message puts on the wire, by its result. -/
inductive Puts (limit : Nat) (message : Message) : Except Fault Unit → Bytes → Prop where
  /-- A send that succeeds puts the whole message there. -/
  | all : (Utf8.encode message.payload).length ≤ limit →
      Puts limit message (.ok ()) (messageBytes message)
  /-- A message that is too large leaves no byte there. -/
  | none : limit < (Utf8.encode message.payload).length →
      Puts limit message (.error (.tooLarge (Utf8.encode message.payload).length limit)) []
  /-- A write that fails leaves a part of the message there, of which at least one byte is
  missing. -/
  | part (fault : IoFault) (bytes rest : Bytes) :
      (Utf8.encode message.payload).length ≤ limit → rest ≠ [] →
      bytes ++ rest = messageBytes message → Puts limit message (.error (.io fault)) bytes

namespace Writer

/-- What was left in the buffer makes no difference to a send: it is a send to the sink. -/
theorem send_eq (writer : Writer) (message : Message) :
    ∃ buffer, writer.send message =
      ((writer.sink.send writer.limit message).1,
        ⟨writer.limit, buffer, (writer.sink.send writer.limit message).2⟩) := by
  rw [send, encode, Sink.send]
  dsimp only
  cases Wire.encode writer.limit message with
  | error fault => exact ⟨[], rfl⟩
  | ok bytes =>
    refine ⟨bytes, ?_⟩
    dsimp only [writeBuffer]
    rw [List.nil_append]
    rcases writer.sink.write bytes with ⟨_ | _, sink⟩ <;> rfl

/-- A send keeps the limit. -/
theorem limit_send (writer : Writer) (message : Message) :
    (writer.send message).2.limit = writer.limit := by
  obtain ⟨buffer, h⟩ := writer.send_eq message
  rw [h]

/-- The bytes that a send adds to those on the wire. -/
def added (writer : Writer) (message : Message) : Bytes :=
  (writer.send message).2.sink.accepted.drop writer.sink.accepted.length

/-- A send leaves the bytes on the wire as they are, and puts its own behind them. -/
theorem puts_added (writer : Writer) (message : Message) :
    (writer.send message).2.sink.accepted = writer.sink.accepted ++ writer.added message ∧
      Puts writer.limit message (writer.send message).1 (writer.added message) := by
  obtain ⟨buffer, hs⟩ := writer.send_eq message
  have hadded : ∀ result sink bytes, writer.sink.send writer.limit message = (result, sink) →
      sink.accepted = writer.sink.accepted ++ bytes → Puts writer.limit message result bytes →
      (writer.send message).2.sink.accepted = writer.sink.accepted ++ writer.added message ∧
        Puts writer.limit message (writer.send message).1 (writer.added message) := by
    intro result sink bytes hsend ha hp
    rw [added, hs, hsend, ha, List.drop_left]
    exact ⟨rfl, hp⟩
  rcases encode_cases writer.limit message with ⟨he, hl⟩ | ⟨he, hl⟩
  · rcases Sink.writeFrom_cases writer.sink.broken writer.sink.pieces writer.sink.script
      (messageBytes message) with ⟨next, hw, ha⟩ | ⟨fault, next, part, rest, hw, hb, hr, ha⟩
    · exact hadded (.ok ()) next _ (by simp only [Sink.send, he, Sink.write, hw]) ha (.all hl)
    · exact hadded (.error (.io fault)) next part (by simp only [Sink.send, he, Sink.write, hw]) ha
        (.part fault part rest hl hr hb.symm)
  · exact hadded _ writer.sink [] (by rw [Sink.send, he]) (List.append_nil _).symm (.none hl)

/-- A message with what its send came to. -/
structure Delivery where
  /-- The message. -/
  message : Message
  /-- The result of the send. -/
  result : Except Fault Unit
  /-- The bytes that the send added to those on the wire. -/
  bytes : Bytes

/-- What each send of several comes to, in order. -/
def deliveries (writer : Writer) : List Message → List Delivery
  | [] => []
  | message :: rest =>
    ⟨message, (writer.send message).1, writer.added message⟩ ::
      (writer.send message).2.deliveries rest

/-- What a writer does for the messages that it is given. -/
structure Delivers (writer : Writer) (messages : List Message) : Prop where
  /-- Each message is sent once, in order. -/
  sends : (writer.deliveries messages).map Delivery.message = messages
  /-- The results are those of the sends. -/
  results : (writer.deliveries messages).map Delivery.result = (writer.sendAll messages).1
  /-- What is on the wire is what was there and what each send put there, in order. -/
  accepted : (writer.sendAll messages).2.sink.accepted =
    writer.sink.accepted ++ (writer.deliveries messages).flatMap Delivery.bytes
  /-- Each send puts the bytes of its own message there, as its result tells. -/
  puts : ∀ delivery ∈ writer.deliveries messages,
    Puts writer.limit delivery.message delivery.result delivery.bytes

/-- Whatever the limit, the answers of the sink and what is left in the buffer, a writer puts whole
messages, nothing, or parts of messages that failed on the wire, and nothing else. -/
theorem delivers (writer : Writer) (messages : List Message) : writer.Delivers messages := by
  induction messages generalizing writer with
  | nil => exact ⟨rfl, rfl, (List.append_nil _).symm, fun delivery h => absurd h List.not_mem_nil⟩
  | cons message rest ih =>
    obtain ⟨haccepted, hputs⟩ := writer.puts_added message
    obtain ⟨hsends, hresults, hrest, hall⟩ := ih (writer.send message).2
    refine ⟨congrArg (List.cons message) hsends,
      congrArg (List.cons (writer.send message).1) hresults, ?_, fun delivery hd => ?_⟩
    · change ((writer.send message).2.sendAll rest).2.sink.accepted = _
      rw [hrest, haccepted, List.append_assoc]
      rfl
    · rcases List.mem_cons.mp hd with rfl | hd
      · exact hputs
      · rw [limit_send] at hall
        exact hall delivery hd

end Writer

end DebugLink.Wire
