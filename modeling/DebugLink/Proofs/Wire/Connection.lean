import DebugLink.Wire.Pipe
import Mathlib.Data.List.Basic

/-!
# What comes through a connection in memory

Both sides write, read and drop their halves in any order. What was taken from a channel and what
is left in it are together what was written into it, in the order of the writes, however the chunks
were cut by reads. So a reader is told of the end, or that there is nothing yet, when it has taken
everything, and never before. The two directions have nothing to do with each other: each is
answered as if the other one were not used.
-/

namespace DebugLink.Wire

/-! ## Uses of a channel -/

/-- What is done with a half of a channel. -/
inductive Use where
  /-- The writing half writes a chunk. -/
  | write (bytes : Bytes)
  /-- The reading half reads at most so many bytes. -/
  | read (count : Nat)
  /-- The reading half looks at what can be read, and takes so many bytes of it. -/
  | peek (count : Nat)
  /-- The reading half is dropped. -/
  | dropReader
  /-- The writing half is dropped. -/
  | dropWriter
  deriving DecidableEq

/-- What a use comes to. -/
inductive Answer where
  /-- The half was dropped before. -/
  | gone
  /-- The half is dropped. -/
  | dropped
  /-- So many bytes are written, or the write fails. -/
  | wrote (result : Except IoFault Nat)
  /-- The bytes that are read or looked at, or why there are none. -/
  | got (result : Except IoFault Bytes)
  deriving DecidableEq

/-- A use with its answer. -/
abbrev Exchange := Use × Answer

namespace Exchange

/-- The bytes that an exchange puts into the channel. -/
def put : Exchange → Bytes
  | (.write bytes, .wrote (.ok count)) => bytes.take count
  | _ => []

/-- The bytes that an exchange takes from the channel. -/
def taken : Exchange → Bytes
  | (.read _, .got (.ok bytes)) => bytes
  | (.peek count, .got (.ok bytes)) => bytes.take count
  | _ => []

end Exchange

namespace Channel

/-- Use a half of a channel, if it is still there. -/
def use (channel : Channel) : Use → Answer × Channel
  | .write bytes =>
    if channel.hasWriter then ((channel.write bytes).map Answer.wrote id) else (.gone, channel)
  | .read count =>
    if channel.hasReader then ((channel.read count).map Answer.got id) else (.gone, channel)
  | .peek count =>
    if channel.hasReader then ((channel.peek count).map Answer.got id) else (.gone, channel)
  | .dropReader => if channel.hasReader then (.dropped, channel.dropReader) else (.gone, channel)
  | .dropWriter => if channel.hasWriter then (.dropped, channel.dropWriter) else (.gone, channel)

/-- Use a channel again and again. -/
def run (channel : Channel) (uses : List Use) : Channel :=
  uses.foldl (fun channel use => (channel.use use).2) channel

/-- Uses in order, with their answers. -/
def history (channel : Channel) : List Use → List Exchange
  | [] => []
  | use :: uses => (use, (channel.use use).1) :: (channel.use use).2.history uses

/-- The bytes that were written and not taken. -/
def unread (channel : Channel) : Bytes := channel.current ++ channel.waiting.flatten

/-- A channel whose next chunk may have been begun. -/
structure Begins (channel next : Channel) : Prop where
  /-- No byte is lost. -/
  unread : next.unread = channel.unread
  /-- The reading half stays. -/
  hasReader : next.hasReader = channel.hasReader
  /-- The writing half stays. -/
  hasWriter : next.hasWriter = channel.hasWriter
  /-- No chunk comes to wait. -/
  waiting : next.waiting ⊆ channel.waiting

/-- A look at what can be read gives the current chunk, or fails and changes nothing. -/
theorem available_cases (channel : Channel) :
    (∃ next, channel.available = (.ok next.current, next) ∧ channel.Begins next) ∨
      channel.available = (.error noData, channel) := by
  obtain ⟨current, waiting, hasReader, hasWriter⟩ := channel
  cases current with
  | cons b bytes => exact .inl ⟨_, rfl, rfl, rfl, rfl, List.Subset.refl waiting⟩
  | nil =>
    cases waiting with
    | cons chunk waiting =>
      exact .inl ⟨⟨chunk, waiting, hasReader, hasWriter⟩, rfl, rfl, rfl, rfl,
        List.subset_cons_self chunk waiting⟩
    | nil =>
      cases hasWriter with
      | true => exact .inr rfl
      | false => exact .inl ⟨_, rfl, rfl, rfl, rfl, List.Subset.refl []⟩

/-- The reads and looks of a reading half that is there take from the current chunk, or fail and
change nothing. -/
theorem use_reading_cases {channel : Channel} (h : channel.hasReader = true) (count : Nat) :
    (∃ next, channel.Begins next ∧ channel.available = (.ok next.current, next) ∧
      channel.use (.read count) = (.got (.ok (next.current.take count)), next.consume count) ∧
      channel.use (.peek count) = (.got (.ok next.current), next.consume count)) ∨
    (channel.available = (.error noData, channel) ∧
      channel.use (.read count) = (.got (.error noData), channel) ∧
      channel.use (.peek count) = (.got (.error noData), channel)) := by
  rcases channel.available_cases with ⟨next, ha, hb⟩ | ha
  · refine .inl ⟨next, hb, ha, ?_, ?_⟩
    · rw [Channel.use, if_pos h, Channel.read, ha]
      rfl
    · rw [Channel.use, if_pos h, peek, ha]
      rfl
  · refine .inr ⟨ha, ?_, ?_⟩
    · rw [Channel.use, if_pos h, Channel.read, ha]
      rfl
    · rw [Channel.use, if_pos h, peek, ha]
      rfl

/-- A read or a look takes a front of the current chunk, which may have been begun for it. It takes
nothing where it fails or the reading half is gone. -/
theorem use_reading_snd (channel : Channel) (use : Use)
    (hu : ∃ count, use = .read count ∨ use = .peek count) :
    ∃ begun taken, channel.Begins begun ∧ (channel.use use).2 = begun.consume taken ∧
      Exchange.taken (use, (channel.use use).1) = begun.current.take taken := by
  -- Where nothing is taken, the channel is the one that was begun.
  have hsame : channel.Begins channel := ⟨rfl, rfl, rfl, List.Subset.refl channel.waiting⟩
  obtain ⟨count, hu⟩ := hu
  by_cases hr : channel.hasReader = true
  · rcases use_reading_cases hr count with ⟨next, hb, -, hread, hpeek⟩ | ⟨-, hread, hpeek⟩
    · refine ⟨next, count, hb, ?_⟩
      rcases hu with rfl | rfl
      · rw [hread]
        exact ⟨rfl, rfl⟩
      · rw [hpeek]
        exact ⟨rfl, rfl⟩
    · refine ⟨channel, 0, hsame, ?_⟩
      rcases hu with rfl | rfl
      · rw [hread]
        exact ⟨rfl, rfl⟩
      · rw [hpeek]
        exact ⟨rfl, rfl⟩
  · refine ⟨channel, 0, hsame, ?_⟩
    rcases hu with rfl | rfl <;> rw [Channel.use, if_neg hr] <;> exact ⟨rfl, rfl⟩

/-- No use loses, repeats or reorders bytes: what it takes and what it leaves is what was left
before and what it puts. -/
theorem taken_append_unread (channel : Channel) (use : Use) :
    Exchange.taken (use, (channel.use use).1) ++ (channel.use use).2.unread =
      channel.unread ++ Exchange.put (use, (channel.use use).1) := by
  have hsame : channel.unread = channel.unread ++ [] := (List.append_nil _).symm
  have hreading := channel.use_reading_snd use
  cases use with
  | write bytes =>
    rw [Channel.use, write]
    split
    · split
      · simp [Exchange.taken, Exchange.put, unread, Prod.map]
      · exact hsame
    · exact hsame
  | read count | peek count =>
    obtain ⟨begun, taken, hb, hnext, htaken⟩ := hreading ⟨count, by simp⟩
    rw [hnext, htaken, unread, consume, ← List.append_assoc, List.take_append_drop]
    exact hb.unread.trans hsame
  | dropReader | dropWriter => rw [Channel.use]; split <;> exact hsame

/-- Whatever a channel is used for, what was taken from it and what is left in it are what was in it
and what was put into it. -/
theorem taken_append_unread_run (channel : Channel) (uses : List Use) :
    (channel.history uses).flatMap Exchange.taken ++ (channel.run uses).unread =
      channel.unread ++ (channel.history uses).flatMap Exchange.put := by
  induction uses generalizing channel with
  | nil => exact (List.append_nil _).symm
  | cons use uses ih =>
    rw [history, run, List.foldl_cons, List.flatMap_cons, List.flatMap_cons, List.append_assoc]
    change _ ++ (_ ++ ((channel.use use).2.run uses).unread) = _
    rw [ih, ← List.append_assoc, taken_append_unread, List.append_assoc]

/-! ## What stays -/

/-- How a channel can be after a use. -/
def Follows (channel : Channel) : Use → Channel → Prop
  | .write bytes, next => next = channel ∨
      next = { channel with waiting := channel.waiting ++ [bytes] }
  | .read _, next | .peek _, next => ∃ begun count, channel.Begins begun ∧
      next = begun.consume count
  | .dropReader, next => next = channel.dropReader
  | .dropWriter, next => next = channel.dropWriter

/-- A use changes the queue or a half of the channel, and nothing else. -/
theorem follows_use (channel : Channel) (use : Use) :
    channel.Follows use (channel.use use).2 := by
  have hreading := channel.use_reading_snd use
  cases use with
  | write bytes =>
    rw [Channel.use, write]
    split
    · split
      · exact .inr rfl
      · exact .inl rfl
    · exact .inl rfl
  | read count | peek count =>
    obtain ⟨begun, taken, hb, hnext, -⟩ := hreading ⟨count, by simp⟩
    exact ⟨begun, taken, hb, hnext⟩
  | dropReader =>
    rw [Channel.use]
    split
    · rfl
    · next hr =>
      rw [Bool.not_eq_true] at hr
      rw [Follows, dropReader, ← hr]
  | dropWriter =>
    rw [Channel.use]
    split
    · rfl
    · next hw =>
      rw [Bool.not_eq_true] at hw
      rw [Follows, dropWriter, ← hw]

/-- The reading half stays until it is dropped. -/
theorem hasReader_use (channel : Channel) (use : Use) :
    (channel.use use).2.hasReader = (channel.hasReader && decide (use ≠ .dropReader)) := by
  have h := channel.follows_use use
  cases use with
  | write bytes => rcases h with h | h <;> simp [h]
  | read count | peek count =>
    obtain ⟨begun, count, hb, h⟩ := h
    simp [h, consume, hb.hasReader]
  | dropReader | dropWriter => simp [show _ = _ from h, dropReader, dropWriter]

/-- The writing half stays until it is dropped. -/
theorem hasWriter_use (channel : Channel) (use : Use) :
    (channel.use use).2.hasWriter = (channel.hasWriter && decide (use ≠ .dropWriter)) := by
  have h := channel.follows_use use
  cases use with
  | write bytes => rcases h with h | h <;> simp [h]
  | read count | peek count =>
    obtain ⟨begun, count, hb, h⟩ := h
    simp [h, consume, hb.hasWriter]
  | dropReader | dropWriter => simp [show _ = _ from h, dropReader, dropWriter]

/-- No empty chunk comes to wait unless one is written. -/
theorem waiting_ne_nil_use {channel : Channel} {use : Use}
    (hne : ∀ chunk ∈ channel.waiting, chunk ≠ []) (hu : use ≠ .write []) :
    ∀ chunk ∈ (channel.use use).2.waiting, chunk ≠ [] := by
  have h := channel.follows_use use
  cases use with
  | write bytes =>
    rcases h with h | h
    · rwa [h]
    · rw [h]
      intro chunk hc
      rcases List.mem_append.mp hc with hc | hc
      · exact hne chunk hc
      · rw [List.mem_singleton] at hc
        rintro rfl
        exact hu (by rw [hc])
  | read count | peek count =>
    obtain ⟨begun, count, hb, h⟩ := h
    rw [h]
    exact fun chunk hc => hne chunk (hb.waiting hc)
  | dropReader | dropWriter => rwa [show _ = _ from h]

/-- After any uses, the reading half is there if it was and none of them dropped it. -/
theorem hasReader_run (channel : Channel) (uses : List Use) :
    (channel.run uses).hasReader = (channel.hasReader && decide (.dropReader ∉ uses)) := by
  induction uses generalizing channel with
  | nil => simp [run]
  | cons use uses ih =>
    change ((channel.use use).2.run uses).hasReader = _
    rw [ih, hasReader_use]
    by_cases hu : use = .dropReader
    · simp [hu]
    · simp [hu, Ne.symm hu]

/-- After any uses, the writing half is there if it was and none of them dropped it. -/
theorem hasWriter_run (channel : Channel) (uses : List Use) :
    (channel.run uses).hasWriter = (channel.hasWriter && decide (.dropWriter ∉ uses)) := by
  induction uses generalizing channel with
  | nil => simp [run]
  | cons use uses ih =>
    change ((channel.use use).2.run uses).hasWriter = _
    rw [ih, hasWriter_use]
    by_cases hu : use = .dropWriter
    · simp [hu]
    · simp [hu, Ne.symm hu]

/-- No empty chunk waits as long as none is written. -/
theorem waiting_ne_nil_run {channel : Channel} {uses : List Use}
    (hne : ∀ chunk ∈ channel.waiting, chunk ≠ []) (hu : .write [] ∉ uses) :
    ∀ chunk ∈ (channel.run uses).waiting, chunk ≠ [] := by
  induction uses generalizing channel with
  | nil => exact hne
  | cons use uses ih =>
    rw [List.mem_cons, not_or] at hu
    exact ih (waiting_ne_nil_use hne (Ne.symm hu.1)) hu.2

/-! ## What a reader is told -/

/-- Everything is read: there is nothing yet, or never again. -/
theorem available_of_unread_eq_nil {channel : Channel}
    (hne : ∀ chunk ∈ channel.waiting, chunk ≠ []) (hu : channel.unread = []) :
    channel.available.1 = if channel.hasWriter then .error noData else .ok [] := by
  obtain ⟨current, waiting, hasReader, hasWriter⟩ := channel
  obtain ⟨rfl, hw⟩ := List.append_eq_nil_iff.mp hu
  cases waiting with
  | nil => rfl
  | cons chunk waiting =>
    exact absurd (List.flatten_eq_nil_iff.mp hw chunk (List.mem_cons_self ..))
      (hne chunk (List.mem_cons_self ..))

/-- Something is left: some of it can be read. -/
theorem available_of_unread_ne_nil {channel : Channel}
    (hne : ∀ chunk ∈ channel.waiting, chunk ≠ []) (hu : channel.unread ≠ []) :
    ∃ b bytes, channel.available.1 = .ok (b :: bytes) := by
  obtain ⟨current, waiting, hasReader, hasWriter⟩ := channel
  cases current with
  | cons b bytes => exact ⟨b, bytes, rfl⟩
  | nil =>
    cases waiting with
    | nil => exact absurd rfl hu
    | cons chunk waiting =>
      obtain ⟨b, bytes, rfl⟩ := List.exists_cons_of_ne_nil (hne chunk (List.mem_cons_self ..))
      exact ⟨b, bytes, rfl⟩

/-- Whether an answer tells that nothing is left to read, that nothing is left yet, or gives some of
what is left. -/
structure Tells (answer : Answer) (drained ended : Prop) : Prop where
  /-- No bytes mean that everything is read and that nothing more can come. -/
  ending : answer = .got (.ok []) ↔ drained ∧ ended
  /-- It fails when everything is read and more can come. -/
  waiting : answer = .got (.error noData) ↔ drained ∧ ¬ ended
  /-- Otherwise there is at least one byte. -/
  some : ¬ drained → ∃ b bytes, answer = .got (.ok (b :: bytes))

/-- A read or a look answers with what is available, or with a front of it. -/
theorem use_reading_fst {channel : Channel} (h : channel.hasReader = true) (count : Nat) :
    (channel.use (.read count)).1 = .got (channel.available.1.map (·.take count)) ∧
      (channel.use (.peek count)).1 = .got channel.available.1 := by
  rcases use_reading_cases h count with ⟨next, -, ha, hread, hpeek⟩ | ⟨ha, hread, hpeek⟩ <;>
    rw [hread, hpeek, ha] <;> exact ⟨rfl, rfl⟩

/-- A read of at least one byte, and a look, tell how far the channel is read. -/
theorem tells_use {channel : Channel} {use : Use} (hr : channel.hasReader = true)
    (hne : ∀ chunk ∈ channel.waiting, chunk ≠ [])
    (hu : (∃ count, use = .read (count + 1)) ∨ ∃ count, use = .peek count) :
    Tells (channel.use use).1 (channel.unread = []) (channel.hasWriter = false) := by
  obtain ⟨front, hnil, hcons, hf⟩ : ∃ front : Bytes → Bytes, front [] = [] ∧
      (∀ b bytes, ∃ rest, front (b :: bytes) = b :: rest) ∧
        (channel.use use).1 = .got (channel.available.1.map front) := by
    rcases hu with ⟨count, rfl⟩ | ⟨count, rfl⟩
    · exact ⟨List.take (count + 1), rfl, fun b bytes => ⟨bytes.take count, rfl⟩,
        (use_reading_fst hr _).1⟩
    · refine ⟨id, rfl, fun b bytes => ⟨bytes, rfl⟩, ?_⟩
      rw [(use_reading_fst hr count).2]
      cases channel.available.1 <;> rfl
  rw [hf]
  by_cases hd : channel.unread = []
  · rw [available_of_unread_eq_nil hne hd]
    cases channel.hasWriter <;>
      exact ⟨by simp [Except.map, hnil, hd], by simp [Except.map, hd], fun h => absurd hd h⟩
  · obtain ⟨b, bytes, ha⟩ := available_of_unread_ne_nil hne hd
    obtain ⟨rest, hb⟩ := hcons b bytes
    rw [ha]
    exact ⟨by simp [Except.map, hb, hd], by simp [Except.map, hd],
      fun _ => ⟨b, rest, by rw [Except.map, hb]⟩⟩

end Channel

/-! ## Both directions -/

/-- Something that a side does with one of its halves. -/
structure Operation where
  /-- The side. -/
  side : Side
  /-- What it does. -/
  use : Use
  deriving DecidableEq

/-- The side that reads the channel of an operation. -/
def Operation.reader (operation : Operation) : Side :=
  match operation.use with
  | .write _ | .dropWriter => operation.side.other
  | .read _ | .peek _ | .dropReader => operation.side

namespace Pipe

/-- Perform an operation, if the half is still there. -/
def perform (pipe : Pipe) (operation : Operation) : Answer × Pipe :=
  let side := operation.side
  match operation.use with
  | .write bytes =>
    if (pipe.outbound side).hasWriter then (pipe.write side bytes).map Answer.wrote id
    else (.gone, pipe)
  | .read count =>
    if (pipe.inbound side).hasReader then (pipe.read side count).map Answer.got id
    else (.gone, pipe)
  | .peek count =>
    if (pipe.inbound side).hasReader then (pipe.peek side count).map Answer.got id
    else (.gone, pipe)
  | .dropReader =>
    if (pipe.inbound side).hasReader then (.dropped, pipe.dropReader side) else (.gone, pipe)
  | .dropWriter =>
    if (pipe.outbound side).hasWriter then (.dropped, pipe.dropWriter side) else (.gone, pipe)

/-- Perform operations in order. -/
def run (pipe : Pipe) (operations : List Operation) : Pipe :=
  operations.foldl (fun pipe operation => (pipe.perform operation).2) pipe

/-- Operations in order, with their answers. -/
def history (pipe : Pipe) : List Operation → List (Operation × Answer)
  | [] => []
  | operation :: rest =>
    (operation, (pipe.perform operation).1) :: (pipe.perform operation).2.history rest

/-- The part of a history that is about the channel that a side reads. -/
def directed (side : Side) (entries : List (Operation × Answer)) : List Exchange :=
  entries.filterMap fun (operation, answer) =>
    if operation.reader = side then some (operation.use, answer) else none

/-- The uses of the channel that a side reads. -/
def uses (side : Side) (operations : List Operation) : List Use :=
  (operations.filter (·.reader = side)).map Operation.use

/-- The channel that was replaced is the new one, and the other one stays. -/
theorem inbound_setInbound (pipe : Pipe) (side other : Side) (channel : Channel) :
    (pipe.setInbound side channel).inbound other =
      if side = other then channel else pipe.inbound other := by
  cases side <;> cases other <;> rfl

/-- A channel that is replaced by itself changes nothing. -/
theorem setInbound_inbound (pipe : Pipe) (side : Side) :
    pipe.setInbound side (pipe.inbound side) = pipe := by
  cases side <;> rfl

/-- An operation uses the channel that it is about. -/
theorem perform_eq (pipe : Pipe) (operation : Operation) :
    pipe.perform operation =
      ((pipe.inbound operation.reader).use operation.use).map id
        (pipe.setInbound operation.reader) := by
  obtain ⟨side, use⟩ := operation
  have hgone : ∀ reader, (Answer.gone, pipe) =
      (Answer.gone, pipe.setInbound reader (pipe.inbound reader)) := fun reader => by
    rw [setInbound_inbound]
  cases use with
  | write bytes | dropWriter =>
    by_cases h : (pipe.inbound side.other).hasWriter = true
    · simp only [perform, Operation.reader, Channel.use, outbound, h, if_true]
      rfl
    · simp only [perform, Operation.reader, Channel.use, outbound, h]
      exact hgone side.other
  | read count | peek count | dropReader =>
    by_cases h : (pipe.inbound side).hasReader = true
    · simp only [perform, Operation.reader, Channel.use, h, if_true]
      rfl
    · simp only [perform, Operation.reader, Channel.use, h]
      exact hgone side

/-- The channel that a side reads is used by the operations about it, and by no other one. -/
theorem inbound_perform (pipe : Pipe) (operation : Operation) (side : Side) :
    (pipe.perform operation).2.inbound side =
      if operation.reader = side then ((pipe.inbound side).use operation.use).2
      else pipe.inbound side := by
  rw [perform_eq, Prod.map_snd, inbound_setInbound]
  split
  · next h => rw [h]
  · rfl

/-- After any operations, the channel that a side reads is as if only those about it had been. -/
theorem inbound_run (pipe : Pipe) (operations : List Operation) (side : Side) :
    (pipe.run operations).inbound side = (pipe.inbound side).run (uses side operations) := by
  induction operations generalizing pipe with
  | nil => rfl
  | cons operation operations ih =>
    change ((pipe.perform operation).2.run operations).inbound side = _
    rw [ih, inbound_perform, uses, uses, List.filter_cons]
    by_cases h : operation.reader = side
    · simp [h, Channel.run]
    · simp [h]

/-- The history of a channel is told by the operations about it. -/
theorem directed_history (pipe : Pipe) (operations : List Operation) (side : Side) :
    directed side (pipe.history operations) =
      (pipe.inbound side).history (uses side operations) := by
  induction operations generalizing pipe with
  | nil => rfl
  | cons operation operations ih =>
    have hi := inbound_perform pipe operation side
    have hrest := ih (pipe.perform operation).2
    rw [directed, uses] at hrest
    rw [directed, uses, history, List.filterMap_cons, List.filter_cons]
    by_cases h : operation.reader = side
    · rw [if_pos h] at hi
      simp only [h, if_true, decide_true, List.map_cons]
      rw [hrest, Channel.history, hi, perform_eq, h]
      rfl
    · rw [if_neg h] at hi
      simp only [h, if_false, decide_false, Bool.false_eq_true]
      rw [hrest, hi]

/-- A use is one of the uses of a channel if some operation makes it. -/
theorem mem_uses {side : Side} {operations : List Operation} {use : Use} :
    use ∈ uses side operations ↔
      ∃ operation ∈ operations, operation.reader = side ∧ operation.use = use := by
  simp [uses, and_assoc]

/-- The reading half of a channel is dropped by the side that reads it. -/
theorem dropReader_mem_uses {side : Side} {operations : List Operation} :
    .dropReader ∈ uses side operations ↔ ⟨side, .dropReader⟩ ∈ operations := by
  rw [mem_uses]
  constructor
  · rintro ⟨⟨_, _⟩, hm, hs, rfl⟩
    obtain rfl : _ = side := hs
    exact hm
  · exact fun h => ⟨_, h, rfl, rfl⟩

/-- The writing half of a channel is dropped by the other side. -/
theorem dropWriter_mem_uses {side : Side} {operations : List Operation} :
    .dropWriter ∈ uses side operations ↔ ⟨side.other, .dropWriter⟩ ∈ operations := by
  have hother : ∀ side : Side, side.other.other = side := by rintro (_ | _) <;> rfl
  rw [mem_uses]
  constructor
  · rintro ⟨⟨_, _⟩, hm, hs, rfl⟩
    obtain rfl : Side.other _ = side := hs
    rwa [hother]
  · exact fun h => ⟨_, h, hother side, rfl⟩

/-- The bytes that were written into the channel that a side reads, from a new connection on. -/
def written (side : Side) (operations : List Operation) : Bytes :=
  (directed side (history {} operations)).flatMap Exchange.put

/-- The bytes that a side has taken, from a new connection on. -/
def taken (side : Side) (operations : List Operation) : Bytes :=
  (directed side (history {} operations)).flatMap Exchange.taken

/-- What was taken and what is left are what was written. -/
theorem taken_append_unread (side : Side) (operations : List Operation) :
    taken side operations ++ ((run {} operations).inbound side).unread =
      written side operations := by
  have hnew : (inbound {} side).unread = [] := by cases side <;> rfl
  rw [taken, written, directed_history, inbound_run, Channel.taken_append_unread_run, hnew,
    List.nil_append]

/-- From a new connection on, a side can read until it drops its reading half. -/
theorem hasReader_run (operations : List Operation) (side : Side) :
    ((run {} operations).inbound side).hasReader = true ↔ ⟨side, .dropReader⟩ ∉ operations := by
  have hnew : (inbound {} side).hasReader = true := by cases side <;> rfl
  rw [inbound_run, Channel.hasReader_run, hnew, Bool.true_and, decide_eq_true_eq,
    dropReader_mem_uses]

/-- From a new connection on, the other side can write until it drops its writing half. -/
theorem hasWriter_run (operations : List Operation) (side : Side) :
    ((run {} operations).inbound side).hasWriter = true ↔
      ⟨side.other, .dropWriter⟩ ∉ operations := by
  have hnew : (inbound {} side).hasWriter = true := by cases side <;> rfl
  rw [inbound_run, Channel.hasWriter_run, hnew, Bool.true_and, decide_eq_true_eq,
    dropWriter_mem_uses]

/-- From a new connection on, no empty chunk waits as long as none is written. -/
theorem waiting_ne_nil_run {operations : List Operation}
    (h : ∀ operation ∈ operations, operation.use ≠ .write []) (side : Side) :
    ∀ chunk ∈ ((run {} operations).inbound side).waiting, chunk ≠ [] := by
  have hnew : ∀ chunk ∈ (inbound {} side).waiting, chunk ≠ [] := by cases side <;> simp [inbound]
  rw [inbound_run]
  refine Channel.waiting_ne_nil_run hnew fun hm => ?_
  obtain ⟨operation, ho, -, hu⟩ := mem_uses.mp hm
  exact h operation ho hu

/-- Reads and looks of a side tell whether it has taken everything that was written, and whether the
other side has dropped its writing half. -/
theorem tells_perform {operations : List Operation}
    (h : ∀ operation ∈ operations, operation.use ≠ .write []) {side : Side}
    (hd : ⟨side, .dropReader⟩ ∉ operations) {use : Use}
    (hu : (∃ count, use = .read (count + 1)) ∨ ∃ count, use = .peek count) :
    Channel.Tells ((run {} operations).perform ⟨side, use⟩).1
      (taken side operations = written side operations)
      (⟨side.other, .dropWriter⟩ ∈ operations) := by
  have hdrained : ((run {} operations).inbound side).unread = [] ↔
      taken side operations = written side operations := by
    rw [← taken_append_unread, List.self_eq_append_right]
  have hended : ((run {} operations).inbound side).hasWriter = false ↔
      ⟨side.other, .dropWriter⟩ ∈ operations := by
    rw [← Bool.not_eq_true, hasWriter_run, not_not]
  have hp : ((run {} operations).perform ⟨side, use⟩).1 =
      (((run {} operations).inbound side).use use).1 := by
    rw [perform_eq]
    rcases hu with ⟨count, rfl⟩ | ⟨count, rfl⟩ <;> rfl
  have ht := Channel.tells_use ((hasReader_run operations side).mpr hd)
    (waiting_ne_nil_run h side) hu
  rwa [hdrained, hended, ← hp] at ht

/-- A write of a side tells whether the other side has dropped its reading half. -/
theorem write_perform {operations : List Operation} {side : Side}
    (hd : ⟨side, .dropWriter⟩ ∉ operations) (bytes : Bytes) :
    ((run {} operations).perform ⟨side, .write bytes⟩).1 =
      .wrote (if ⟨side.other, .dropReader⟩ ∈ operations then .error Channel.disconnected
        else .ok bytes.length) := by
  have hw : ((run {} operations).inbound side.other).hasWriter = true := by
    rw [hasWriter_run]
    cases side <;> exact hd
  have hr := hasReader_run operations side.other
  rw [perform_eq]
  change (((run {} operations).inbound side.other).use (.write bytes)).1 = _
  rw [Channel.use, if_pos hw, Channel.write]
  by_cases hg : ⟨side.other, .dropReader⟩ ∈ operations
  · rw [if_neg (fun h => hr.mp h hg), if_pos hg]
    rfl
  · rw [if_pos (hr.mpr hg), if_neg hg]
    rfl

/-- What a connection does for its sides, after the given operations. -/
structure Faithful (operations : List Operation) : Prop where
  /-- What happens in one direction is as if there had been no operation in the other one. -/
  apart : ∀ side, directed side (history {} operations) =
    directed side (history {} (operations.filter (·.reader = side)))
  /-- The bytes taken are the first ones of those written. -/
  inOrder : ∀ side, taken side operations <+: written side operations
  /-- A read of at least one byte tells whether everything is read and the writing half is gone. -/
  reads : ∀ side count, ⟨side, .dropReader⟩ ∉ operations →
    Channel.Tells ((run {} operations).perform ⟨side, .read (count + 1)⟩).1
      (taken side operations = written side operations) (⟨side.other, .dropWriter⟩ ∈ operations)
  /-- So does a look at what can be read. -/
  peeks : ∀ side count, ⟨side, .dropReader⟩ ∉ operations →
    Channel.Tells ((run {} operations).perform ⟨side, .peek count⟩).1
      (taken side operations = written side operations) (⟨side.other, .dropWriter⟩ ∈ operations)
  /-- A write fails if the other side cannot read any more, and else writes all bytes. -/
  writes : ∀ side bytes, ⟨side, .dropWriter⟩ ∉ operations →
    ((run {} operations).perform ⟨side, .write bytes⟩).1 =
      .wrote (if ⟨side.other, .dropReader⟩ ∈ operations then .error Channel.disconnected
        else .ok bytes.length)

/-- A connection in memory loses, repeats and reorders no byte, ends where the writing half was
dropped, and keeps its directions apart, whatever its sides do as long as no empty chunk is
written. -/
theorem faithful {operations : List Operation}
    (h : ∀ operation ∈ operations, operation.use ≠ .write []) : Faithful operations where
  apart side := by
    rw [directed_history, directed_history, uses, uses, List.filter_filter]
    simp
  inOrder side := ⟨_, taken_append_unread side operations⟩
  reads side count hd := tells_perform h hd (.inl ⟨count, rfl⟩)
  peeks side count hd := tells_perform h hd (.inr ⟨count, rfl⟩)
  writes side bytes hd := write_perform hd bytes

/-- A chunk is read in two parts, while the reader also writes, and the end comes behind it. -/
theorem faithful_readInParts :
    let operations : List Operation := [⟨.debuggee, .write [1, 2]⟩, ⟨.debugger, .read 1⟩,
      ⟨.debugger, .write [3]⟩, ⟨.debuggee, .dropWriter⟩, ⟨.debugger, .peek 1⟩]
    Faithful operations ∧ written .debugger operations = [1, 2] ∧
      ((run {} operations).perform ⟨.debugger, .read 4⟩).1 = .got (.ok []) := by
  intro operations
  have h : Faithful operations := faithful (by decide)
  exact ⟨h, by decide, by decide⟩

end Pipe

end DebugLink.Wire
