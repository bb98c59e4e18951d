import DebugLink.Proofs.Wire.Chunking
import DebugLink.Wire.Reader

/-!
# Polling a source

A reader can be asked to wait for a frame, or to look for one without reading. What is ahead of it are
the bytes that it holds and those that its source still has, as if they had all come at once. An
answer with an item is the next one that a decoder yields on what is ahead, unless it is about size;
any other answer leaves what is ahead as it is, but for the end of the stream, which comes when
nothing ahead forms an item, and which drops what is left.
-/

namespace DebugLink.Wire

/-! ## Bytes are no fault of a stream -/

/-- A payload with a length is no fault of a stream. -/
theorem decodeSized_ne_io (word : Word) (length : Nat) (body : Bytes) (fault : IoFault) :
    decodeSized word length body ≠ .fault (.io fault) := by
  unfold decodeSized
  split
  · exact nofun
  · split
    · exact nofun
    · split <;> exact nofun

/-- A payload that runs to the end of the line is no fault of a stream. -/
theorem decodeLine_ne_io (limit : Nat) (word : Word) (body : Bytes) (fault : IoFault) :
    decodeLine limit word body ≠ .fault (.io fault) := by
  unfold decodeLine
  split
  · split <;> exact nofun
  · split <;> exact nofun

/-- What stands behind a token is no fault of a stream. -/
theorem decodeBody_ne_io (limit : Nat) (word : Word) (body : Bytes) (fault : IoFault) :
    decodeBody limit word body ≠ .fault (.io fault) := by
  unfold decodeBody
  dsimp only
  split
  · exact decodeLine_ne_io limit word body fault
  · split
    · split <;> exact nofun
    · split
      · exact decodeLine_ne_io limit word body fault
      · split
        · exact nofun
        · split
          · exact nofun
          · split
            · exact nofun
            · exact decodeSized_ne_io word _ _ fault

/-- No bytes amount to a fault of a stream. -/
theorem decode_ne_io (limit : Nat) (bytes : Bytes) (fault : IoFault) :
    decode limit bytes ≠ .fault (.io fault) := by
  unfold decode
  split
  · exact nofun
  · split
    · exact decodeBody_ne_io limit _ _ fault
    · exact nofun
    · exact nofun
    · exact nofun
    · unfold decodeOutput
      split
      · exact nofun
      · exact nofun
      · exact nofun
      · split <;> exact nofun

/-! ## Sources -/

namespace Arrival

/-- The bytes of an arrival. -/
def bytes : Arrival → Bytes
  | data bytes => bytes
  | fault _ => []

/-- The bytes of a source. -/
def allBytes (source : List Arrival) : Bytes := source.flatMap bytes

/-- No arrival is the end of the stream. -/
def GoesOn (source : List Arrival) : Prop := ∀ arrival ∈ source, arrival ≠ .data []

instance (source : List Arrival) : Decidable (GoesOn source) :=
  inferInstanceAs (Decidable (∀ arrival ∈ source, arrival ≠ .data []))

/-- The bytes of the first arrival come first. -/
theorem allBytes_cons (arrival : Arrival) (source : List Arrival) :
    allBytes (arrival :: source) = arrival.bytes ++ allBytes source := List.flatMap_cons

/-- What a read takes and what it leaves are all bytes. -/
theorem take_append_allBytes_afterRead (count : Nat) (bytes : Bytes) (source : List Arrival) :
    bytes.take count ++ allBytes (afterRead count bytes source) = bytes ++ allBytes source := by
  unfold afterRead
  dsimp only
  split
  · next hrest =>
    have hall := List.take_append_drop count bytes
    rw [List.isEmpty_iff.mp hrest, List.append_nil] at hall
    rw [hall]
  · rw [allBytes_cons, Arrival.bytes, ← List.append_assoc, List.take_append_drop]

/-- A read leaves arrivals that were there, or some bytes in front of them. -/
theorem forall_mem_afterRead {P : Arrival → Prop} {source : List Arrival}
    (h : ∀ arrival ∈ source, P arrival) (hd : ∀ bytes, bytes ≠ [] → P (.data bytes)) (count : Nat)
    (bytes : Bytes) : ∀ arrival ∈ afterRead count bytes source, P arrival := by
  unfold afterRead
  dsimp only
  split
  · exact h
  · next hrest => exact List.forall_mem_cons.mpr ⟨hd _ (mt List.isEmpty_iff.mpr hrest), h⟩

/-- A read does not lead to the end of the stream. -/
theorem GoesOn.afterRead {source : List Arrival} (h : GoesOn source) (count : Nat)
    (bytes : Bytes) : GoesOn (afterRead count bytes source) :=
  forall_mem_afterRead h (fun _ hne heq => hne (Arrival.data.inj heq)) count bytes

end Arrival

open Arrival (GoesOn allBytes)

/-- The item that a poll comes to: a frame, or a fault of the content. -/
def Poll.item? : Poll → Option Item
  | frame found => some (.ok found)
  | fault (.io _) => none
  | fault cause => some (.error cause)
  | closed | idle => none

namespace Reader

/-- The decoder of a reader, once all bytes have come. -/
def ahead (reader : Reader) : Decoder := reader.decoder.extend (allBytes reader.source)

/-- What an answer means for what is ahead of a reader. -/
inductive Answers (ahead : Decoder) (poll : Poll) (after : Reader) : Prop
  /-- The next item is returned. -/
  | item (item : Item) (hp : poll.item? = some item)
      (h : ¬ item.isTooLarge = true → ahead.next = (some item, after.ahead))
  /-- Nothing is returned, and no byte is lost. -/
  | quiet (hp : poll.item? = none) (hc : poll ≠ .closed) (h : after.ahead = ahead)
  /-- The stream has ended, and what is left holds no item. -/
  | closed (hp : poll = .closed) (hn : ahead.next = (none, ahead))
      (ha : after = ⟨[], ahead.discard⟩)

/-- A frame that is there is returned. -/
theorem answers_frame {decoder next : Decoder} {frame : Frame}
    (h : decoder.next = (some (.ok frame), next)) (source : List Arrival) :
    Answers (ahead ⟨source, decoder⟩) (.frame frame) ⟨source, next⟩ :=
  .item (.ok frame) rfl fun hi => Decoder.next_extend h hi _

/-- A fault of the content that is there is returned. -/
theorem answers_fault {decoder next : Decoder} {fault : Fault}
    (h : decoder.next = (some (.error fault), next)) (source : List Arrival) :
    Answers (ahead ⟨source, decoder⟩) (.fault fault) ⟨source, next⟩ := by
  have hp : (Poll.fault fault).item? = some (.error fault) := by
    obtain ⟨-, ⟨_, _, -, heq, -⟩ | ⟨other, hd, heq, -⟩⟩ := Decoder.cases_of_next_some h
    · cases heq
    · cases fault with
      | io fault =>
        obtain rfl := Except.error.inj heq
        exact absurd hd (decode_ne_io _ _ fault)
      | _ => rfl
  exact .item (.error fault) hp fun hi => Decoder.next_extend h hi _

/-- What polling a source comes to: an answer, or the end of all bytes. -/
inductive ComesTo (ahead : Decoder) (result : Poll × Reader) : Prop
  /-- The poll is answered, and the source goes on. -/
  | answers (h : Answers ahead result.1 result.2) (hs : GoesOn result.2.source)
      (hi : result.1 ≠ .idle)
  /-- All bytes are read, and hold no item. -/
  | ends (hr : result = (.idle, ⟨[], ahead⟩)) (hn : ahead.next = (none, ahead))

/-- Polling a source that goes on comes to an answer or to the end of all bytes. -/
theorem comesTo_pollFrom (decoder : Decoder) (source : List Arrival) (h : GoesOn source) :
    ComesTo (ahead ⟨source, decoder⟩) (pollFrom decoder source) := by
  fun_induction pollFrom decoder source with
  | case1 decoder source frame next hn => exact .answers (answers_frame hn source) h nofun
  | case2 decoder source fault next hn => exact .answers (answers_fault hn source) h nofun
  | case3 decoder next hn =>
    obtain rfl := Decoder.eq_of_next_none hn
    have hahead : ahead ⟨[], next⟩ = next := Decoder.extend_nil next
    exact .ends (by rw [hahead]) (by rw [hahead, hn])
  | case4 decoder next hn fault source hquiet ih =>
    obtain rfl := Decoder.eq_of_next_none hn
    exact ih (List.forall_mem_cons.mp h).2
  | case5 decoder next hn fault source hbroken =>
    obtain rfl := Decoder.eq_of_next_none hn
    exact .answers (.quiet rfl nofun rfl) (List.forall_mem_cons.mp h).2 nofun
  | case6 decoder next hn source => exact absurd rfl ((List.forall_mem_cons.mp h).1)
  | case7 decoder next hn b bytes source ih =>
    obtain rfl := Decoder.eq_of_next_none hn
    have hahead : ahead ⟨Arrival.afterRead Arrival.chunkSize (b :: bytes) source,
        next.extend ((b :: bytes).take Arrival.chunkSize)⟩ =
          ahead ⟨.data (b :: bytes) :: source, next⟩ := by
      rw [ahead, ahead, Decoder.extend_extend, Arrival.take_append_allBytes_afterRead,
        Arrival.allBytes_cons, Arrival.bytes]
    rw [← hahead]
    exact ih ((show GoesOn source from (List.forall_mem_cons.mp h).2).afterRead _ _)

/-! ## Asking a reader -/

/-- How a reader is asked for a frame. -/
inductive Ask where
  /-- It waits until there is one. -/
  | wait
  /-- It looks whether there is one, and does not read. -/
  | look
  deriving DecidableEq

/-- Ask a reader whose source ends behind its last arrival. -/
def ask (reader : Reader) : Ask → Poll × Reader
  | .wait => reader.pollFinite
  | .look => reader.pollNow

/-- Ask a reader again and again. -/
def askAll (reader : Reader) : List Ask → List Poll × Reader
  | [] => ([], reader)
  | first :: rest =>
    let (poll, reader) := reader.ask first
    let (polls, reader) := reader.askAll rest
    (poll :: polls, reader)

/-- A reader that waits answers what polling comes to, or that the stream has ended. -/
theorem pollFinite_of_poll {reader after : Reader} {poll : Poll} (h : reader.poll = (poll, after))
    (hi : poll ≠ .idle) : reader.pollFinite = (poll, after) := by
  rw [pollFinite, h]
  cases poll with
  | idle => exact absurd rfl hi
  | _ => rfl

/-- A reader whose source goes on answers what it is asked. -/
theorem answers_ask {reader : Reader} (h : GoesOn reader.source) (ask : Ask) :
    Answers reader.ahead (reader.ask ask).1 (reader.ask ask).2 ∧
      GoesOn (reader.ask ask).2.source := by
  cases ask with
  | wait =>
    rw [Reader.ask]
    cases comesTo_pollFrom reader.decoder reader.source h with
    | answers ha hs hi =>
      rw [pollFinite_of_poll rfl hi]
      exact ⟨ha, hs⟩
    | ends hr hn =>
      rw [pollFinite, poll, hr]
      exact ⟨.closed rfl hn rfl, nofun⟩
  | look =>
    rw [Reader.ask, pollNow, buffered?]
    cases hn : reader.decoder.next with
    | mk found next =>
      cases found with
      | none =>
        obtain rfl := Decoder.eq_of_next_none hn
        exact ⟨.quiet rfl nofun rfl, h⟩
      | some item =>
        cases item with
        | ok frame => exact ⟨answers_frame hn reader.source, h⟩
        | error fault => exact ⟨answers_fault hn reader.source, h⟩

/-- The items that polls come to. -/
def returned (polls : List Poll) : List Item := polls.filterMap Poll.item?

/-- As long as the stream has not ended, what has been returned is what a decoder yields first on all
bytes, and what is ahead is what that leaves. -/
theorem take_askAll {reader : Reader} (h : GoesOn reader.source) {asks : List Ask}
    (hc : .closed ∉ (reader.askAll asks).1) (hs : NoneTooLarge (returned (reader.askAll asks).1)) :
    reader.ahead.take (returned (reader.askAll asks).1).length =
        (returned (reader.askAll asks).1, (reader.askAll asks).2.ahead) ∧
      GoesOn (reader.askAll asks).2.source := by
  induction asks generalizing reader with
  | nil => exact ⟨rfl, h⟩
  | cons first rest ih =>
    obtain ⟨hanswers, hgoes⟩ := answers_ask h first
    rw [askAll] at hc hs ⊢
    dsimp only at hc hs ⊢
    obtain ⟨hfirst, hrest⟩ := not_or.mp (mt List.mem_cons.mpr hc)
    cases hanswers with
    | closed hp => exact absurd hp.symm hfirst
    | quiet hp _ hahead =>
      have hreturned : returned ((reader.ask first).1 :: ((reader.ask first).2.askAll rest).1) =
          returned ((reader.ask first).2.askAll rest).1 := List.filterMap_cons_none hp
      rw [hreturned] at hs ⊢
      rw [← hahead]
      exact ih hgoes hrest hs
    | item item hp hnext =>
      have hreturned : returned ((reader.ask first).1 :: ((reader.ask first).2.askAll rest).1) =
          item :: returned ((reader.ask first).2.askAll rest).1 := List.filterMap_cons_some hp
      rw [hreturned] at hs ⊢
      obtain ⟨hitem, hothers⟩ := List.forall_mem_cons.mp hs
      obtain ⟨htake, hsource⟩ := ih hgoes hrest hothers
      rw [List.length_cons, Decoder.take_of_next_some (hnext hitem), htake]
      exact ⟨rfl, hsource⟩

/-- What a reader has returned, and what it answers then, agree with a decoder that gets all bytes at
once. -/
structure Agrees (whole : Decoder) (polls : List Poll) (before : Reader)
    (answer : Poll × Reader) : Prop where
  /-- What has been returned comes first among the items of the decoder. -/
  returned : returned polls <+: whole.drain.1
  /-- What the decoder has left behind these items is still ahead. -/
  kept : (whole.take (Reader.returned polls).length).2 = before.ahead
  /-- An answer without an item loses no byte and takes none twice. -/
  quiet : answer.1 ≠ .closed → answer.1.item? = none → answer.2.ahead = before.ahead
  /-- When the end of the stream is told, all items have been returned, and what is dropped are the
  bytes that the decoder has left behind them. -/
  closed : answer.1 = .closed → Reader.returned polls = whole.drain.1 ∧
    before.ahead = whole.drain.2 ∧ answer.2 = ⟨[], whole.drain.2.discard⟩

/-- As long as the end of the stream has not been told and no item is about size, the answers of a
reader agree with a decoder that gets all bytes at once. -/
theorem agrees_askAll {reader : Reader} (h : GoesOn reader.source) {asks : List Ask}
    (hc : .closed ∉ (reader.askAll asks).1) (hs : NoneTooLarge (returned (reader.askAll asks).1))
    (ask : Ask) :
    Agrees reader.ahead (reader.askAll asks).1 (reader.askAll asks).2
      ((reader.askAll asks).2.ask ask) := by
  obtain ⟨htake, hsource⟩ := take_askAll h hc hs
  have hdrain := Decoder.drain_eq_take_append (returned (reader.askAll asks).1).length reader.ahead
  rw [htake] at hdrain
  dsimp only at hdrain
  obtain ⟨hanswers, -⟩ := answers_ask hsource ask
  refine ⟨?_, by rw [htake], fun hopen hnone => ?_, fun hclosed => ?_⟩
  · rw [hdrain]
    exact List.prefix_append _ _
  · cases hanswers with
    | quiet _ _ hahead => exact hahead
    | item item hp =>
      rw [hnone] at hp
      cases hp
    | closed hp => exact absurd hp hopen
  · cases hanswers with
    | quiet _ hopen => exact absurd hclosed hopen
    | item item hp =>
      rw [hclosed] at hp
      cases hp
    | closed _ hn hafter =>
      rw [Decoder.drain_of_next_none hn] at hdrain
      rw [hafter, hdrain]
      exact ⟨(List.append_nil _).symm, rfl, rfl⟩

end Reader

end DebugLink.Wire
