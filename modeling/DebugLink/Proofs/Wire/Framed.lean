import DebugLink.Proofs.Wire.Polling
import DebugLink.Wire.Stream

/-!
# Framed streams

A framed stream reads some bytes, decodes until more are needed, and reads again; at the end of the
stream it decodes once more until nothing comes, and the first fault ends it. However its reads cut
the bytes, it yields what one decoder yields on all of them, as long as nothing is too large, and so
does a reader that is asked until the end of the stream.
-/

namespace DebugLink.Wire

namespace Decoder

variable {decoder : Decoder}

/-- The items that a codec yields at the end of a stream, when it is asked until it yields none. -/
def finish (decoder : Decoder) : (count : Nat) → List Item
  | 0 => []
  | count + 1 =>
    match decodeAtEnd decoder.limit decoder.buffer with
    | (.needMore _, _) => []
    | (.frame frame _, rest) => .ok frame :: { decoder with buffer := rest }.finish count
    | (.fault fault, _) => [.error fault]

/-- The items that a framed stream yields from a decoder on, when its reads take the given pieces.
At the end each frame takes a byte at least, so there are no more items than the bound given here. -/
def framedFrom (decoder : Decoder) : (pieces : List Bytes) → List Item
  | [] => decoder.finish (decoder.buffer.length + 1)
  | piece :: pieces =>
    let (items, next) := decoder.push piece
    if next.failed then items else items ++ next.framedFrom pieces

/-- At the end of a stream a codec yields what it yields otherwise. -/
theorem finish_eq_take (h : decoder.failed = false) (count : Nat) :
    decoder.finish count = (decoder.take count).1 := by
  induction count generalizing decoder with
  | zero => rfl
  | succ count ih =>
    rw [finish, take, next, h, if_neg Bool.false_ne_true, decodeAtEnd]
    cases decode decoder.limit decoder.buffer with
    | needMore needed => rfl
    | frame frame rest =>
      have hrest : (⟨decoder.limit, rest, false⟩ : Decoder).failed = false := rfl
      exact congrArg (.ok frame :: ·) (ih hrest)
    | fault fault =>
      have hfailed : ({ decoder with failed := true } : Decoder).next =
          (none, { decoder with failed := true }) := next_of_failed rfl
      dsimp only
      rw [take_of_next_none hfailed]

/-- Bytes may be pushed in two parts, unless an item of the first one is about size. -/
theorem push_append {front : Bytes} (h : NoneTooLarge (decoder.push front).1) (back : Bytes) :
    decoder.push (front ++ back) =
      ((decoder.push front).1 ++ ((decoder.push front).2.push back).1,
        ((decoder.push front).2.push back).2) := by
  rw [push, ← extend_extend]
  exact drain_extend h back

/-- Behind a fault nothing is decoded, whatever comes. -/
theorem push_of_failed (h : decoder.failed = true) (bytes : Bytes) :
    decoder.push bytes = ([], decoder.extend bytes) :=
  drain_of_next_none (next_of_failed h)

/-- However the bytes are cut, a framed stream yields what a decoder yields on all of them, unless
something is too large. -/
theorem framedFrom_eq_push (h : decoder.failed = false) {pieces : List Bytes}
    (hs : NoneTooLarge (decoder.framedFrom pieces)) :
    decoder.framedFrom pieces = (decoder.push pieces.flatten).1 := by
  induction pieces generalizing decoder with
  | nil => rw [framedFrom, finish_eq_take h, List.flatten_nil, push, extend_nil, drain]
  | cons piece pieces ih =>
    rw [framedFrom] at hs ⊢
    dsimp only at hs ⊢
    rw [List.flatten_cons]
    split at hs
    · next hfailed =>
      rw [if_pos hfailed, push_append hs, push_of_failed hfailed, List.append_nil]
    · next hworks =>
      obtain ⟨hitems, hothers⟩ := List.forall_mem_append.mp hs
      rw [if_neg hworks, push_append hitems, ih (Bool.of_not_eq_true hworks) hothers]

/-- A fault is the last item that is taken. -/
theorem eq_nil_of_take_error {count : Nat} {front back : List Item} {fault : Fault}
    (h : (decoder.take count).1 = front ++ .error fault :: back) : back = [] := by
  induction count generalizing decoder front with
  | zero => exact absurd h.symm (List.append_ne_nil_of_right_ne_nil _ (List.cons_ne_nil _ _))
  | succ count ih =>
    cases hn : decoder.next with
    | mk found next =>
      cases found with
      | none =>
        rw [take_of_next_none hn] at h
        exact absurd h.symm (List.append_ne_nil_of_right_ne_nil _ (List.cons_ne_nil _ _))
      | some item =>
        rw [take_of_next_some hn] at h
        cases front with
        | cons first front => exact ih (List.cons.inj h).2
        | nil =>
          obtain ⟨hitem, hback⟩ := List.cons.inj h
          obtain ⟨-, ⟨frame, rest, -, hframe, -⟩ | ⟨cause, -, -, rfl⟩⟩ := cases_of_next_some hn
          · rw [hframe] at hitem
            cases hitem
          · have hfailed : ({ decoder with failed := true } : Decoder).next =
                (none, { decoder with failed := true }) := next_of_failed rfl
            rw [← hback, take_of_next_none hfailed]

end Decoder

open Arrival (GoesOn allBytes)

/-- An arrival is data, or says that there is none yet. -/
def Arrival.isQuiet : Arrival → Bool
  | data _ => true
  | fault cause => cause.kind == .wouldBlock

namespace Stream

/-- The stream of a source is framed: its reads take pieces of the bytes of the source. -/
theorem exists_framedFrom {decoder : Decoder} (buffer : Buffer) {source : List Arrival}
    (hw : decoder.failed = false) (hn : decoder.next = (none, decoder)) (hg : GoesOn source)
    (hq : ∀ arrival ∈ source, arrival.isQuiet = true) :
    ∃ pieces, pieces.flatten = allBytes source ∧
      itemsFrom decoder buffer source = decoder.framedFrom pieces := by
  fun_induction itemsFrom decoder buffer source with
  | case1 decoder buffer =>
    refine ⟨[], rfl, ?_⟩
    rw [Decoder.framedFrom, Decoder.finish_eq_take hw, Decoder.take_of_next_none hn]
  | case2 decoder buffer source => exact absurd rfl (List.forall_mem_cons.mp hg).1
  | case3 decoder buffer b bytes source roomy chunk items next hp hfailed =>
    -- Nothing is read behind a fault, so the rest may be one piece.
    refine ⟨[chunk, allBytes (Arrival.afterRead roomy.room (b :: bytes) source)], ?_, ?_⟩
    · rw [List.flatten_cons, List.flatten_singleton, Arrival.take_append_allBytes_afterRead]
      rfl
    · rw [Decoder.framedFrom, hp]
      exact (if_pos hfailed).symm
  | case4 decoder buffer b bytes source roomy chunk items next hp hworks ih =>
    have hnext : next = (decoder.push chunk).2 := by rw [hp]
    have hdrained : next.next = (none, next) := by
      rw [hnext]
      exact (decoder.extend chunk).next_drain
    obtain ⟨pieces, hpieces, hitems⟩ := ih (Bool.of_not_eq_true hworks) hdrained
      ((show GoesOn source from (List.forall_mem_cons.mp hg).2).afterRead _ _)
      (Arrival.forall_mem_afterRead (List.forall_mem_cons.mp hq).2 (fun _ _ => rfl) _ _)
    refine ⟨chunk :: pieces, ?_, ?_⟩
    · rw [List.flatten_cons, hpieces, Arrival.take_append_allBytes_afterRead]
      rfl
    · rw [hitems, Decoder.framedFrom, hp]
      exact (if_neg hworks).symm
  | case5 decoder buffer fault source hblock ih =>
    exact ih hw hn (List.forall_mem_cons.mp hg).2 (List.forall_mem_cons.mp hq).2
  | case6 decoder buffer fault source hblock =>
    exact absurd (beq_iff_eq.mp (List.forall_mem_cons.mp hq).1) hblock

end Stream

/-- The ways to read a source agree with one decoder that gets all its bytes. -/
structure ReadersAgree (limit : Nat) (source : List Arrival) : Prop where
  /-- A reader does, however it is asked, until the end of the stream is told, as long as it has told
  of nothing too large. -/
  polled : ∀ asks ask, .closed ∉ (Reader.askAll ⟨source, { limit }⟩ asks).1 →
    NoneTooLarge (Reader.returned (Reader.askAll ⟨source, { limit }⟩ asks).1) →
      Reader.Agrees (Decoder.extend { limit } (allBytes source))
        (Reader.askAll ⟨source, { limit }⟩ asks).1 (Reader.askAll ⟨source, { limit }⟩ asks).2
        ((Reader.askAll ⟨source, { limit }⟩ asks).2.ask ask)
  /-- A framed stream does, however its reads cut the bytes, if it tells of nothing too large. -/
  framed : ∀ pieces, pieces.flatten = allBytes source →
    NoneTooLarge (Decoder.framedFrom { limit } pieces) →
      Decoder.framedFrom { limit } pieces = (Decoder.push { limit } (allBytes source)).1
  /-- The stream of a source without other errors does, if it tells of nothing too large. -/
  streamed : (∀ arrival ∈ source, arrival.isQuiet = true) →
    NoneTooLarge (Stream.items limit source) →
      Stream.items limit source = (Decoder.push { limit } (allBytes source)).1
  /-- The first fault of the content is the last item. -/
  last : ∀ front fault back,
    (Decoder.push { limit } (allBytes source)).1 = front ++ .error fault :: back → back = []

/-- The ways to read a source agree, unless the stream ends before the last arrival. -/
theorem readersAgree (limit : Nat) {source : List Arrival} (h : GoesOn source) :
    ReadersAgree limit source where
  polled asks ask hc hs := Reader.agrees_askAll h hc hs ask
  framed pieces hpieces hs := by rw [Decoder.framedFrom_eq_push rfl hs, hpieces]
  streamed hq hs := by
    have hempty : Decoder.next { limit } = (none, { limit }) := rfl
    obtain ⟨pieces, hpieces, hitems⟩ := Stream.exists_framedFrom {} rfl hempty h hq
    rw [Stream.items, hitems] at hs ⊢
    rw [Decoder.framedFrom_eq_push rfl hs, hpieces]
  last front fault back heq := Decoder.eq_nil_of_take_error heq

/-- Output, a message cut in two and an unknown word, with what may come between. -/
def interrupted : List Arrival :=
  [.data (Text.Utf8.encode "hi>Li"), .fault ⟨.wouldBlock, "none"⟩,
    .data (Text.Utf8.encode "ne<2\x00[]\n>Bo"), .fault ⟨.timedOut, "none"⟩,
    .fault ⟨.interrupted, "signal"⟩, .fault ⟨.connectionReset, "reset"⟩,
    .data (Text.Utf8.encode "gus<\nrest")]

/-- The frames and the fault come in order, an error between them loses no byte, and a framed stream
of the same bytes yields the same. -/
theorem readersAgree_interrupted :
    GoesOn interrupted ∧ ReadersAgree 64 interrupted ∧
      (Reader.askAll ⟨interrupted, { limit := 64 }⟩
          [.look, .wait, .look, .wait, .wait, .wait]).1 =
        [.idle, .frame (.output "hi"), .frame (.message ⟨.line, "[]"⟩),
          .fault (.io ⟨.connectionReset, "reset"⟩), .fault (.unknownWord "Bogus"), .closed] ∧
      Stream.items 64 (interrupted.filter Arrival.isQuiet) =
        [.ok (.output "hi"), .ok (.message ⟨.line, "[]"⟩), .error (.unknownWord "Bogus")] := by
  have hgoes : GoesOn interrupted := by decide +kernel
  exact ⟨hgoes, readersAgree 64 hgoes, by decide +kernel, by decide +kernel⟩

end DebugLink.Wire
