import DebugLink.Proofs.Wire.Stability
import DebugLink.Wire.Decoder

/-!
# How a stream is cut does not matter

A user of a decoder appends bytes in pieces and takes some of the items, or all of them, in
between. As long as no item says that something is too large, the items taken in the end and
the bytes left over are those of one decoder that got all bytes at once. What is too large
may depend on the cut, because a line without an end is measured as soon as it is looked at.
-/

namespace DebugLink.Wire

/-- Whether an item says that something is too large. -/
def Item.isTooLarge : Item → Bool
  | .error (.tooLarge ..) => true
  | _ => false

/-- No item says that something is too large. -/
abbrev NoneTooLarge (items : List Item) : Prop := ∀ item ∈ items, ¬ item.isTooLarge = true

namespace Decoder

variable {decoder next : Decoder} {item : Item}

/-! ## One item -/

/-- Where there is no item, nothing changes. -/
theorem eq_of_next_none (h : decoder.next = (none, next)) : next = decoder := by
  unfold Decoder.next at h
  split at h
  · exact (Prod.mk.inj h).2.symm
  · split at h <;> cases h
    rfl

/-- An item is a frame in front of the bytes left, or the fault that ends the items. -/
theorem cases_of_next_some (h : decoder.next = (some item, next)) :
    decoder.failed = false ∧
      ((∃ frame rest, decode decoder.limit decoder.buffer = .frame frame rest ∧
        item = .ok frame ∧ next = { decoder with buffer := rest }) ∨
      (∃ fault, decode decoder.limit decoder.buffer = .fault fault ∧
        item = .error fault ∧ next = { decoder with failed := true })) := by
  unfold Decoder.next at h
  split at h
  · cases h
  · next hf =>
    refine ⟨by simpa using hf, ?_⟩
    split at h
    · cases h
    · next frame rest hd =>
      cases h
      exact .inl ⟨frame, rest, hd, rfl, rfl⟩
    · next fault hd =>
      cases h
      exact .inr ⟨fault, hd, rfl, rfl⟩

/-- An item that is not about size comes out the same with more bytes behind. -/
theorem next_extend (h : decoder.next = (some item, next)) (hi : ¬ item.isTooLarge = true)
    (more : Bytes) : (decoder.extend more).next = (some item, next.extend more) := by
  obtain ⟨hf, ⟨frame, rest, hd, rfl, rfl⟩ | ⟨fault, hd, rfl, rfl⟩⟩ := cases_of_next_some h
  · have ha := decode_append (by rw [hd]; rfl) more
    simp only [Decoder.next, extend, hf, ha, hd, Decoded.append, Bool.false_eq_true, if_false]
  · have hs : (decode decoder.limit decoder.buffer).isSettled = true := by
      rw [hd]
      cases fault <;> simp_all [Decoded.isSettled, Item.isTooLarge]
    have ha := decode_append hs more
    simp only [Decoder.next, extend, hf, ha, hd, Decoded.append, Bool.false_eq_true, if_false]

/-- How many items a decoder yields at most. -/
def bound (decoder : Decoder) : Nat := if decoder.failed then 0 else decoder.buffer.length + 1

/-- After an item fewer items are left. -/
theorem bound_lt_of_next (h : decoder.next = (some item, next)) : next.bound < decoder.bound := by
  obtain ⟨hf, ⟨frame, rest, hd, -, rfl⟩ | ⟨fault, -, -, rfl⟩⟩ := cases_of_next_some h
  · have hl := length_lt_of_decode hd
    simp only [bound, hf, Bool.false_eq_true, if_false]
    omega
  · simp [bound, hf]

/-! ## All items -/

/-- Nothing is taken where there is no item. -/
theorem take_of_next_none (h : decoder.next = (none, next)) (count : Nat) :
    decoder.take count = ([], decoder) := by
  cases count with
  | zero => rfl
  | succ count => simp only [take, h, eq_of_next_none h]

/-- Taking begins with the next item. -/
theorem take_of_next_some (h : decoder.next = (some item, next)) (count : Nat) :
    decoder.take (count + 1) = (item :: (next.take count).1, (next.take count).2) := by
  rw [take, h]

/-- Every count from the bound on takes the same items. -/
theorem take_of_bound_le {count : Nat} (h : decoder.bound ≤ count) :
    decoder.take count = decoder.take decoder.bound := by
  induction hb : decoder.bound using Nat.strongRecOn generalizing decoder count with
  | _ bound ih =>
    cases hn : decoder.next with
    | mk found next =>
      cases found with
      | none => rw [take_of_next_none hn, take_of_next_none hn]
      | some item =>
        have hlt := bound_lt_of_next hn
        obtain ⟨count, rfl⟩ := Nat.exists_eq_add_one_of_ne_zero (show count ≠ 0 by omega)
        obtain ⟨bound, rfl⟩ := Nat.exists_eq_add_one_of_ne_zero (show bound ≠ 0 by omega)
        have hcount := ih next.bound (by omega) (show next.bound ≤ count by omega) rfl
        have hbound := ih next.bound (by omega) (show next.bound ≤ bound by omega) rfl
        rw [take_of_next_some hn, take_of_next_some hn, hcount, hbound]

/-- To drain is to take as many items as there may be. -/
theorem drain_eq_take {count : Nat} (h : decoder.bound ≤ count) :
    decoder.drain = decoder.take count := by
  have hb : decoder.bound ≤ decoder.buffer.length + 1 := by
    unfold bound
    split <;> omega
  rw [drain, take_of_bound_le hb, take_of_bound_le h]

/-- There is nothing to drain where there is no item. -/
theorem drain_of_next_none (h : decoder.next = (none, next)) : decoder.drain = ([], decoder) :=
  take_of_next_none h _

/-- Draining begins with the next item. -/
theorem drain_of_next_some (h : decoder.next = (some item, next)) :
    decoder.drain = (item :: next.drain.1, next.drain.2) := by
  have hlt := bound_lt_of_next h
  rw [drain_eq_take (show decoder.bound ≤ decoder.bound - 1 + 1 by omega), take_of_next_some h,
    drain_eq_take (show next.bound ≤ decoder.bound - 1 by omega)]

/-- Behind all items there is none. -/
theorem next_drain (decoder : Decoder) : decoder.drain.2.next = (none, decoder.drain.2) := by
  induction hb : decoder.bound using Nat.strongRecOn generalizing decoder with
  | _ bound ih =>
    cases hn : decoder.next with
    | mk found next =>
      cases found with
      | none =>
        rw [drain_of_next_none hn]
        exact hn.trans (congrArg _ (eq_of_next_none hn))
      | some item =>
        have hlt := bound_lt_of_next hn
        rw [drain_of_next_some hn]
        exact ih next.bound (hb ▸ hlt) next rfl

/-- What has been taken and what is drained behind it are all items. -/
theorem drain_eq_take_append (count : Nat) (decoder : Decoder) :
    decoder.drain =
      ((decoder.take count).1 ++ (decoder.take count).2.drain.1,
        (decoder.take count).2.drain.2) := by
  induction count generalizing decoder with
  | zero => rfl
  | succ count ih =>
    cases hn : decoder.next with
    | mk found next =>
      cases found with
      | none =>
        rw [take_of_next_none hn]
        rfl
      | some item =>
        rw [drain_of_next_some hn, take_of_next_some hn, ih next]
        rfl

/-- Items may be taken before more bytes come, unless one of them is about size. -/
theorem drain_extend {count : Nat} {decoder : Decoder}
    (h : NoneTooLarge (decoder.take count).1) (more : Bytes) :
    (decoder.extend more).drain =
      ((decoder.take count).1 ++ ((decoder.take count).2.extend more).drain.1,
        ((decoder.take count).2.extend more).drain.2) := by
  induction count generalizing decoder with
  | zero => rfl
  | succ count ih =>
    cases hn : decoder.next with
    | mk found next =>
      cases found with
      | none =>
        rw [take_of_next_none hn]
        rfl
      | some item =>
        rw [take_of_next_some hn] at h ⊢
        obtain ⟨hi, hr⟩ := List.forall_mem_cons.mp h
        rw [drain_of_next_some (next_extend hn hi more), ih hr]
        rfl

/-- Bytes that come one after the other. -/
theorem extend_extend (decoder : Decoder) (front back : Bytes) :
    (decoder.extend front).extend back = decoder.extend (front ++ back) := by
  simp only [extend, List.append_assoc]

/-- Nothing comes. -/
theorem extend_nil (decoder : Decoder) : decoder.extend [] = decoder := by simp [extend]

/-! ## Schedules -/

/-- What the user of a decoder does at once. -/
inductive Call where
  /-- Append bytes, and take all items or some of them. -/
  | push (bytes : Bytes) (wanted : Option Nat)
  /-- Append bytes only. -/
  | extend (bytes : Bytes)
  /-- Take all items or some of them. -/
  | frames (wanted : Option Nat)

/-- The bytes that a call appends. -/
def Call.bytes : Call → Bytes
  | push bytes _ => bytes
  | extend bytes => bytes
  | frames _ => []

/-- Take the wanted number of items, or all. -/
def takeWanted (decoder : Decoder) : Option Nat → List Item × Decoder
  | some count => decoder.take count
  | none => decoder.drain

/-- The items of one call. -/
def answer (decoder : Decoder) : Call → List Item × Decoder
  | .push bytes wanted => (decoder.extend bytes).takeWanted wanted
  | .extend bytes => ([], decoder.extend bytes)
  | .frames wanted => decoder.takeWanted wanted

/-- The bytes that a schedule of calls appends. -/
def fedBytes (calls : List Call) : Bytes := calls.flatMap Call.bytes

/-- The items of a schedule of calls. -/
def serve (decoder : Decoder) : List Call → List Item × Decoder
  | [] => ([], decoder)
  | call :: calls =>
    let (items, decoder) := decoder.answer call
    let (others, decoder) := decoder.serve calls
    (items ++ others, decoder)

/-- The items of a schedule of calls at whose end the decoder is drained. -/
def exhaust (decoder : Decoder) (calls : List Call) : List Item × Decoder :=
  let (items, decoder) := decoder.serve calls
  let (others, decoder) := decoder.drain
  (items ++ others, decoder)

/-- A call appends its bytes and then takes a number of items. -/
theorem answer_eq_take (decoder : Decoder) (call : Call) :
    ∃ count, decoder.answer call = (decoder.extend call.bytes).take count := by
  have hw : ∀ (decoder : Decoder) wanted, ∃ count, decoder.takeWanted wanted =
      decoder.take count := fun decoder wanted => by
    cases wanted with
    | some count => exact ⟨count, rfl⟩
    | none => exact ⟨_, rfl⟩
  cases call with
  | push bytes wanted => exact hw _ wanted
  | extend bytes => exact ⟨0, rfl⟩
  | frames wanted =>
    obtain ⟨count, hc⟩ := hw decoder wanted
    exact ⟨count, by rw [Call.bytes, extend_nil]; exact hc⟩

/-- The bytes of the first call come first. -/
theorem fedBytes_cons (call : Call) (calls : List Call) :
    fedBytes (call :: calls) = call.bytes ++ fedBytes calls := List.flatMap_cons

/-- A schedule that ends with draining begins with the items of its first call. -/
theorem exhaust_cons (decoder : Decoder) (call : Call) (calls : List Call) :
    decoder.exhaust (call :: calls) =
      ((decoder.answer call).1 ++ ((decoder.answer call).2.exhaust calls).1,
        ((decoder.answer call).2.exhaust calls).2) := by
  simp only [exhaust, serve, List.append_assoc]

/-- A schedule without an item about size yields what all its bytes yield at once. -/
theorem exhaust_eq_drain {calls : List Call} {decoder : Decoder}
    (h : NoneTooLarge (decoder.exhaust calls).1) :
    decoder.exhaust calls = (decoder.extend (fedBytes calls)).drain := by
  induction calls generalizing decoder with
  | nil => simp [exhaust, serve, fedBytes, extend]
  | cons call calls ih =>
    rw [exhaust_cons] at h ⊢
    obtain ⟨hitems, hothers⟩ := List.forall_mem_append.mp h
    obtain ⟨count, hc⟩ := decoder.answer_eq_take call
    rw [hc] at hitems hothers ⊢
    rw [ih hothers, fedBytes_cons, ← extend_extend, drain_extend hitems]

/-- Two schedules that append the same bytes yield the same items and leave the same number of
bytes over, if neither tells that something is too large. -/
theorem exhaust_congr (limit : Nat) {first second : List Call}
    (hbytes : fedBytes first = fedBytes second)
    (hfirst : NoneTooLarge (exhaust { limit } first).1)
    (hsecond : NoneTooLarge (exhaust { limit } second).1) :
    (exhaust { limit } first).1 = (exhaust { limit } second).1 ∧
      (exhaust { limit } first).2.buffered = (exhaust { limit } second).2.buffered := by
  rw [exhaust_eq_drain hfirst, exhaust_eq_drain hsecond, hbytes]
  exact ⟨rfl, rfl⟩

/-- Output, a sized message and an unknown token, cut inside a token and inside a payload. -/
theorem exhaust_congr_cut_token :
    let whole := Text.Utf8.encode "hi>Line<3\x00[\n]\n>Exit<7\r\n>Bogus<\n"
    let first : List Call := [.push whole none]
    let second : List Call :=
      [.extend (whole.take 5), .push ((whole.drop 5).take 7) (some 1), .frames (some 0),
        .push ((whole.drop 12).take 9) none, .extend (whole.drop 21)]
    fedBytes first = fedBytes second ∧
      NoneTooLarge (exhaust { limit := 16 } first).1 ∧
      NoneTooLarge (exhaust { limit := 16 } second).1 ∧
      (exhaust { limit := 16 } first).1 = (exhaust { limit := 16 } second).1 ∧
      (exhaust { limit := 16 } first).2.buffered = (exhaust { limit := 16 } second).2.buffered := by
  intro whole first second
  have hb : fedBytes first = fedBytes second := by decide +kernel
  have h1 : NoneTooLarge (exhaust { limit := 16 } first).1 := by decide +kernel
  have h2 : NoneTooLarge (exhaust { limit := 16 } second).1 := by decide +kernel
  exact ⟨hb, h1, h2, exhaust_congr 16 hb h1 h2⟩

end Decoder

end DebugLink.Wire
