import DebugLink.Proofs.Text.Numeral
import DebugLink.Proofs.Wire.Stability
import Mathlib.Algebra.Group.Nat.Defs

/-!
# A written message is read back

The length in front of a payload is read as the number that was written, so the payload is
cut where it ends, whatever bytes it holds. A message without a payload is a line of its own.
A message of which only a part has arrived is never called too large, since neither its
digits nor its payload are longer than the payload may be.
-/

namespace DebugLink.Wire

open Text

/-- Whether something is called too large. -/
def Decoded.isTooLarge : Decoded → Bool
  | .fault (.tooLarge ..) => true
  | _ => false

/-- The bytes of a message. -/
def messageBytes (message : Message) : Bytes :=
  tokenBytes message.word ++ payloadBytes (Utf8.encode message.payload) ++ [newline]

/-- A message that may be written under a limit, and whose bytes can be counted, as those of
every message can that fits into a memory. -/
structure IsWritable (limit : Nat) (message : Message) : Prop where
  /-- The payload is not longer than allowed. -/
  payload_le : (Utf8.encode message.payload).length ≤ limit
  /-- The number of bytes can be counted. -/
  length_le : (messageBytes message).length ≤ maxLength

/-- A message that may be written is written as its bytes. -/
theorem encode_of_isWritable {limit : Nat} {message : Message} (h : IsWritable limit message) :
    encode limit message = .ok (messageBytes message) := by
  have hp := h.payload_le
  rw [encode, if_neg (by omega)]
  rfl

/-! ## Lengths -/

/-- The octets of characters below 128 are their numbers. -/
theorem encodeChars_eq_map {cs : List Char} (h : ∀ c ∈ cs, c.toNat < 0x80) :
    Utf8.encodeChars cs = cs.map fun c => c.toNat.toUInt8 := by
  induction cs with
  | nil => rfl
  | cons c cs ih =>
    obtain ⟨hc, hr⟩ := List.forall_mem_cons.mp h
    rw [Utf8.encodeChars_cons, ih hr, Utf8.encodeChar_ascii hc]
    rfl

/-- The bytes of a length. -/
def lengthBytes (length : Nat) : Bytes := Utf8.encodeChars (Numeral.render length)

/-- The bytes of a length, digit by digit. -/
theorem lengthBytes_eq_map (length : Nat) :
    lengthBytes length = (Numeral.render length).map fun c => c.toNat.toUInt8 :=
  encodeChars_eq_map fun c hc => by
    have hb := Numeral.toNat_of_mem_render hc
    omega

/-- The bytes of a length are digits. -/
theorem isDigit_of_mem_lengthBytes {length : Nat} {b : UInt8} (h : b ∈ lengthBytes length) :
    isDigit b = true := by
  rw [lengthBytes_eq_map, List.mem_map] at h
  obtain ⟨c, hc, rfl⟩ := h
  obtain ⟨hl, hh⟩ := Numeral.toNat_of_mem_render hc
  have hn : c.toNat.toUInt8.toNat = c.toNat := Utf8.toNat_toUInt8 (by omega)
  simp only [isDigit, Bool.and_eq_true, decide_eq_true_eq, UInt8.le_iff_toNat_le,
    UInt8.reduceToNat, hn]
  exact ⟨hl, hh⟩

/-- A length has a digit. -/
theorem lengthBytes_ne_nil (length : Nat) : lengthBytes length ≠ [] := by
  rw [lengthBytes_eq_map, Numeral.render]
  simp

/-- A length has fewer digits than it counts, or one. -/
theorem length_lengthBytes_le {length count : Nat} (hc : 0 < count) (h : length < 10 ^ count) :
    (lengthBytes length).length ≤ count := by
  rw [lengthBytes_eq_map, List.length_map]
  exact (Nat.length_toDigits_le_iff (by decide) hc).mpr h

/-- The digits of a length denote it. -/
theorem foldl_lengthBytes (length : Nat) :
    (lengthBytes length).foldl (fun n b => n * 10 + (b.toNat - 48)) 0 = length := by
  have hfold : ∀ (cs : List Char), (∀ c ∈ cs, 48 ≤ c.toNat ∧ c.toNat ≤ 57) → ∀ init,
      (cs.map fun c => c.toNat.toUInt8).foldl (fun n b => n * 10 + (b.toNat - 48)) init =
        Nat.ofDigitChars 10 cs init := by
    intro cs
    induction cs with
    | nil => exact fun _ _ => rfl
    | cons c cs ih =>
      intro h init
      obtain ⟨⟨hl, hh⟩, hr⟩ := List.forall_mem_cons.mp h
      rw [List.map_cons, List.foldl_cons, ih hr, Nat.ofDigitChars_cons,
        Utf8.toNat_toUInt8 (by omega), Nat.mul_comm]
      rfl
  rw [lengthBytes_eq_map, hfold _ (fun c hc => Numeral.toNat_of_mem_render hc)]
  exact Nat.ofDigitChars_ten_toDigits

/-- A length that can be counted is read as it was written. -/
theorem readLength?_lengthBytes {length : Nat} (h : length ≤ maxLength) :
    readLength? (lengthBytes length) = some length := by
  have hl : (lengthBytes length).length ≤ lengthDigits :=
    length_lengthBytes_le (by decide) (Nat.lt_of_le_of_lt h (by decide))
  rw [readLength?, if_neg (by omega), foldl_lengthBytes]
  exact if_pos h

/-! ## Messages -/

/-- The bytes behind the token of a message without a payload. -/
theorem payloadBytes_nil : payloadBytes [] = [] := rfl

/-- The bytes behind the token of a message with a payload. -/
theorem payloadBytes_of_ne_nil {payload : Bytes} (h : payload ≠ []) :
    payloadBytes payload = lengthBytes payload.length ++ 0 :: payload := by
  rw [payloadBytes, if_neg (by simpa using h)]
  rfl

/-- A line without bytes is a message without a payload. -/
theorem decodeBody_newline (limit : Nat) (word : Word) (rest : Bytes) :
    decodeBody limit word (newline :: rest) = .frame (.message ⟨word, ""⟩) rest := by
  rw [← List.nil_append (newline :: rest), decodeBody_mixed (by simp) (by decide),
    if_pos (.inl rfl), List.nil_append, decodeLine,
    splitLine?_eq_some_iff.mpr (show newline ∉ [] ∧ newline :: rest = [] ++ newline :: rest by
      simp)]
  rfl

/-- Bytes behind a length that is allowed are the sized body of a message. -/
theorem decodeBody_lengthBytes {limit length : Nat} {word : Word} (hlimit : length ≤ limit)
    (hmax : sizedWidth word (lengthBytes length).length length ≤ maxLength) (rest : Bytes) :
    decodeBody limit word (lengthBytes length ++ 0 :: rest) = decodeSized word length rest := by
  have hl : length ≤ maxLength := by
    rw [sizedWidth] at hmax
    omega
  rw [decodeBody_mixed (fun b => isDigit_of_mem_lengthBytes) (by decide),
    if_neg (by simp [lengthBytes_ne_nil]), readLength?_lengthBytes hl]
  dsimp only
  rw [if_neg (by omega), if_neg (by omega)]

/-- The body of a sized message is its payload. -/
theorem decodeSized_encode (word : Word) (payload : String) (rest : Bytes) :
    decodeSized word (Utf8.encode payload).length (Utf8.encode payload ++ newline :: rest) =
      .frame (.message ⟨word, payload⟩) rest := by
  rw [decodeSized, List.drop_left, List.take_left, Utf8.decode?_encode]
  simp

/-- The sizes of a message with a payload. -/
theorem sizedWidth_le {limit : Nat} {message : Message} (h : IsWritable limit message)
    (hne : Utf8.encode message.payload ≠ []) :
    sizedWidth message.word (lengthBytes (Utf8.encode message.payload).length).length
      (Utf8.encode message.payload).length ≤ maxLength := by
  have hl := h.length_le
  rw [messageBytes, payloadBytes_of_ne_nil hne] at hl
  simp only [List.length_append, List.length_cons, List.length_nil] at hl
  rw [sizedWidth]
  omega

/-- The bytes of a message are read as the message, whatever follows. -/
theorem decode_messageBytes {limit : Nat} {message : Message} (h : IsWritable limit message)
    (rest : Bytes) :
    decode limit (messageBytes message ++ rest) = .frame (.message message) rest := by
  rw [messageBytes, List.append_assoc, List.append_assoc, decode_tokenBytes]
  by_cases hne : Utf8.encode message.payload = []
  · have hp : message.payload = "" := Utf8.encode_injective hne
    rw [hne, payloadBytes_nil, List.nil_append, List.singleton_append, decodeBody_newline, ← hp]
  · rw [payloadBytes_of_ne_nil hne, List.append_assoc, List.singleton_append, List.cons_append,
      decodeBody_lengthBytes h.payload_le (sizedWidth_le h hne), decodeSized_encode]

/-! ## Parts of messages -/

/-- A part of a token is left open. -/
theorem scanToken_part {word : Word} {part more : Bytes} (hpart : part ≠ []) (hmore : more ≠ [])
    (h : part ++ more = tokenBytes word) : scanToken part = .incomplete := by
  obtain ⟨hl, -, hlt⟩ := name_bytes word
  obtain ⟨b, letters, rfl⟩ := List.exists_cons_of_ne_nil hpart
  rw [tokenBytes_eq, List.cons_append, List.cons.injEq] at h
  obtain ⟨rfl, hname⟩ := h
  obtain ⟨front, last, rfl⟩ := (List.eq_nil_or_concat more).resolve_left hmore
  rw [List.concat_eq_append, ← List.append_assoc] at hname
  have hfront := (List.append_inj' hname rfl).1
  have hletters : ∀ b ∈ letters, isLetter b = true := fun b hb =>
    hl b (hfront ▸ List.mem_append_left front hb)
  have hroom : letters.length < tokenWindow - 1 := by
    rw [← hfront, List.length_append] at hlt
    omega
  obtain ⟨room, hr⟩ := Nat.exists_eq_add_of_lt hroom
  have hs := scanName_letters hletters [] (room + 1) []
  rw [List.append_nil] at hs
  rw [scanToken, if_pos rfl, hr, Nat.add_assoc, hs]
  rfl

/-- The part of a sized body is never called too large. -/
theorem decodeSized_isTooLarge (word : Word) (length : Nat) (body : Bytes) :
    (decodeSized word length body).isTooLarge = false := by
  unfold decodeSized
  split
  · rfl
  · split_ifs
    · rfl
    · split <;> rfl

/-- A part of the digits of a length is not longer than the payload. -/
theorem length_lengthBytes_le_self {length : Nat} (h : 0 < length) :
    (lengthBytes length).length ≤ length :=
  length_lengthBytes_le h (Nat.lt_pow_self (by decide))

/-- A part of a body is never called too large. -/
theorem decodeBody_part {limit : Nat} {message : Message} (h : IsWritable limit message)
    {part more : Bytes} (hmore : more ≠ [])
    (hpart : part ++ more = payloadBytes (Utf8.encode message.payload) ++ [newline]) :
    (decodeBody limit message.word part).isTooLarge = false := by
  have hdigits : ∀ part : Bytes, (∀ b ∈ part, isDigit b = true) → part.length ≤ limit →
      (decodeBody limit message.word part).isTooLarge = false := fun part hd hl => by
    rw [decodeBody_digits hd, if_neg (by omega)]
    rfl
  by_cases hne : Utf8.encode message.payload = []
  · obtain ⟨front, last, rfl⟩ := (List.eq_nil_or_concat more).resolve_left hmore
    rw [hne, payloadBytes_nil, List.concat_eq_append, ← List.append_assoc] at hpart
    obtain ⟨rfl, -⟩ := List.append_eq_nil_iff.mp (List.append_inj' hpart rfl).1
    exact hdigits [] (by simp) (Nat.zero_le _)
  · rw [payloadBytes_of_ne_nil hne, List.append_assoc] at hpart
    have hpos := List.length_pos_of_ne_nil hne
    have hle := length_lengthBytes_le_self hpos
    rcases List.append_eq_append_iff.mp hpart with ⟨others, hd, -⟩ | ⟨behind, rfl, hb⟩
    · refine hdigits part (fun b hb => ?_) ?_
      · have hm := List.mem_append_left others hb
        rw [← hd] at hm
        exact isDigit_of_mem_lengthBytes hm
      · rw [hd, List.length_append] at hle
        have hp := h.payload_le
        omega
    · cases behind with
      | nil =>
        rw [List.append_nil]
        exact hdigits _ (fun b => isDigit_of_mem_lengthBytes) (Nat.le_trans hle h.payload_le)
      | cons b behind =>
        rw [List.cons_append, List.cons_append, List.cons.injEq] at hb
        rw [← hb.1, decodeBody_lengthBytes h.payload_le (sizedWidth_le h hne)]
        exact decodeSized_isTooLarge _ _ _

/-- A part of a message is never called too large. -/
theorem decode_part_messageBytes {limit : Nat} {message : Message}
    (h : IsWritable limit message) {part more : Bytes} (hmore : more ≠ [])
    (hpart : part ++ more = messageBytes message) : (decode limit part).isTooLarge = false := by
  by_cases hp : part = []
  · subst hp
    rfl
  rw [messageBytes, List.append_assoc] at hpart
  rcases List.append_eq_append_iff.mp hpart with ⟨others, ht, -⟩ | ⟨body, rfl, hb⟩
  · by_cases ho : others = []
    · rw [ho, List.append_nil] at ht
      rw [← ht, ← List.append_nil (tokenBytes message.word), decode_tokenBytes]
      exact decodeBody_part h (by simp) (List.nil_append (payloadBytes _ ++ [newline]))
    · rw [decode, scanToken_part hp ho ht.symm]
      simp [hp, Decoded.isTooLarge]
  · rw [decode_tokenBytes]
    exact decodeBody_part h hmore hb.symm

end DebugLink.Wire
