import DebugLink.Proofs.Wire.Chunking
import Mathlib.Data.Nat.Digits.Defs

/-!
# The form of messages

Behind its token a message has one of two forms: a length, a zero byte and a payload of that
length, or a line that does not look like that. A newline ends both. The decoder reads as messages
exactly the bytes of these forms, and it takes those bytes and no others. What it cannot read it
leaves where it is.
-/

namespace DebugLink.Wire

open Text

/-- The number that decimal digits denote. -/
def digitsValue (digits : Bytes) : Nat :=
  Nat.ofDigits 10 (digits.reverse.map fun b => b.toNat - 48)

/-- Decimal digits are a length. -/
structure IsLength (digits : Bytes) (length : Nat) : Prop where
  /-- There are digits only. -/
  digit : ∀ b ∈ digits, isDigit b = true
  /-- There is a digit. -/
  nonempty : digits ≠ []
  /-- There are no more than twenty. -/
  few : digits.length ≤ 20
  /-- They denote the length. -/
  value : digitsValue digits = length

/-- The line begins like a payload with a length. -/
def LooksSized (line : Bytes) : Prop :=
  ∃ digits rest, line = digits ++ 0 :: rest ∧ digits ≠ [] ∧ ∀ b ∈ digits, isDigit b = true

/-- The bytes are a message in front of others. -/
inductive IsMessage (limit : Nat) (message : Message) (rest : Bytes) : Bytes → Prop
  /-- The payload comes behind its length, which is not larger than allowed. -/
  | sized (digits : Bytes) (hlength : IsLength digits (Utf8.encode message.payload).length)
      (hlimit : (Utf8.encode message.payload).length ≤ limit) :
      IsMessage limit message rest (tokenBytes message.word ++
        (digits ++ 0 :: (Utf8.encode message.payload ++ newline :: rest)))
  /-- The payload is a line, without the carriage return that may end it. -/
  | line (line : Bytes) (hline : newline ∉ line) (hsized : ¬ LooksSized line)
      (hpayload : dropReturn line = Utf8.encode message.payload) :
      IsMessage limit message rest (tokenBytes message.word ++ (line ++ newline :: rest))

/-! ## Lengths -/

/-- Reading digit by digit yields the number that the digits denote. -/
theorem foldl_eq_digitsValue (digits : Bytes) :
    digits.foldl (fun n b => n * 10 + (b.toNat - 48)) 0 = digitsValue digits := by
  rw [← List.reverse_reverse digits, List.foldl_reverse, digitsValue, List.reverse_reverse]
  induction digits.reverse with
  | nil => rfl
  | cons b digits ih =>
    rw [List.foldr_cons, ih, List.map_cons, Nat.ofDigits_cons]
    omega

/-- Digits are read as a length when there are few, and their number can be counted to. -/
theorem readLength?_eq_some_iff {digits : Bytes} {length : Nat} :
    readLength? digits = some length ↔
      digits.length ≤ 20 ∧ digitsValue digits = length ∧ length ≤ maxLength := by
  rw [readLength?, foldl_eq_digitsValue, lengthDigits]
  by_cases hfew : digits.length > 20
  · rw [if_pos hfew]
    constructor
    · exact nofun
    · intro h
      omega
  · rw [if_neg hfew]
    dsimp only
    split_ifs with hmax
    · rw [Option.some.injEq]
      constructor
      · rintro rfl
        exact ⟨by omega, rfl, hmax⟩
      · exact fun h => h.2.1
    · constructor
      · exact nofun
      · rintro ⟨-, rfl, hle⟩
        exact absurd hle hmax

/-! ## Bodies -/

/-- A sized body is a message when the payload has the length and a newline follows. -/
theorem decodeSized_eq_message_iff {word : Word} {length : Nat} {body rest : Bytes}
    {message : Message} :
    decodeSized word length body = .frame (.message message) rest ↔
      word = message.word ∧ length = (Utf8.encode message.payload).length ∧
        body = Utf8.encode message.payload ++ newline :: rest := by
  constructor
  · intro h
    unfold decodeSized at h
    cases hd : body.drop length with
    | nil =>
      rw [hd] at h
      cases h
    | cons b behind =>
      simp only [hd] at h
      split_ifs at h with hb
      cases hp : Utf8.decode? (body.take length) with
      | none =>
        rw [hp] at h
        cases h
      | some payload =>
        rw [hp] at h
        cases h
        have ht := Utf8.decode?_eq_some_iff.mp hp
        have hlt : length < body.length := by
          by_contra hge
          rw [List.drop_eq_nil_of_le (by omega)] at hd
          cases hd
        refine ⟨rfl, ?_, ?_⟩
        · rw [← ht, List.length_take]
          omega
        · rw [← ht, ← not_not.mp hb, ← hd, List.take_append_drop]
  · rintro ⟨rfl, rfl, rfl⟩
    rw [decodeSized, List.drop_left, List.take_left, Utf8.decode?_encode]
    simp

/-- A line is a message when its bytes are those of a text. -/
theorem decodeLine_eq_message_iff {limit : Nat} {word : Word} {body rest : Bytes}
    {message : Message} :
    decodeLine limit word body = .frame (.message message) rest ↔
      word = message.word ∧ ∃ line, newline ∉ line ∧ body = line ++ newline :: rest ∧
        dropReturn line = Utf8.encode message.payload := by
  constructor
  · intro h
    unfold decodeLine at h
    cases hs : splitLine? body with
    | none =>
      simp only [hs] at h
      split_ifs at h
    | some parts =>
      obtain ⟨line, behind⟩ := parts
      obtain ⟨hline, hbody⟩ := splitLine?_eq_some_iff.mp hs
      simp only [hs] at h
      cases hp : Utf8.decode? (dropReturn line) with
      | none =>
        rw [hp] at h
        cases h
      | some payload =>
        rw [hp] at h
        cases h
        exact ⟨rfl, line, hline, hbody, Utf8.decode?_eq_some_iff.mp hp⟩
  · rintro ⟨rfl, line, hline, hbody, hp⟩
    rw [decodeLine, splitLine?_eq_some_iff.mpr ⟨hline, hbody⟩]
    dsimp only
    rw [hp, Utf8.decode?_encode]

/-- A line that does not look like a payload with a length is read as a line. -/
theorem decodeBody_line {line : Bytes} (hsized : ¬ LooksSized line) (limit : Nat) (word : Word)
    (rest : Bytes) :
    decodeBody limit word (line ++ newline :: rest) =
      decodeLine limit word (line ++ newline :: rest) := by
  rcases digits_cases line with hall | ⟨digits, b, behind, rfl, hd, hb⟩
  · rw [decodeBody_mixed hall (by decide), if_pos (.inr (by decide))]
  · rw [List.append_assoc, List.cons_append, decodeBody_mixed hd hb, if_pos]
    by_contra hlooks
    rw [not_or, not_not] at hlooks
    obtain ⟨hne, rfl⟩ := hlooks
    exact hsized ⟨digits, behind, rfl, hne, hd⟩

/-- The body of a message has one of the two forms. -/
theorem isMessage_of_decodeBody {limit : Nat} {word : Word} {body rest : Bytes}
    {message : Message} (h : decodeBody limit word body = .frame (.message message) rest) :
    IsMessage limit message rest (tokenBytes word ++ body) := by
  rcases digits_cases body with hall | ⟨digits, b, behind, rfl, hd, hb⟩
  · rw [decodeBody_digits hall] at h
    split_ifs at h
  · rw [decodeBody_mixed hd hb] at h
    split_ifs at h with hkind
    · obtain ⟨rfl, line, hline, hbody, hp⟩ := decodeLine_eq_message_iff.mp h
      rw [hbody]
      refine .line line hline ?_ hp
      -- The digits in front of the zero byte would be those in front of the byte that decides.
      rintro ⟨others, more, rfl, hne, hdigits⟩
      rw [List.append_assoc, List.cons_append] at hbody
      have hsame : digits = others := by
        rw [← takeWhile_isDigit hd hb behind, hbody, takeWhile_isDigit hdigits (by decide)]
      subst hsame
      have hzero := (List.cons.inj (List.append_cancel_left hbody)).1
      exact hkind.elim hne fun hb => hb hzero
    · rw [not_or, not_not] at hkind
      obtain ⟨hne, rfl⟩ := hkind
      cases hr : readLength? digits with
      | none =>
        rw [hr] at h
        cases h
      | some length =>
        simp only [hr] at h
        split_ifs at h with hlimit
        obtain ⟨rfl, rfl, rfl⟩ := decodeSized_eq_message_iff.mp h
        obtain ⟨hfew, hvalue, -⟩ := readLength?_eq_some_iff.mp hr
        exact .sized digits ⟨hd, hne, hfew, hvalue⟩ (Nat.le_of_not_gt hlimit)

/-! ## Whole messages -/

/-- Output is no message. -/
theorem decodeOutput_ne_message (limit : Nat) (bytes rest : Bytes) (message : Message) :
    decodeOutput limit bytes ≠ .frame (.message message) rest := by
  unfold decodeOutput
  split
  case h_4 => split_ifs <;> exact nofun
  all_goals exact nofun

/-- What is read as a message has one of the two forms. -/
theorem isMessage_of_decode {limit : Nat} {bytes rest : Bytes} {message : Message}
    (h : decode limit bytes = .frame (.message message) rest) :
    IsMessage limit message rest bytes := by
  by_cases hne : bytes = []
  · subst hne
    cases h
  cases hs : scanToken bytes with
  | word word width =>
    obtain ⟨body, rfl, -⟩ := scanToken_eq_word_iff.mp hs
    rw [decode_tokenBytes] at h
    exact isMessage_of_decodeBody h
  | incomplete | unknown | unterminated => simp [decode, hne, hs] at h
  | notToken =>
    simp only [decode, List.isEmpty_iff, hne, if_false, hs] at h
    exact absurd h (decodeOutput_ne_message limit bytes rest message)

/-- What has one of the two forms is read as a message, if its bytes can be counted. -/
theorem decode_of_isMessage {limit : Nat} {bytes rest : Bytes} {message : Message}
    (h : IsMessage limit message rest bytes) (hcount : bytes.length ≤ maxLength) :
    decode limit bytes = .frame (.message message) rest := by
  cases h with
  | sized digits hlength hlimit =>
    simp only [List.length_append, List.length_cons] at hcount
    have hread : readLength? digits = some (Utf8.encode message.payload).length :=
      readLength?_eq_some_iff.mpr ⟨hlength.few, hlength.value, by omega⟩
    rw [decode_tokenBytes, decodeBody_mixed hlength.digit (by decide),
      if_neg (by simp [hlength.nonempty]), hread]
    dsimp only
    rw [if_neg (by omega), if_neg (by rw [sizedWidth]; omega)]
    exact decodeSized_eq_message_iff.mpr ⟨rfl, rfl, rfl⟩
  | line line hline hsized hpayload =>
    rw [decode_tokenBytes, decodeBody_line hsized]
    exact decodeLine_eq_message_iff.mpr ⟨rfl, line, hline, rfl, hpayload⟩

namespace Decoder

/-- Each frame takes a byte at least out of the buffer. -/
theorem countP_take_le (count : Nat) (decoder : Decoder) :
    (decoder.take count).1.countP (·.isOk) + (decoder.take count).2.buffer.length ≤
      decoder.buffer.length := by
  induction count generalizing decoder with
  | zero => simp [take]
  | succ count ih =>
    cases hn : decoder.next with
    | mk found next =>
      cases found with
      | none => simp [take_of_next_none hn]
      | some item =>
        have hnext := ih next
        rw [take_of_next_some hn]
        dsimp only
        obtain ⟨-, ⟨frame, rest, hd, rfl, rfl⟩ | ⟨fault, -, rfl, rfl⟩⟩ := cases_of_next_some hn
        · have hlt := length_lt_of_decode hd
          rw [List.countP_cons_of_pos (by rfl)]
          dsimp only at hnext
          omega
        · rw [List.countP_cons_of_neg (by exact Bool.false_ne_true)]
          exact hnext

/-- Only a frame takes bytes out of the buffer. -/
theorem buffer_of_next {decoder next : Decoder} {found : Option Item}
    (h : decoder.next = (found, next)) (hn : ∀ frame, found ≠ some (.ok frame)) :
    next.buffer = decoder.buffer := by
  cases found with
  | none => rw [eq_of_next_none h]
  | some item =>
    obtain ⟨-, ⟨frame, -, -, rfl, -⟩ | ⟨fault, -, -, rfl⟩⟩ := cases_of_next_some h
    · exact absurd rfl (hn frame)
    · rfl

end Decoder

/-- The decoder reads bytes as they are meant, and takes what it reads. -/
structure ReadsExactly (limit : Nat) (bytes : Bytes) : Prop where
  /-- What is read as a message is what has the form of one. -/
  message : ∀ message rest,
    decode limit bytes = .frame (.message message) rest ↔ IsMessage limit message rest bytes
  /-- A frame takes bytes from the front, one at least. -/
  taken : ∀ frame rest, decode limit bytes = .frame frame rest →
    ∃ taken, taken ≠ [] ∧ bytes = taken ++ rest
  /-- There are no more frames than bytes. -/
  frames : ∀ failed count,
    ((Decoder.mk limit bytes failed).take count).1.countP (·.isOk) ≤ bytes.length
  /-- Where there is no frame, the bytes stay. -/
  unchanged : ∀ failed found next, (Decoder.mk limit bytes failed).next = (found, next) →
    (∀ frame, found ≠ some (.ok frame)) → next.buffer = bytes

/-- Bytes that can be counted, as those in a memory can, are read as they are meant. -/
theorem readsExactly (limit : Nat) {bytes : Bytes} (h : bytes.length ≤ maxLength) :
    ReadsExactly limit bytes where
  message _ _ := ⟨isMessage_of_decode, fun hm => decode_of_isMessage hm h⟩
  taken _ _ := taken_of_decode
  frames failed count :=
    Nat.le_of_add_right_le (Decoder.countP_take_le count ⟨limit, bytes, failed⟩)
  unchanged _ _ _ := Decoder.buffer_of_next

/-- A length with leading zeros, whose payload looks like a message. -/
theorem readsExactly_leadingZeros :
    (Utf8.encode ">Line<007\x00>Line<\n\nrest").length ≤ maxLength ∧
      ReadsExactly 16 (Utf8.encode ">Line<007\x00>Line<\n\nrest") := by
  have h : (Utf8.encode ">Line<007\x00>Line<\n\nrest").length ≤ maxLength := by decide +kernel
  exact ⟨h, readsExactly 16 h⟩

end DebugLink.Wire
