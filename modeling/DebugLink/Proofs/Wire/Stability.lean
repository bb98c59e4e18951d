import DebugLink.Proofs.Wire.Token

/-!
# What has been decoded stays decoded

Once bytes amount to a frame or to a fault, more bytes behind them amount to the same, and
are left over behind what the frame left. Two answers are not of this kind: that more bytes
are needed, and that what has been collected without an end is too large. A frame takes a
front part of the bytes that is not empty.
-/

namespace DebugLink.Wire

open Text

/-- Whether more bytes cannot change the answer. -/
def Decoded.isSettled : Decoded → Bool
  | .needMore _ => false
  | .fault (.tooLarge ..) => false
  | _ => true

/-- The same answer for bytes with more behind them. -/
def Decoded.append (more : Bytes) : Decoded → Decoded
  | .frame first rest => .frame first (rest ++ more)
  | .needMore count => .needMore count
  | .fault reason => .fault reason

/-! ## Lines -/

/-- A line ends at the first newline. -/
theorem splitLine?_eq_some_iff {bytes line rest : Bytes} :
    splitLine? bytes = some (line, rest) ↔ newline ∉ line ∧ bytes = line ++ newline :: rest := by
  induction bytes generalizing line with
  | nil => simp [splitLine?]
  | cons b bytes ih =>
    by_cases hb : b = newline
    · subst hb
      cases line with
      | nil => simp [splitLine?, eq_comm]
      | cons c line =>
        simp only [splitLine?, List.mem_cons, not_or, List.cons_append, List.cons.injEq]
        constructor
        · simp
        · rintro ⟨⟨hc, -⟩, he, -⟩
          exact absurd he hc
    · have hs : splitLine? (b :: bytes) = (splitLine? bytes).map fun p => (b :: p.1, p.2) := by
        rw [splitLine?, splitLine?, List.dropWhile_cons_of_pos (by simpa using hb),
          List.takeWhile_cons_of_pos (by simpa using hb)]
        split <;> rfl
      rw [hs]
      cases line with
      | nil => simp [hb]
      | cons c line =>
        simp only [Option.map_eq_some_iff, Prod.exists, Prod.mk.injEq, List.cons.injEq,
          List.mem_cons, not_or, List.cons_append]
        constructor
        · rintro ⟨front, back, he, ⟨rfl, rfl⟩, rfl⟩
          obtain ⟨hm, hbytes⟩ := ih.mp he
          exact ⟨⟨Ne.symm hb, hm⟩, rfl, hbytes⟩
        · rintro ⟨⟨_, hm⟩, rfl, hbytes⟩
          exact ⟨line, rest, ih.mpr ⟨hm, hbytes⟩, ⟨rfl, rfl⟩, rfl⟩

/-! ## Bodies of messages -/

/-- The body of a sized message is read the same with more behind it. -/
theorem decodeSized_append {word : Word} {length : Nat} {body : Bytes}
    (h : (decodeSized word length body).isSettled = true) (more : Bytes) :
    decodeSized word length (body ++ more) = (decodeSized word length body).append more := by
  unfold decodeSized at h ⊢
  cases hd : body.drop length with
  | nil => simp [hd, Decoded.isSettled] at h
  | cons b rest =>
    have hl : length < body.length := by
      by_contra hge
      rw [List.drop_eq_nil_of_le (by omega)] at hd
      cases hd
    rw [List.drop_append_of_le_length (Nat.le_of_lt hl),
      List.take_append_of_le_length (Nat.le_of_lt hl), hd, List.cons_append]
    dsimp only
    split_ifs
    · rfl
    · cases Utf8.decode? (body.take length) <;> rfl

/-- The frame of a sized message takes the payload and a newline. -/
theorem taken_of_decodeSized {word : Word} {length : Nat} {body rest : Bytes} {frame : Frame}
    (h : decodeSized word length body = .frame frame rest) :
    ∃ taken, taken ≠ [] ∧ body = taken ++ rest := by
  unfold decodeSized at h
  cases hd : body.drop length with
  | nil => simp [hd] at h
  | cons b behind =>
    simp only [hd] at h
    split_ifs at h
    have hr : behind = rest := by
      cases hp : Utf8.decode? (body.take length) <;> simp_all
    refine ⟨body.take length ++ [b], by simp, ?_⟩
    rw [← hr, List.append_assoc, List.singleton_append, ← hd, List.take_append_drop]

/-- The line of a message is read the same with more behind it. -/
theorem decodeLine_append {limit : Nat} {word : Word} {body : Bytes}
    (h : (decodeLine limit word body).isSettled = true) (more : Bytes) :
    decodeLine limit word (body ++ more) = (decodeLine limit word body).append more := by
  unfold decodeLine at h ⊢
  cases hs : splitLine? body with
  | none =>
    simp only [hs] at h
    split_ifs at h <;> simp [Decoded.isSettled] at h
  | some p =>
    obtain ⟨hn, hb⟩ := splitLine?_eq_some_iff.mp hs
    have hs' : splitLine? (body ++ more) = some (p.1, p.2 ++ more) :=
      splitLine?_eq_some_iff.mpr ⟨hn, by rw [hb]; simp⟩
    simp only [hs']
    cases Utf8.decode? (dropReturn p.1) <;> rfl

/-- The frame of a line takes the line and its newline. -/
theorem taken_of_decodeLine {limit : Nat} {word : Word} {body rest : Bytes} {frame : Frame}
    (h : decodeLine limit word body = .frame frame rest) :
    ∃ taken, taken ≠ [] ∧ body = taken ++ rest := by
  unfold decodeLine at h
  cases hs : splitLine? body with
  | none =>
    simp only [hs] at h
    split_ifs at h
  | some p =>
    obtain ⟨line, behind⟩ := p
    obtain ⟨-, hb⟩ := splitLine?_eq_some_iff.mp hs
    simp only [hs] at h
    have hr : behind = rest := by
      cases hp : Utf8.decode? (dropReturn line) <;> simp_all
    exact ⟨line ++ [newline], by simp, by rw [hb, hr]; simp⟩

/-- The digits in front of a byte that is none. -/
theorem takeWhile_isDigit {digits : Bytes} (hd : ∀ b ∈ digits, isDigit b = true) {b : UInt8}
    (hb : isDigit b = false) (rest : Bytes) :
    (digits ++ b :: rest).takeWhile isDigit = digits := by
  rw [List.takeWhile_append_of_pos hd, List.takeWhile_cons_of_neg (by simp [hb]),
    List.append_nil]

/-- What is behind the digits in front of a byte that is none. -/
theorem dropWhile_isDigit {digits : Bytes} (hd : ∀ b ∈ digits, isDigit b = true) {b : UInt8}
    (hb : isDigit b = false) (rest : Bytes) :
    (digits ++ b :: rest).dropWhile isDigit = b :: rest := by
  rw [List.dropWhile_append_of_pos hd, List.dropWhile_cons_of_neg (by simp [hb])]

/-- Bytes are digits throughout, or there is a first byte that is none. -/
theorem digits_cases (bytes : Bytes) :
    (∀ b ∈ bytes, isDigit b = true) ∨
      ∃ digits b rest, bytes = digits ++ b :: rest ∧ (∀ b ∈ digits, isDigit b = true) ∧
        isDigit b = false := by
  induction bytes with
  | nil => exact .inl (by simp)
  | cons b bytes ih =>
    by_cases hb : isDigit b = true
    · rcases ih with hall | ⟨digits, c, rest, rfl, hd, hc⟩
      · exact .inl (List.forall_mem_cons.mpr ⟨hb, hall⟩)
      · exact .inr ⟨b :: digits, c, rest, rfl, List.forall_mem_cons.mpr ⟨hb, hd⟩, hc⟩
    · exact .inr ⟨[], b, bytes, rfl, by simp, by simpa using hb⟩

/-- A body of digits only is left open. -/
theorem decodeBody_digits {body : Bytes} (h : ∀ b ∈ body, isDigit b = true) (limit : Nat)
    (word : Word) :
    decodeBody limit word body =
      if body.length > limit then .fault (.tooLarge body.length limit) else .needMore 1 := by
  have ht : (body ++ []).takeWhile isDigit = body ++ [].takeWhile isDigit :=
    List.takeWhile_append_of_pos h
  have hd : (body ++ []).dropWhile isDigit = [].dropWhile isDigit :=
    List.dropWhile_append_of_pos h
  rw [List.append_nil, List.takeWhile_nil, List.append_nil] at ht
  rw [List.append_nil, List.dropWhile_nil] at hd
  rw [decodeBody, ht, hd]
  cases body with
  | nil => rfl
  | cons b body => rfl

/-- Where a byte that is no digit follows the digits, it decides what they are. -/
theorem decodeBody_mixed {digits : Bytes} (hd : ∀ b ∈ digits, isDigit b = true) {b : UInt8}
    (hb : isDigit b = false) (limit : Nat) (word : Word) (rest : Bytes) :
    decodeBody limit word (digits ++ b :: rest) =
      if digits = [] ∨ b ≠ 0 then decodeLine limit word (digits ++ b :: rest)
      else
        match readLength? digits with
        | none => .fault .malformedLength
        | some length =>
          if length > limit then .fault (.tooLarge length limit)
          else if sizedWidth word digits.length length > maxLength then
            .fault (.missingTerminator word)
          else decodeSized word length rest := by
  rw [decodeBody, takeWhile_isDigit hd hb, dropWhile_isDigit hd hb]
  cases digits with
  | nil => rfl
  | cons d digits =>
    by_cases h0 : b = 0
    · subst h0
      rfl
    · simp [h0]

/-- A body is read the same with more behind it. -/
theorem decodeBody_append {limit : Nat} {word : Word} {body : Bytes}
    (h : (decodeBody limit word body).isSettled = true) (more : Bytes) :
    decodeBody limit word (body ++ more) = (decodeBody limit word body).append more := by
  rcases digits_cases body with hall | ⟨digits, b, rest, rfl, hd, hb⟩
  · rw [decodeBody_digits hall] at h
    split_ifs at h <;> simp [Decoded.isSettled] at h
  · rw [decodeBody_mixed hd hb] at h ⊢
    rw [List.append_assoc, List.cons_append, decodeBody_mixed hd hb]
    split_ifs at h ⊢ with hline
    · rw [← decodeLine_append h]
      simp
    · cases hr : readLength? digits with
      | none => rfl
      | some length =>
        simp only [hr] at h ⊢
        split_ifs at h ⊢
        · rfl
        · rfl
        · exact decodeSized_append h more

/-- The frame of a body takes a part of it. -/
theorem taken_of_decodeBody {limit : Nat} {word : Word} {body rest : Bytes} {frame : Frame}
    (h : decodeBody limit word body = .frame frame rest) :
    ∃ taken, taken ≠ [] ∧ body = taken ++ rest := by
  rcases digits_cases body with hall | ⟨digits, b, behind, rfl, hd, hb⟩
  · rw [decodeBody_digits hall] at h
    split_ifs at h
  · rw [decodeBody_mixed hd hb] at h
    split_ifs at h
    · exact taken_of_decodeLine h
    · cases hr : readLength? digits with
      | none => simp [hr] at h
      | some length =>
        simp only [hr] at h
        split_ifs at h
        obtain ⟨taken, -, ht⟩ := taken_of_decodeSized h
        exact ⟨digits ++ b :: taken, by simp, by rw [ht]; simp⟩

/-! ## Output -/

/-- Whether more bytes cannot change where output ends. -/
def OutputEnd.isSettled : OutputEnd → Bool
  | .token _ | .line _ => true
  | _ => false

/-- Output goes on behind a byte that neither ends the line nor opens a token. -/
theorem seekEnd_plain {b : UInt8} (hn : b ≠ newline) (ho : b ≠ openBracket) (passed : Nat)
    (bytes : Bytes) : seekEnd passed (b :: bytes) = seekEnd (passed + 1) bytes := by
  rw [seekEnd, if_neg hn, if_neg ho]

/-- Output goes on behind a bracket that opens no token, and behind any token at the very
front. -/
theorem seekEnd_bracket {passed : Nat} {bytes : Bytes}
    (hi : scanToken (openBracket :: bytes) ≠ .incomplete)
    (hw : passed ≠ 0 → ∀ word width, scanToken (openBracket :: bytes) ≠ .word word width) :
    seekEnd passed (openBracket :: bytes) = seekEnd (passed + 1) bytes := by
  rw [seekEnd, if_neg (by decide), if_pos rfl]
  cases hs : scanToken (openBracket :: bytes) with
  | word word width =>
    by_cases hp : passed = 0
    · subst hp
      rfl
    · exact absurd hs (hw hp word width)
  | incomplete => exact absurd hs hi
  | unknown | unterminated | notToken => rfl

/-- Output may end in front of bytes that may become a token. -/
theorem seekEnd_incomplete {bytes : Bytes} (h : scanToken (openBracket :: bytes) = .incomplete)
    (passed : Nat) : seekEnd passed (openBracket :: bytes) = .undecided := by
  rw [seekEnd, if_neg (by decide), if_pos rfl, h]

/-- Output that is not empty ends in front of a token. -/
theorem seekEnd_token {passed : Nat} (hp : passed ≠ 0) (word : Word) (rest : Bytes) :
    seekEnd passed (tokenBytes word ++ rest) = .token passed := by
  have hs := scanToken_tokenBytes word rest
  rw [tokenBytes_eq, List.cons_append] at hs ⊢
  rw [seekEnd, if_neg (by decide), if_pos rfl, hs]
  exact if_neg hp

/-- The ways in which the search for the end of output goes on at a byte. -/
theorem seekEnd_cases (passed : Nat) (b : UInt8) (bytes : Bytes) :
    (b = newline ∧ seekEnd passed (b :: bytes) = .line passed) ∨
    (b = openBracket ∧ scanToken (b :: bytes) = .incomplete ∧
      seekEnd passed (b :: bytes) = .undecided) ∨
    (passed ≠ 0 ∧ ∃ word rest, b :: bytes = tokenBytes word ++ rest) ∨
    (∀ more, seekEnd passed (b :: (bytes ++ more)) = seekEnd (passed + 1) (bytes ++ more)) := by
  by_cases hn : b = newline
  · exact .inl ⟨hn, by rw [seekEnd, if_pos hn]⟩
  by_cases ho : b = openBracket
  · subst ho
    by_cases hi : scanToken (openBracket :: bytes) = .incomplete
    · exact .inr (.inl ⟨rfl, hi, seekEnd_incomplete hi passed⟩)
    by_cases hw : passed ≠ 0 ∧ ∃ word width, scanToken (openBracket :: bytes) = .word word width
    · obtain ⟨hp, word, width, hs⟩ := hw
      obtain ⟨rest, hb, -⟩ := scanToken_eq_word_iff.mp hs
      exact .inr (.inr (.inl ⟨hp, word, rest, hb⟩))
    · refine .inr (.inr (.inr fun more => ?_))
      have hs := scanToken_append (List.cons_ne_nil openBracket bytes) hi more
      rw [List.cons_append] at hs
      refine seekEnd_bracket (by rwa [hs]) fun hp word width he => hw ⟨hp, word, width, ?_⟩
      rwa [hs] at he
  · exact .inr (.inr (.inr fun more => seekEnd_plain hn ho passed (bytes ++ more)))

/-- The end of output is found at the same place with more behind it. -/
theorem seekEnd_append {passed : Nat} {bytes : Bytes}
    (h : (seekEnd passed bytes).isSettled = true) (more : Bytes) :
    seekEnd passed (bytes ++ more) = seekEnd passed bytes := by
  induction bytes generalizing passed with
  | nil => simp [seekEnd, OutputEnd.isSettled] at h
  | cons b bytes ih =>
    rw [List.cons_append]
    rcases seekEnd_cases passed b bytes with ⟨rfl, _⟩ | ⟨_, _, hu⟩ | ⟨hp, word, rest, hb⟩ | hgo
    · rfl
    · rw [hu] at h
      cases h
    · rw [← List.cons_append, hb, List.append_assoc, seekEnd_token hp, seekEnd_token hp]
    · have hself := hgo []
      rw [List.append_nil] at hself
      rw [hself] at h ⊢
      rw [hgo, ih h]

/-- Output ends within the bytes, and a token that ends it does not stand at their front. -/
theorem seekEnd_bounds (passed : Nat) (bytes : Bytes) :
    (∀ width, seekEnd passed bytes = .token width →
      passed ≤ width ∧ width < passed + bytes.length ∧ 0 < width) ∧
    (∀ width, seekEnd passed bytes = .line width →
      passed ≤ width ∧ width < passed + bytes.length) := by
  induction bytes generalizing passed with
  | nil => simp [seekEnd]
  | cons b bytes ih =>
    rw [List.length_cons]
    rcases seekEnd_cases passed b bytes with ⟨_, hl⟩ | ⟨_, _, hu⟩ | ⟨hp, word, rest, hb⟩ | hgo
    · rw [hl]
      simp
    · rw [hu]
      simp
    · rw [hb, seekEnd_token hp]
      simp only [OutputEnd.token.injEq, forall_eq', reduceCtorEq, false_implies, implies_true,
        and_true]
      omega
    · have hself := hgo []
      rw [List.append_nil] at hself
      obtain ⟨ht, hl⟩ := ih (passed + 1)
      rw [hself]
      exact ⟨fun width hw => by have := ht width hw; omega,
        fun width hw => by have := hl width hw; omega⟩

/-- Output is read the same with more behind it. -/
theorem decodeOutput_append {limit : Nat} {bytes : Bytes}
    (h : (decodeOutput limit bytes).isSettled = true) (more : Bytes) :
    decodeOutput limit (bytes ++ more) = (decodeOutput limit bytes).append more := by
  obtain ⟨htoken, hline⟩ := seekEnd_bounds 0 bytes
  unfold decodeOutput at h ⊢
  cases hs : seekEnd 0 bytes with
  | token width =>
    obtain ⟨-, hw, -⟩ := htoken width hs
    have hle : width ≤ bytes.length := by omega
    rw [seekEnd_append (by rw [hs]; rfl), hs]
    dsimp only
    rw [List.take_append_of_le_length hle, List.drop_append_of_le_length hle]
    rfl
  | undecided => simp [hs, Decoded.isSettled] at h
  | line width =>
    obtain ⟨-, hw⟩ := hline width hs
    rw [seekEnd_append (by rw [hs]; rfl), hs]
    dsimp only
    rw [List.take_append_of_le_length (by omega), List.drop_append_of_le_length (by omega)]
    rfl
  | later size =>
    simp only [hs] at h
    split_ifs at h <;> simp [Decoded.isSettled] at h

/-- The frame of output takes a part of the bytes. -/
theorem taken_of_decodeOutput {limit : Nat} {bytes rest : Bytes} {frame : Frame}
    (h : decodeOutput limit bytes = .frame frame rest) :
    ∃ taken, taken ≠ [] ∧ bytes = taken ++ rest := by
  obtain ⟨htoken, hline⟩ := seekEnd_bounds 0 bytes
  have hcut : ∀ width, 0 < width → width ≤ bytes.length →
      ∃ taken, taken ≠ [] ∧ bytes = taken ++ bytes.drop width := fun width h0 hw =>
    ⟨bytes.take width, List.ne_nil_of_length_pos (by rw [List.length_take]; omega),
      (List.take_append_drop width bytes).symm⟩
  unfold decodeOutput at h
  cases hs : seekEnd 0 bytes with
  | token width =>
    obtain ⟨-, hw, h0⟩ := htoken width hs
    simp only [hs, Decoded.frame.injEq] at h
    rw [← h.2]
    exact hcut width h0 (by omega)
  | undecided => simp [hs] at h
  | line width =>
    obtain ⟨-, hw⟩ := hline width hs
    simp only [hs, Decoded.frame.injEq] at h
    rw [← h.2]
    exact hcut (width + 1) (by omega) (by omega)
  | later size =>
    simp only [hs] at h
    split_ifs at h

/-! ## Whole frames -/

/-- Bytes behind a token are the body of its message. -/
theorem decode_tokenBytes (limit : Nat) (word : Word) (body : Bytes) :
    decode limit (tokenBytes word ++ body) = decodeBody limit word body := by
  have hne : (tokenBytes word ++ body).isEmpty = false := by
    rw [tokenBytes_eq]
    rfl
  rw [decode, hne, scanToken_tokenBytes]
  simp

/-- What bytes amount to does not change when more come behind them, once it is settled. -/
theorem decode_append {limit : Nat} {bytes : Bytes} (h : (decode limit bytes).isSettled = true)
    (more : Bytes) : decode limit (bytes ++ more) = (decode limit bytes).append more := by
  by_cases hne : bytes = []
  · subst hne
    simp [decode, Decoded.isSettled] at h
  cases hs : scanToken bytes with
  | word word width =>
    obtain ⟨body, rfl, -⟩ := scanToken_eq_word_iff.mp hs
    rw [decode_tokenBytes] at h
    rw [List.append_assoc, decode_tokenBytes, decode_tokenBytes]
    exact decodeBody_append h more
  | incomplete => simp [decode, hne, hs, Decoded.isSettled] at h
  | unknown | unterminated =>
    have hs' := scanToken_append hne (by simp [hs]) more
    simp [decode, hne, hs', hs, Decoded.append]
  | notToken =>
    have hs' := scanToken_append hne (by simp [hs]) more
    simp only [decode, List.isEmpty_iff, hne, List.append_eq_nil_iff, false_and, if_false, hs', hs]
      at h ⊢
    exact decodeOutput_append h more

/-- A frame takes a part of the bytes in front of what it leaves. -/
theorem taken_of_decode {limit : Nat} {bytes rest : Bytes} {frame : Frame}
    (h : decode limit bytes = .frame frame rest) : ∃ taken, taken ≠ [] ∧ bytes = taken ++ rest := by
  by_cases hne : bytes = []
  · subst hne
    simp [decode] at h
  cases hs : scanToken bytes with
  | word word width =>
    obtain ⟨body, rfl, -⟩ := scanToken_eq_word_iff.mp hs
    rw [decode_tokenBytes] at h
    obtain ⟨taken, ht, rfl⟩ := taken_of_decodeBody h
    exact ⟨tokenBytes word ++ taken, by simp [ht], by simp⟩
  | incomplete | unknown | unterminated => simp [decode, hne, hs] at h
  | notToken =>
    simp only [decode, List.isEmpty_iff, hne, if_false, hs] at h
    exact taken_of_decodeOutput h

/-- A frame leaves fewer bytes than there were. -/
theorem length_lt_of_decode {limit : Nat} {bytes rest : Bytes} {frame : Frame}
    (h : decode limit bytes = .frame frame rest) : rest.length < bytes.length := by
  obtain ⟨taken, ht, rfl⟩ := taken_of_decode h
  have hpos := List.length_pos_of_ne_nil ht
  rw [List.length_append]
  omega

end DebugLink.Wire
