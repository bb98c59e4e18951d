import DebugLink.Proofs.Text.Utf8
import DebugLink.Wire.Codec

/-!
# Tokens at the front of bytes

The scan finds a word exactly where the bytes start with its token, and once it has found
out what stands at the front, more bytes behind do not change that. Only bytes that go on
with letters up to their end, and are shorter than the longest token, are left open.
-/

namespace DebugLink

/-- A word is found under no other name than its own. -/
theorem Word.name_of_ofName? {s : String} {word : Word} (h : Word.ofName? s = some word) :
    word.name = s := by
  simpa using List.find?_some h

end DebugLink

namespace DebugLink.Wire

open Text

/-- A letter is a byte below 128. -/
theorem isLetter_lt {b : UInt8} (h : isLetter b = true) : b.toNat < 0x80 := by
  simp only [isLetter, Bool.or_eq_true, Bool.and_eq_true, decide_eq_true_eq,
    UInt8.le_iff_toNat_le] at h
  simp only [UInt8.reduceToNat] at h
  omega

/-- The brackets and the newline are no letters. -/
theorem isLetter_ne {b : UInt8} (h : isLetter b = true) :
    b ≠ closeBracket ∧ b ≠ openBracket ∧ b ≠ newline := by
  refine ⟨?_, ?_, ?_⟩ <;> rintro rfl <;> exact absurd h (by decide)

/-- The bytes of the name of a word are letters, few enough for the scan. -/
theorem name_bytes (word : Word) :
    (∀ b ∈ Utf8.encode word.name, isLetter b = true) ∧ Utf8.encode word.name ≠ [] ∧
      (Utf8.encode word.name).length < tokenWindow - 1 := by
  have hall : (Utf8.encode word.name).all isLetter = true := by cases word <;> rfl
  refine ⟨List.all_eq_true.mp hall, ?_⟩
  cases word <;> decide

/-- A token is the name of its word between brackets. -/
theorem tokenBytes_eq (word : Word) :
    tokenBytes word = openBracket :: (Utf8.encode word.name ++ [closeBracket]) := by
  rw [tokenBytes, Word.token, Utf8.encode, String.toList_append, String.toList_append]
  simp only [Utf8.encodeChars_append, Utf8.encode]
  rfl

/-- How many bytes a token takes. -/
theorem length_tokenBytes (word : Word) :
    (tokenBytes word).length = (Utf8.encode word.name).length + 2 := by
  rw [tokenBytes_eq]
  simp

/-- The scan passes letters, as long as it has room for them. -/
theorem scanName_letters {letters : Bytes} (h : ∀ b ∈ letters, isLetter b = true)
    (name : Bytes) (room : Nat) (bytes : Bytes) :
    scanName name (letters.length + room) (letters ++ bytes) =
      scanName (letters.reverse ++ name) room bytes := by
  induction letters generalizing name with
  | nil => simp
  | cons b letters ih =>
    obtain ⟨hb, hl⟩ := List.forall_mem_cons.mp h
    obtain ⟨hc, _, hn⟩ := isLetter_ne hb
    rw [List.length_cons, Nat.add_right_comm, List.cons_append, scanName, if_neg (by simp [hc]),
      if_neg (by simp [hn]), if_pos hb, ih hl]
    simp

/-- The scan finds the word of a token. -/
theorem scanToken_tokenBytes (word : Word) (rest : Bytes) :
    scanToken (tokenBytes word ++ rest) = .word word (tokenBytes word).length := by
  obtain ⟨hl, hne, hlt⟩ := name_bytes word
  obtain ⟨room, hr⟩ := Nat.exists_eq_add_of_lt hlt
  rw [length_tokenBytes, tokenBytes_eq, List.cons_append, scanToken, if_pos rfl, hr,
    Nat.add_assoc, List.append_assoc, scanName_letters hl, List.append_nil,
    List.singleton_append, scanName, if_pos ⟨rfl, by simpa using hne⟩, List.reverse_reverse,
    Utf8.decodeLossy_encode]
  simp only [Word.ofName?_name, List.length_reverse]

/-- What the scan has read when it finds a word: letters and a closing bracket. -/
theorem bytes_of_scanName {name bytes : Bytes} {room width : Nat} {word : Word}
    (h : scanName name room bytes = .word word width) :
    ∃ letters rest, bytes = letters ++ closeBracket :: rest ∧
      (∀ b ∈ letters, isLetter b = true) ∧
      Word.ofName? (Utf8.decodeLossy (name.reverse ++ letters)) = some word ∧
      width = name.length + letters.length + 2 := by
  induction room generalizing name bytes with
  | zero => simp [scanName] at h
  | succ room ih =>
    cases bytes with
    | nil => simp [scanName] at h
    | cons b bytes =>
      rw [scanName] at h
      split_ifs at h with hc hn hl
      · dsimp only at h
        cases hw : Word.ofName? (Utf8.decodeLossy name.reverse) with
        | none => simp [hw] at h
        | some found =>
          simp only [hw, TokenScan.word.injEq] at h
          refine ⟨[], bytes, by rw [hc.1]; rfl, by simp, ?_, by simpa using h.2.symm⟩
          rw [List.append_nil, hw, h.1]
      · obtain ⟨letters, rest, hb, hls, ho, hw⟩ := ih h
        refine ⟨b :: letters, rest, by rw [hb]; rfl, ?_, ?_, ?_⟩
        · exact List.forall_mem_cons.mpr ⟨hl, hls⟩
        · simpa using ho
        · rw [hw, List.length_cons, List.length_cons]
          omega

/-- A word is found exactly where its token stands. -/
theorem scanToken_eq_word_iff {bytes : Bytes} {word : Word} {width : Nat} :
    scanToken bytes = .word word width ↔
      ∃ rest, bytes = tokenBytes word ++ rest ∧ width = (tokenBytes word).length := by
  constructor
  · intro h
    cases bytes with
    | nil => simp [scanToken] at h
    | cons b bytes =>
      rw [scanToken] at h
      split_ifs at h with hb
      obtain ⟨letters, rest, hs, hl, ho, hw⟩ := bytes_of_scanName h
      have hn := Utf8.encode_decodeLossy fun b hb => isLetter_lt (hl b hb)
      rw [List.reverse_nil, List.nil_append] at ho
      rw [← Word.name_of_ofName? ho] at hn
      refine ⟨rest, ?_, ?_⟩
      · rw [tokenBytes_eq, hn, hb, hs]
        simp
      · rw [length_tokenBytes, hn, hw]
        simp
  · rintro ⟨rest, rfl, rfl⟩
    exact scanToken_tokenBytes word rest

/-- More bytes do not change what the scan of a name has found out. -/
theorem scanName_append {name bytes : Bytes} {room : Nat}
    (h : scanName name room bytes ≠ .incomplete) (more : Bytes) :
    scanName name room (bytes ++ more) = scanName name room bytes := by
  induction room generalizing name bytes with
  | zero => simp [scanName]
  | succ room ih =>
    cases bytes with
    | nil => simp [scanName] at h
    | cons b bytes =>
      rw [scanName] at h
      rw [List.cons_append, scanName, scanName]
      split_ifs at h ⊢ <;> first | rfl | exact ih h

/-- More bytes do not change what stands at the front, once that is known. -/
theorem scanToken_append {bytes : Bytes} (hne : bytes ≠ [])
    (h : scanToken bytes ≠ .incomplete) (more : Bytes) :
    scanToken (bytes ++ more) = scanToken bytes := by
  cases bytes with
  | nil => exact absurd rfl hne
  | cons b bytes =>
    rw [scanToken] at h
    rw [List.cons_append, scanToken, scanToken]
    split_ifs at h ⊢
    · exact scanName_append h more
    · rfl

/-- A bracket without a letter behind it opens no token. -/
theorem scanToken_notToken {b : UInt8} (h : isLetter b = false) (rest : Bytes) :
    scanToken (openBracket :: b :: rest) = .notToken := by
  rw [scanToken, if_pos rfl, tokenWindow, scanName, if_neg (by simp), if_neg (by simp),
    if_neg (by simp [h])]

end DebugLink.Wire
