import DebugLink.Proofs.Wire.Encoding

/-!
# Output is read back

Text that holds no token and does not start like one is read up to the newline that ends it, or
up to the token behind it, even where the text itself ends in the first half of a token. A
part of it is never called too large, since it is not longer than the text, or is left open
in front of the token that has begun.
-/

namespace DebugLink.Wire

open Text

/-- Text that is output under a limit. -/
structure IsPlain (limit : Nat) (text : String) : Prop where
  /-- The text is not longer than a payload may be. -/
  length_le : (Utf8.encode text).length ≤ limit
  /-- The text is part of one line. -/
  newline_notMem : newline ∉ Utf8.encode text
  /-- The text does not start like a token. -/
  isLetter_eq_false : ∀ b rest, Utf8.encode text = openBracket :: b :: rest → isLetter b = false
  /-- The text holds no token behind its first byte. -/
  front_eq_nil : ∀ front word behind,
    Utf8.encode text = front ++ tokenBytes word ++ behind → front = []

/-- Text is plain if its first two bytes are not those of a token, and no token stands behind
one of its bytes. -/
theorem isPlain_iff {limit : Nat} {text : String} :
    IsPlain limit text ↔
      (Utf8.encode text).length ≤ limit ∧ newline ∉ Utf8.encode text ∧
        ((Utf8.encode text)[0]? = some openBracket →
          ((Utf8.encode text)[1]?.any isLetter) = false) ∧
        ∀ offset < (Utf8.encode text).length, 0 < offset →
          ∀ word ∈ Word.all, ¬ tokenBytes word <+: (Utf8.encode text).drop offset := by
  generalize hbytes : Utf8.encode text = bytes
  constructor
  · rintro ⟨hl, hn, hletter, htoken⟩
    rw [hbytes] at hl hn hletter htoken
    refine ⟨hl, hn, fun h0 => ?_, fun offset hlt hpos word _ hpre => ?_⟩
    · match bytes with
      | [] | [_] => rfl
      | c :: b :: rest =>
        rw [Option.some.inj h0] at hletter
        exact hletter b rest rfl
    · obtain ⟨behind, hb⟩ := hpre
      have hfront := htoken (bytes.take offset) word behind (by
        rw [List.append_assoc, hb, List.take_append_drop])
      rw [List.take_eq_nil_iff] at hfront
      rcases hfront with h0 | rfl
      · omega
      · simp at hlt
  · rintro ⟨hl, hn, hletter, htoken⟩
    refine ⟨by rw [hbytes]; exact hl, by rw [hbytes]; exact hn, fun b rest hb => ?_,
      fun front word behind hf => ?_⟩
    · rw [hbytes] at hb
      subst hb
      exact hletter rfl
    · rw [hbytes] at hf
      by_contra hne
      have hpos := List.length_pos_of_ne_nil hne
      have htok : 0 < (tokenBytes word).length := by
        rw [length_tokenBytes]
        omega
      refine htoken front.length (by rw [hf]; simp only [List.length_append]; omega) hpos word
        word.mem_all ⟨behind, ?_⟩
      rw [hf, List.append_assoc, List.drop_left]

instance (limit : Nat) (text : String) : Decidable (IsPlain limit text) :=
  decidable_of_iff _ isPlain_iff.symm

/-- A text without the carriage return at its end. -/
def withoutReturn (text : String) : String :=
  if text.toList.getLast? = some '\r' then String.ofList text.toList.dropLast else text

/-! ## The carriage return -/

/-- The last byte of a character is a carriage return only if the character is one. -/
theorem eq_of_getLast?_encodeChar {c : Char}
    (h : (Utf8.encodeChar c).getLast? = some carriageReturn) : c = '\r' := by
  by_cases hc : c.toNat < 0x80
  · rw [Utf8.encodeChar_ascii hc, List.getLast?_singleton, Option.some.injEq] at h
    have hn : c.toNat = 13 := by
      rw [← Utf8.toNat_toUInt8 (show c.toNat < 256 by omega), h]
      rfl
    rw [← Char.ofNat_toNat c, hn]
  · have hle := Utf8.le_of_mem_encodeChar hc (List.mem_of_getLast? h)
    exact absurd hle (by decide)

/-- The line of a text is the text without its carriage return. -/
theorem decodeLossy_dropReturn (text : String) :
    Utf8.decodeLossy (dropReturn (Utf8.encode text)) = withoutReturn text := by
  rcases List.eq_nil_or_concat text.toList with hnil | ⟨cs, c, hcs⟩
  · simp only [dropReturn, withoutReturn, Utf8.encode, hnil]
    rw [← String.ofList_toList (s := text), hnil]
    rfl
  rw [List.concat_eq_append] at hcs
  have he : Utf8.encode text = Utf8.encodeChars cs ++ Utf8.encodeChar c := by
    rw [Utf8.encode, hcs, Utf8.encodeChars_append, Utf8.encodeChars_cons, Utf8.encodeChars_nil,
      List.append_nil]
  have hlast : (Utf8.encode text).getLast? = (Utf8.encodeChar c).getLast? := by
    rw [he, List.getLast?_append_of_ne_nil _ (Utf8.encodeChar_ne_nil c)]
  by_cases hc : c = '\r'
  · subst hc
    have hd : Utf8.encodeChars cs = Utf8.encode (String.ofList cs) := by
      rw [Utf8.encode, String.toList_ofList]
    rw [dropReturn, if_pos (by rw [hlast]; rfl), he, withoutReturn, if_pos (by simp [hcs]), hcs,
      show Utf8.encodeChar '\r' = [carriageReturn] from rfl, List.dropLast_concat,
      List.dropLast_concat, hd, Utf8.decodeLossy_encode]
  · rw [dropReturn, if_neg (by rw [hlast]; exact fun h => hc (eq_of_getLast?_encodeChar h)),
      withoutReturn, if_neg (by simpa [hcs] using hc), Utf8.decodeLossy_encode]

/-! ## The front of the bytes -/

/-- A token has a letter behind its bracket. -/
theorem tokenBytes_cons (word : Word) :
    ∃ b rest, tokenBytes word = openBracket :: b :: rest ∧ isLetter b = true := by
  obtain ⟨hl, hne, -⟩ := name_bytes word
  obtain ⟨b, rest, hb⟩ := List.exists_cons_of_ne_nil hne
  refine ⟨b, rest ++ [closeBracket], ?_, hl b (hb ▸ List.mem_cons_self)⟩
  rw [tokenBytes_eq, hb, List.cons_append]

/-- Bytes that do not start like a token are not taken for one, unless there is no more than the
bracket. -/
theorem scanToken_of_no_letter {bytes : Bytes}
    (h : ∀ b rest, bytes = openBracket :: b :: rest → isLetter b = false) :
    scanToken bytes = .notToken ∨ bytes = [openBracket] := by
  cases bytes with
  | nil => exact .inl rfl
  | cons c bytes =>
    by_cases hc : c = openBracket
    · subst hc
      cases bytes with
      | nil => exact .inr rfl
      | cons b rest => exact .inl (scanToken_notToken (h b rest rfl) rest)
    · exact .inl (by rw [scanToken, if_neg hc])

/-- A plain text in front of a newline or a bracket does not start like a token either. -/
theorem IsPlain.scanToken_append {limit : Nat} {text : String} (h : IsPlain limit text)
    (stop : UInt8) (hstop : isLetter stop = false)
    (hfront : text ≠ "" ∨ stop ≠ openBracket) (rest : Bytes) :
    scanToken (Utf8.encode text ++ stop :: rest) = .notToken := by
  have hl := h.isLetter_eq_false
  have hn : ∀ b others, Utf8.encode text ++ stop :: rest = openBracket :: b :: others →
      isLetter b = false := fun b others hb => by
    cases he : Utf8.encode text with
    | nil =>
      rw [he, List.nil_append, List.cons.injEq] at hb
      exact absurd hb.1 (hfront.resolve_left fun hne => hne (Utf8.encode_injective he))
    | cons c bytes =>
      rw [he, List.cons_append, List.cons.injEq] at hb
      cases bytes with
      | nil =>
        obtain ⟨-, hb⟩ := hb
        rw [List.nil_append, List.cons.injEq] at hb
        rw [← hb.1]
        exact hstop
      | cons d bytes =>
        obtain ⟨rfl, hb⟩ := hb
        rw [List.cons_append, List.cons.injEq] at hb
        rw [← hb.1]
        exact hl d bytes he
  refine (scanToken_of_no_letter hn).resolve_right fun hone => ?_
  cases he : Utf8.encode text with
  | nil =>
    rw [he, List.nil_append, List.cons.injEq] at hone
    exact absurd hone.1 (hfront.resolve_left fun hne => hne (Utf8.encode_injective he))
  | cons c bytes =>
    rw [he] at hone
    simp at hone

/-! ## The end of output -/

/-- Bytes that are left open have only letters behind the bracket. -/
theorem isLetter_of_scanName {name bytes : Bytes} {room : Nat}
    (h : scanName name room bytes = .incomplete) : ∀ b ∈ bytes, isLetter b = true := by
  induction room generalizing name bytes with
  | zero => simp [scanName] at h
  | succ room ih =>
    cases bytes with
    | nil => simp
    | cons b bytes =>
      rw [scanName] at h
      split_ifs at h with hc hn hl
      · dsimp only at h
        cases hw : Word.ofName? (Utf8.decodeLossy name.reverse) <;> simp [hw] at h
      · exact List.forall_mem_cons.mpr ⟨hl, ih h⟩

/-- The bytes of a token behind its bracket are letters and the closing bracket. -/
theorem mem_of_tokenBytes {word : Word} {b c : UInt8} {front behind : Bytes}
    (h : tokenBytes word = c :: front ++ b :: behind) :
    isLetter b = true ∨ b = closeBracket := by
  rw [tokenBytes_eq, List.cons_append, List.cons.injEq] at h
  have hm : b ∈ Utf8.encode word.name ++ [closeBracket] := h.2 ▸ by simp
  rcases List.mem_append.mp hm with hb | hb
  · exact .inl ((name_bytes word).1 b hb)
  · exact .inr (List.mem_singleton.mp hb)

/-- Bytes that hold no token stay without one in front of a byte that no token holds behind its
bracket. -/
theorem eq_of_append_tokenBytes {bytes rest others : Bytes} {stop : UInt8} {word : Word}
    (hl : isLetter stop = false) (hc : stop ≠ closeBracket) (hne : bytes ≠ [])
    (h : bytes ++ stop :: rest = tokenBytes word ++ others) :
    ∃ behind, bytes = tokenBytes word ++ behind := by
  obtain ⟨c, front, rfl⟩ := List.exists_cons_of_ne_nil hne
  rcases List.append_eq_append_iff.mp h with ⟨inside, ht, hi⟩ | ⟨behind, hb, -⟩
  · cases inside with
    | nil => exact ⟨[], by rw [ht, List.append_nil, List.append_nil]⟩
    | cons b inside =>
      rw [List.cons_append, List.cons.injEq] at hi
      rw [← hi.1] at ht
      rcases mem_of_tokenBytes ht with hb | hb
      · rw [hl] at hb
        cases hb
      · exact absurd hb hc
  · exact ⟨behind, hb⟩

/-- The search for the end of output passes bytes that hold neither a newline nor a token. -/
theorem seekEnd_of_no_token {bytes : Bytes} {stop : UInt8} (hl : isLetter stop = false)
    (hc : stop ≠ closeBracket) (hn : newline ∉ bytes)
    (ht : ∀ front word behind, bytes ≠ front ++ tokenBytes word ++ behind) (passed : Nat)
    (rest : Bytes) :
    seekEnd passed (bytes ++ stop :: rest) = seekEnd (passed + bytes.length) (stop :: rest) := by
  induction bytes generalizing passed with
  | nil => rfl
  | cons b bytes ih =>
    rw [List.mem_cons, not_or] at hn
    obtain ⟨hb, hn⟩ := hn
    have hback := ih hn (fun front word behind he => ht (b :: front) word behind (by simp [he]))
      (passed + 1)
    rw [List.length_cons, Nat.add_comm bytes.length 1, ← Nat.add_assoc, ← hback, List.cons_append]
    by_cases ho : b = openBracket
    · subst ho
      refine seekEnd_bracket (fun hi => ?_) fun _ word width hw => ?_
      · rw [scanToken, if_pos rfl] at hi
        have hs := isLetter_of_scanName hi stop (by simp)
        rw [hl] at hs
        cases hs
      · obtain ⟨others, he, -⟩ := scanToken_eq_word_iff.mp hw
        rw [← List.cons_append] at he
        obtain ⟨behind, he⟩ := eq_of_append_tokenBytes hl hc (List.cons_ne_nil _ _) he
        exact ht [] word behind he
    · exact seekEnd_plain (Ne.symm hb) ho passed _

/-- A plain text holds no token at all. -/
theorem IsPlain.no_token {limit : Nat} {text : String} (h : IsPlain limit text) (front : Bytes)
    (word : Word) (behind : Bytes) : Utf8.encode text ≠ front ++ tokenBytes word ++ behind := by
  intro he
  obtain rfl := h.front_eq_nil front word behind he
  obtain ⟨b, rest, hb, hl⟩ := tokenBytes_cons word
  rw [hb] at he
  have hf := h.isLetter_eq_false b (rest ++ behind) he
  rw [hl] at hf
  cases hf

/-- Output ends behind a plain text, if a newline or a bracket comes next. -/
theorem IsPlain.seekEnd {limit : Nat} {text : String} (h : IsPlain limit text) (stop : UInt8)
    (hl : isLetter stop = false) (hc : stop ≠ closeBracket) (rest : Bytes) :
    seekEnd 0 (Utf8.encode text ++ stop :: rest) =
      Wire.seekEnd (Utf8.encode text).length (stop :: rest) := by
  rw [seekEnd_of_no_token hl hc h.newline_notMem h.no_token, Nat.zero_add]

/-- A plain text with a newline behind it is output, without its carriage return. -/
theorem decode_line {limit : Nat} {text : String} (h : IsPlain limit text) (rest : Bytes) :
    decode limit (Utf8.encode text ++ newline :: rest) =
      .frame (.output (withoutReturn text)) rest := by
  have hs := h.scanToken_append newline (by decide) (.inr (by decide)) rest
  rw [decode, hs, if_neg (by simp)]
  dsimp only
  rw [decodeOutput, h.seekEnd newline (by decide) (by decide), seekEnd, if_pos rfl]
  dsimp only
  rw [List.take_left, decodeLossy_dropReturn, List.drop_append]
  simp

/-- A plain text with a token behind it is output, if it is not empty. -/
theorem decode_stray {limit : Nat} {text : String} (h : IsPlain limit text) (hne : text ≠ "")
    (word : Word) (rest : Bytes) :
    decode limit (Utf8.encode text ++ (tokenBytes word ++ rest)) =
      .frame (.output text) (tokenBytes word ++ rest) := by
  obtain ⟨b, letters, hw, -⟩ := tokenBytes_cons word
  have hlen : (Utf8.encode text).length ≠ 0 := fun h0 =>
    hne (Utf8.encode_injective (List.length_eq_zero_iff.mp h0))
  have hs := h.scanToken_append openBracket (by decide) (.inl hne)
    (b :: letters ++ rest)
  have hend := h.seekEnd openBracket (by decide) (by decide) (b :: letters ++ rest)
  rw [← List.cons_append, ← hw] at hs hend
  rw [decode, hs, if_neg (by simp [hw])]
  dsimp only
  rw [decodeOutput, hend, seekEnd_token hlen]
  dsimp only
  rw [List.take_left, List.drop_left, Utf8.decodeLossy_encode]

/-! ## Parts of output -/

/-- Output that does not end takes all bytes. -/
theorem size_of_seekEnd {passed size : Nat} {bytes : Bytes}
    (h : seekEnd passed bytes = .later size) : size = passed + bytes.length := by
  induction bytes generalizing passed with
  | nil => exact (OutputEnd.later.inj h).symm
  | cons b bytes ih =>
    rcases seekEnd_cases passed b bytes with ⟨_, hl⟩ | ⟨_, _, hu⟩ | ⟨hp, word, rest, hb⟩ | hgo
    · rw [hl] at h
      cases h
    · rw [hu] at h
      cases h
    · rw [hb, seekEnd_token hp] at h
      cases h
    · have hself := hgo []
      rw [List.append_nil] at hself
      rw [hself] at h
      rw [ih h, List.length_cons]
      omega

/-- Bytes within the limit are not called too large as output. -/
theorem decodeOutput_isTooLarge {limit : Nat} {bytes : Bytes} (h : bytes.length ≤ limit) :
    (decodeOutput limit bytes).isTooLarge = false := by
  unfold decodeOutput
  cases hs : seekEnd 0 bytes with
  | token | undecided | line => rfl
  | later size =>
    have hsize := size_of_seekEnd hs
    dsimp only
    rw [if_neg (by omega)]
    rfl

/-- A part of a plain text is never called too large. -/
theorem decode_part_of_isPlain {limit : Nat} {text : String} (h : IsPlain limit text)
    {part more : Bytes} (hpart : Utf8.encode text = part ++ more) :
    (decode limit part).isTooLarge = false := by
  have hlen := h.length_le
  rw [hpart, List.length_append] at hlen
  by_cases hne : part = []
  · subst hne
    rfl
  have hn : ∀ b rest, part = openBracket :: b :: rest → isLetter b = false := fun b rest hb =>
    h.isLetter_eq_false b (rest ++ more) (by rw [hpart, hb]; rfl)
  rcases scanToken_of_no_letter hn with hs | rfl
  · rw [decode, hs, if_neg (by simpa using hne)]
    exact decodeOutput_isTooLarge (by omega)
  · rfl

/-- A plain text in front of a part of a token is left open. -/
theorem decode_stray_part {limit : Nat} {text : String} (h : IsPlain limit text) (hne : text ≠ "")
    {word : Word} {part more : Bytes} (hp : part ≠ []) (hm : more ≠ [])
    (hpart : part ++ more = tokenBytes word) :
    decode limit (Utf8.encode text ++ part) = .needMore 1 := by
  have hi := scanToken_part hp hm hpart
  obtain ⟨b, rest, rfl⟩ := List.exists_cons_of_ne_nil hp
  rw [tokenBytes_eq, List.cons_append, List.cons.injEq] at hpart
  obtain ⟨rfl, -⟩ := hpart
  have hs := h.scanToken_append openBracket (by decide) (.inl hne) rest
  rw [decode, hs, if_neg (by simp)]
  dsimp only
  rw [decodeOutput, h.seekEnd openBracket (by decide) (by decide), seekEnd_incomplete hi]

end DebugLink.Wire
