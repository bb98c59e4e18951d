import DebugLink.Proofs.Wire.Grammar
import DebugLink.Proofs.Wire.Output

/-!
# How large a payload can be

A length is compared with the limit when it is read, so a payload behind its length is never
larger. A line is measured only as long as it has no end: one whose newline has come is read,
however long it is. What the decoder has left open therefore bounds a line up to the bytes that
come next, and a payload exceeds the limit by the size of a piece at most. That bound is met.
-/

namespace DebugLink.Wire

open Text

/-- Whether more bytes are needed. -/
def Decoded.isOpen : Decoded → Bool
  | .needMore _ => true
  | _ => false

/-! ## Messages -/

/-- Only a line is a message whose payload is larger than the limit. -/
theorem exists_line_of_decode {limit : Nat} {bytes rest : Bytes} {message : Message}
    (h : decode limit bytes = .frame (.message message) rest)
    (hlimit : limit < (Utf8.encode message.payload).length) :
    ∃ line, newline ∉ line ∧ ¬ LooksSized line ∧
      bytes = tokenBytes message.word ++ (line ++ newline :: rest) ∧
        dropReturn line = Utf8.encode message.payload := by
  cases isMessage_of_decode h with
  | sized digits hlength hle => omega
  | line line hline hsized hpayload => exact ⟨line, hline, hsized, rfl, hpayload⟩

/-- A message is read without a look at what comes behind it. -/
theorem decode_message_behind {limit : Nat} {bytes rest : Bytes} {message : Message}
    (h : decode limit bytes = .frame (.message message) rest) :
    ∃ taken, bytes = taken ++ rest ∧
      ∀ other, decode limit (taken ++ other) = .frame (.message message) other := by
  cases isMessage_of_decode h with
  | sized digits hlength hlimit =>
    refine ⟨tokenBytes message.word ++
      (digits ++ 0 :: (Utf8.encode message.payload ++ [newline])), by simp, fun other => ?_⟩
    have hother : tokenBytes message.word ++
        (digits ++ 0 :: (Utf8.encode message.payload ++ [newline])) ++ other =
          tokenBytes message.word ++
            (digits ++ 0 :: (Utf8.encode message.payload ++ newline :: other)) := by simp
    rw [decode_tokenBytes, decodeBody_mixed hlength.digit (by decide),
      if_neg (by simp [hlength.nonempty])] at h
    rw [hother, decode_tokenBytes, decodeBody_mixed hlength.digit (by decide),
      if_neg (by simp [hlength.nonempty])]
    cases hr : readLength? digits with
    | none =>
      rw [hr] at h
      cases h
    | some length =>
      simp only [hr] at h ⊢
      split_ifs at h ⊢
      obtain ⟨hword, hlen, -⟩ := decodeSized_eq_message_iff.mp h
      exact decodeSized_eq_message_iff.mpr ⟨hword, hlen, rfl⟩
  | line line hline hsized hpayload =>
    refine ⟨tokenBytes message.word ++ (line ++ [newline]), by simp, fun other => ?_⟩
    rw [List.append_assoc, List.append_assoc, List.singleton_append, decode_tokenBytes,
      decodeBody_line hsized]
    exact decodeLine_eq_message_iff.mpr ⟨rfl, line, hline, rfl, hpayload⟩

/-- A line without its end is measured. -/
theorem decodeBody_unended {part : Bytes} (hline : newline ∉ part) (hsized : ¬ LooksSized part)
    (limit : Nat) (word : Word) :
    decodeBody limit word part =
      if part.length > limit then .fault (.tooLarge part.length limit) else .needMore 1 := by
  rcases digits_cases part with hall | ⟨digits, b, behind, rfl, hd, hb⟩
  · exact decodeBody_digits hall limit word
  · have hkind : digits = [] ∨ b ≠ 0 := by
      by_contra hlooks
      rw [not_or, not_not] at hlooks
      obtain ⟨hne, rfl⟩ := hlooks
      exact hsized ⟨digits, behind, rfl, hne, hd⟩
    have hsplit : splitLine? (digits ++ b :: behind) = none := by
      cases hs : splitLine? (digits ++ b :: behind) with
      | none => rfl
      | some parts =>
        obtain ⟨-, hbytes⟩ := splitLine?_eq_some_iff.mp hs
        exact absurd (hbytes ▸ by simp) hline
    rw [decodeBody_mixed hd hb, if_pos hkind, decodeLine, hsplit]

/-- The front of a line that does not look like a payload with a length does not look so. -/
theorem LooksSized.append {part : Bytes} (h : LooksSized part) (more : Bytes) :
    LooksSized (part ++ more) := by
  obtain ⟨digits, rest, rfl, hne, hd⟩ := h
  exact ⟨digits, rest ++ more, by simp, hne, hd⟩

/-- A line has no more bytes without its carriage return. -/
theorem length_dropReturn_le (line : Bytes) : (dropReturn line).length ≤ line.length := by
  unfold dropReturn
  split
  · rw [List.length_dropLast]
    omega
  · exact Nat.le_refl _

/-- The message that completes what was left open takes a byte of what has come. -/
theorem length_lt_of_open {limit : Nat} {front more rest : Bytes} {message : Message}
    (hopen : (decode limit front).isOpen = true)
    (h : decode limit (front ++ more) = .frame (.message message) rest) :
    rest.length < more.length := by
  by_contra hge
  obtain ⟨taken, htaken, hbehind⟩ := decode_message_behind h
  obtain ⟨part, rfl⟩ : ∃ part, front = taken ++ part := by
    rcases List.append_eq_append_iff.mp htaken with ⟨others, rfl, rfl⟩ | ⟨part, hf, -⟩
    · rw [List.length_append] at hge
      have hnone : others = [] := List.length_eq_zero_iff.mp (by omega)
      exact ⟨[], by rw [hnone]; simp⟩
    · exact ⟨part, hf⟩
  rw [hbehind] at hopen
  cases hopen

/-- What was left open of a line is not larger than the limit. -/
theorem length_le_of_open {limit : Nat} {word : Word} {part : Bytes} (hline : newline ∉ part)
    (hsized : ¬ LooksSized part) (hopen : (decode limit (tokenBytes word ++ part)).isOpen = true) :
    part.length ≤ limit := by
  by_contra hgt
  rw [decode_tokenBytes, decodeBody_unended hline hsized, if_pos (by omega)] at hopen
  cases hopen

/-- The payload that completes what was left open is larger than the limit by less than what has
come. -/
theorem payload_lt_of_open {limit : Nat} {front more rest : Bytes} {message : Message}
    (hopen : (decode limit front).isOpen = true)
    (h : decode limit (front ++ more) = .frame (.message message) rest) :
    (Utf8.encode message.payload).length < limit + more.length := by
  have hrest := length_lt_of_open hopen h
  by_contra hge
  obtain ⟨line, hline, hsized, hbytes, hpayload⟩ := exists_line_of_decode h (by omega)
  have hle : (Utf8.encode message.payload).length ≤ line.length := by
    rw [← hpayload]
    exact length_dropReturn_le line
  have hlength := congrArg List.length hbytes
  simp only [List.length_append, List.length_cons] at hlength
  -- So long a line reaches back into what was left open, and its part there is too large already.
  rcases List.append_eq_append_iff.mp hbytes with ⟨missing, htoken, -⟩ | ⟨part, rfl, hpart⟩
  · have hshort := congrArg List.length htoken
    rw [List.length_append] at hshort
    omega
  obtain ⟨others, rfl⟩ : ∃ others, line = part ++ others := by
    rcases List.append_eq_append_iff.mp hpart with ⟨others, rfl, hmore⟩ | ⟨others, hline, -⟩
    · have hshort := congrArg List.length hmore
      simp only [List.length_append, List.length_cons] at hshort
      have hnone : others = [] := List.length_eq_zero_iff.mp (by omega)
      exact ⟨[], by rw [hnone]; simp⟩
    · exact ⟨others, hline⟩
  rw [List.mem_append, not_or] at hline
  have hsmall := length_le_of_open hline.1 (fun hlooks => hsized (hlooks.append others)) hopen
  rw [List.length_append] at hlength
  omega

/-! ## Output -/

/-- The search for the end of output passes letters. -/
theorem seekEnd_letters {letters : Bytes} (h : ∀ b ∈ letters, isLetter b = true) (passed : Nat)
    (bytes : Bytes) :
    seekEnd passed (letters ++ bytes) = seekEnd (passed + letters.length) bytes := by
  induction letters generalizing passed with
  | nil => rfl
  | cons b letters ih =>
    obtain ⟨hb, hl⟩ := List.forall_mem_cons.mp h
    obtain ⟨-, hopen, hnewline⟩ := isLetter_ne hb
    rw [List.cons_append, seekEnd_plain hnewline hopen, ih hl, List.length_cons]
    congr 1
    omega

/-- Output that ends at the given width, if it ends there. -/
def OutputEnd.width? : OutputEnd → Option Nat
  | .token width | .line width => some width
  | _ => none

/-- Output ends behind what has been passed. -/
theorem le_of_width? {passed width : Nat} {bytes : Bytes}
    (h : (seekEnd passed bytes).width? = some width) : passed ≤ width := by
  obtain ⟨htoken, hline⟩ := seekEnd_bounds passed bytes
  cases hs : seekEnd passed bytes with
  | token at_ =>
    rw [hs] at h
    cases h
    exact (htoken width hs).1
  | line at_ =>
    rw [hs] at h
    cases h
    exact (hline width hs).1
  | undecided | later =>
    rw [hs] at h
    cases h

/-- Where the end of output was not found, it comes behind the bytes, or in front of a last part of
them that may become a token. -/
theorem width_of_unsettled {passed width : Nat} {bytes more : Bytes}
    (hopen : (seekEnd passed bytes).isSettled = false)
    (h : (seekEnd passed (bytes ++ more)).width? = some width) :
    passed + bytes.length ≤ width ∨ ∃ front part, bytes = front ++ part ∧ part ≠ [] ∧
      scanToken part = .incomplete ∧
        seekEnd passed (bytes ++ more) = .token (passed + front.length) := by
  induction bytes generalizing passed with
  | nil => exact .inl (le_of_width? h)
  | cons b bytes ih =>
    rw [List.cons_append] at h
    rcases seekEnd_cases passed b bytes with ⟨-, hs⟩ | ⟨rfl, hincomplete, -⟩ |
      ⟨hp, word, rest, hb⟩ | hgo
    · rw [hs] at hopen
      cases hopen
    · -- Either the bracket opens a token now, or the letters behind it are passed.
      rcases seekEnd_cases passed openBracket (bytes ++ more) with ⟨hb, -⟩ | ⟨-, -, hs⟩ |
        ⟨hp, word, rest, hb⟩ | hgo
      · cases hb
      · rw [hs] at h
        cases h
      · refine .inr ⟨[], _, rfl, List.cons_ne_nil _ _, hincomplete, ?_⟩
        rw [List.cons_append, hb, seekEnd_token hp]
        rfl
      · have hself := hgo []
        rw [List.append_nil] at hself
        rw [scanToken, if_pos rfl] at hincomplete
        rw [hself, seekEnd_letters (isLetter_of_scanName hincomplete)] at h
        have hle := le_of_width? h
        rw [List.length_cons]
        exact .inl (by omega)
    · rw [hb, seekEnd_token hp] at hopen
      cases hopen
    · have hself := hgo []
      rw [List.append_nil] at hself
      rw [hself] at hopen
      rw [hgo more] at h
      rcases ih hopen h with hle | ⟨front, part, rfl, hne, hincomplete, htoken⟩
      · rw [List.length_cons]
        exact .inl (by omega)
      · refine .inr ⟨b :: front, part, rfl, hne, hincomplete, ?_⟩
        rw [List.cons_append, hgo more, htoken, List.length_cons]
        congr 1
        omega

/-- A part that may become a token is left open. -/
theorem isOpen_of_incomplete {part : Bytes} (hne : part ≠ [])
    (h : scanToken part = .incomplete) (limit : Nat) : (decode limit part).isOpen = true := by
  rw [decode, h, if_neg (by simpa using hne)]
  rfl

/-- Bytes behind a token are no output. -/
theorem decodeBody_ne_output (limit : Nat) (word : Word) (body rest : Bytes) (text : String) :
    decodeBody limit word body ≠ .frame (.output text) rest := by
  have hline : ∀ body, decodeLine limit word body ≠ .frame (.output text) rest := by
    intro body
    unfold decodeLine
    split
    · split <;> exact nofun
    · split <;> exact nofun
  have hsized : ∀ length body, decodeSized word length body ≠ .frame (.output text) rest := by
    intro length body
    unfold decodeSized
    split
    · exact nofun
    · split
      · exact nofun
      · split <;> exact nofun
  unfold decodeBody
  dsimp only
  split
  · exact hline body
  split
  · split <;> exact nofun
  split
  · exact hline body
  split
  · exact nofun
  split
  · exact nofun
  split
  · exact nofun
  · exact hsized _ _

/-- The end of the output that bytes hold. -/
theorem width_of_decode {limit : Nat} {bytes rest : Bytes} {text : String}
    (h : decode limit bytes = .frame (.output text) rest) :
    ∃ width, seekEnd 0 bytes = .token width ∧ rest = bytes.drop width ∨
      seekEnd 0 bytes = .line width ∧ rest = bytes.drop (width + 1) := by
  by_cases hne : bytes = []
  · subst hne
    cases h
  cases hs : scanToken bytes with
  | word word width =>
    obtain ⟨body, rfl, -⟩ := scanToken_eq_word_iff.mp hs
    rw [decode_tokenBytes] at h
    exact absurd h (decodeBody_ne_output limit word body rest text)
  | incomplete | unknown | unterminated => simp [decode, hne, hs] at h
  | notToken =>
    simp only [decode, List.isEmpty_iff, hne, if_false, hs, decodeOutput] at h
    cases he : seekEnd 0 bytes with
    | token width =>
      simp only [he, Decoded.frame.injEq] at h
      exact ⟨width, .inl ⟨rfl, h.2.symm⟩⟩
    | line width =>
      simp only [he, Decoded.frame.injEq] at h
      exact ⟨width, .inr ⟨rfl, h.2.symm⟩⟩
    | undecided => simp [he] at h
    | later size =>
      simp only [he] at h
      split_ifs at h

/-- Where bytes without a token at their front are left open, the end of output was not found. -/
theorem unsettled_of_open {limit : Nat} {front more rest : Bytes} {text : String}
    (hopen : (decode limit front).isOpen = true)
    (h : decode limit (front ++ more) = .frame (.output text) rest) :
    (seekEnd 0 front).isSettled = false := by
  by_cases hne : front = []
  · rw [hne]
    rfl
  cases hs : scanToken front with
  | word word width =>
    obtain ⟨body, rfl, -⟩ := scanToken_eq_word_iff.mp hs
    rw [List.append_assoc, decode_tokenBytes] at h
    exact absurd h (decodeBody_ne_output limit word _ rest text)
  | unknown | unterminated =>
    rw [decode, hs, if_neg (by simpa using hne)] at hopen
    cases hopen
  | incomplete =>
    obtain ⟨b, letters, rfl⟩ := List.exists_cons_of_ne_nil hne
    rw [scanToken] at hs
    split_ifs at hs with hb
    subst hb
    rw [seekEnd_incomplete (by rw [scanToken, if_pos rfl]; exact hs)]
    rfl
  | notToken =>
    rw [decode, hs, if_neg (by simpa using hne)] at hopen
    dsimp only at hopen
    rw [decodeOutput] at hopen
    cases he : seekEnd 0 front with
    | token | line =>
      rw [he] at hopen
      cases hopen
    | undecided | later => rfl

/-- Behind output, what was left open is left open, or has been taken. -/
theorem exists_open_of_output {limit : Nat} {front more rest : Bytes} {text : String}
    (hopen : (decode limit front).isOpen = true)
    (h : decode limit (front ++ more) = .frame (.output text) rest) :
    ∃ part others, rest = part ++ others ∧ (decode limit part).isOpen = true ∧
      others.length ≤ more.length := by
  have htaken : rest.length ≤ more.length → ∃ part others, rest = part ++ others ∧
      (decode limit part).isOpen = true ∧ others.length ≤ more.length :=
    fun hle => ⟨[], rest, rfl, rfl, hle⟩
  have hopen' := unsettled_of_open hopen h
  obtain ⟨width, ⟨hend, rfl⟩ | ⟨hend, rfl⟩⟩ := width_of_decode h
  · rcases width_of_unsettled hopen' (by rw [hend]; rfl) with hle |
      ⟨front, part, rfl, hne, hincomplete, htoken⟩
    · refine htaken ?_
      rw [List.length_drop, List.length_append]
      omega
    · rw [hend, Nat.zero_add, OutputEnd.token.injEq] at htoken
      refine ⟨part, more, ?_, isOpen_of_incomplete hne hincomplete limit, Nat.le_refl _⟩
      rw [htoken, List.append_assoc, List.drop_left]
  · rcases width_of_unsettled hopen' (by rw [hend]; rfl) with hle | ⟨_, _, -, -, -, htoken⟩
    · refine htaken ?_
      rw [List.length_drop, List.length_append]
      omega
    · rw [hend] at htoken
      cases htoken

namespace Decoder

/-! ## Pieces -/

/-- The item is no message with a payload larger than the bound. -/
def Within (bound : Nat) (item : Item) : Prop :=
  ∀ message, item = .ok (.message message) → (Utf8.encode message.payload).length ≤ bound

/-- A decoder has failed, or what it holds was left open but for the last bytes, which are no more
than given. -/
def IsLoose (count : Nat) (decoder : Decoder) : Prop :=
  decoder.failed = true ∨ ∃ front more, decoder.buffer = front ++ more ∧
    (decode decoder.limit front).isOpen = true ∧ more.length ≤ count

variable {decoder next : Decoder} {item : Item} {slack : Nat}

/-- An item of such a decoder is in bounds, and leaves such a decoder. -/
theorem IsLoose.of_next (h : decoder.IsLoose (slack + 1)) (hn : decoder.next = (some item, next)) :
    next.IsLoose (slack + 1) ∧ next.limit = decoder.limit ∧
      Within (decoder.limit + slack) item := by
  obtain ⟨hworks, ⟨frame, rest, hd, rfl, rfl⟩ | ⟨fault, -, rfl, rfl⟩⟩ := cases_of_next_some hn
  · rcases h with hfailed | ⟨front, more, hbuffer, hopen, hmore⟩
    · rw [hworks] at hfailed
      cases hfailed
    rw [hbuffer] at hd
    cases frame with
    | message message =>
      have hlength := length_lt_of_open hopen hd
      have hpayload := payload_lt_of_open hopen hd
      refine ⟨.inr ⟨[], rest, rfl, rfl, by omega⟩, rfl, fun other hitem => ?_⟩
      cases hitem
      omega
    | output text =>
      obtain ⟨part, others, rfl, hpart, hle⟩ := exists_open_of_output hopen hd
      exact ⟨.inr ⟨part, others, rfl, hpart, by omega⟩, rfl, nofun⟩
  · exact ⟨.inl rfl, rfl, nofun⟩

/-- All items of such a decoder are in bounds. -/
theorem IsLoose.of_take (h : decoder.IsLoose (slack + 1)) (count : Nat) :
    (decoder.take count).2.limit = decoder.limit ∧
      ∀ item ∈ (decoder.take count).1, Within (decoder.limit + slack) item := by
  induction count generalizing decoder with
  | zero => exact ⟨rfl, fun _ hm => absurd hm List.not_mem_nil⟩
  | succ count ih =>
    cases hn : decoder.next with
    | mk found next =>
      cases found with
      | none =>
        rw [take_of_next_none hn]
        exact ⟨rfl, fun _ hm => absurd hm List.not_mem_nil⟩
      | some item =>
        obtain ⟨hloose, hlimit, hwithin⟩ := h.of_next hn
        obtain ⟨hrest, hitems⟩ := ih hloose
        rw [take_of_next_some hn]
        rw [hlimit] at hrest hitems
        exact ⟨hrest, List.forall_mem_cons.mpr ⟨hwithin, hitems⟩⟩

/-- Where there is no item, all bytes are left open, until more of them come. -/
theorem isLoose_of_next_none (h : decoder.next = (none, next)) {more : Bytes}
    (hmore : more.length ≤ slack + 1) : (decoder.extend more).IsLoose (slack + 1) := by
  unfold Decoder.next at h
  split at h
  · next hfailed => exact .inl hfailed
  · split at h
    · next hd => exact .inr ⟨decoder.buffer, more, rfl, by rw [extend, hd]; rfl, hmore⟩
    · cases h
    · cases h

/-- All items of a schedule of pieces are in bounds. -/
theorem within_of_pieces (decoder : Decoder) {pieces : List Bytes}
    (hpieces : ∀ piece ∈ pieces, piece.length ≤ slack + 1) (h : decoder.next = (none, next)) :
    ∀ item ∈ (decoder.exhaust (pieces.map fun piece => .push piece none)).1,
      Within (decoder.limit + slack) item := by
  induction pieces generalizing decoder next with
  | nil =>
    rw [List.map_nil, exhaust, serve]
    dsimp only
    rw [drain_of_next_none h]
    exact fun _ hm => absurd hm List.not_mem_nil
  | cons piece pieces ih =>
    obtain ⟨hpiece, hpieces⟩ := List.forall_mem_cons.mp hpieces
    have hloose := isLoose_of_next_none h hpiece
    have hanswer : decoder.answer (.push piece none) = (decoder.extend piece).drain := rfl
    obtain ⟨hlimit, hitems⟩ := hloose.of_take ((decoder.extend piece).buffer.length + 1)
    have hothers := ih (decoder.extend piece).drain.2 hpieces (next_drain (decoder.extend piece))
    rw [drain, hlimit] at hothers
    rw [List.map_cons, exhaust_cons, hanswer]
    exact List.forall_mem_append.mpr ⟨hitems, hothers⟩

/-! ## A payload as large as can be -/

/-- A payload of so many letters. -/
def longPayload (length : Nat) : String := String.ofList (List.replicate length 'x')

/-- The bytes of such a payload. -/
theorem encode_longPayload (length : Nat) :
    Utf8.encode (longPayload length) = List.replicate length 120 := by
  rw [longPayload, Utf8.encode, String.toList_ofList, encodeChars_eq_map, List.map_replicate]
  · rfl
  · intro c hc
    rw [List.eq_of_mem_replicate hc]
    decide

/-- Such a payload is a line. -/
theorem longPayload_line (length : Nat) :
    newline ∉ List.replicate length 120 ∧ ¬ LooksSized (List.replicate length 120) ∧
      dropReturn (List.replicate length 120) = Utf8.encode (longPayload length) := by
  refine ⟨fun hm => ?_, ?_, ?_⟩
  · exact absurd (List.eq_of_mem_replicate hm) (by decide)
  · rintro ⟨digits, rest, hb, -, -⟩
    have hm : (0 : UInt8) ∈ List.replicate length 120 := hb ▸ by simp
    exact absurd (List.eq_of_mem_replicate hm) (by decide)
  · rw [encode_longPayload, dropReturn, if_neg]
    intro hlast
    exact absurd (List.eq_of_mem_replicate (List.mem_of_getLast? hlast)) (by decide)

/-- A part of a line that is not larger than the limit is left open. -/
theorem isOpen_longPayload {limit length : Nat} (h : length ≤ limit) {part more : Bytes}
    (hpart : part ++ more = tokenBytes .line ++ List.replicate length 120) :
    (decode limit part).isOpen = true := by
  by_cases hne : part = []
  · rw [hne]
    rfl
  rcases List.append_eq_append_iff.mp hpart with ⟨others, htoken, -⟩ | ⟨letters, rfl, hl⟩
  · by_cases ho : others = []
    · rw [ho, List.append_nil] at htoken
      rw [← htoken, ← List.append_nil (tokenBytes .line), decode_tokenBytes,
        decodeBody_digits (by simp), if_neg (by simp)]
      rfl
    · exact isOpen_of_incomplete hne (scanToken_part hne ho htoken.symm) limit
  · have hlength := congrArg List.length hl
    rw [List.length_replicate, List.length_append] at hlength
    obtain ⟨hline, hsized, -⟩ := longPayload_line length
    rw [hl] at hline hsized
    rw [decode_tokenBytes, decodeBody_unended
      (fun hm => hline (List.mem_append_left more hm)) (fun hlooks => hsized (hlooks.append more)),
      if_neg (by omega)]
    rfl

/-- Bytes of which every part is left open yield nothing, one by one. -/
theorem exhaust_of_open (decoder : Decoder) {bytes : Bytes} (hworks : decoder.failed = false)
    (h : ∀ part more, part ++ more = bytes →
      (decode decoder.limit (decoder.buffer ++ part)).isOpen = true) (calls : List Call) :
    decoder.exhaust ((bytes.map fun b => .push [b] none) ++ calls) =
      (decoder.extend bytes).exhaust calls := by
  induction bytes generalizing decoder with
  | nil =>
    have hsame : decoder.extend [] = decoder := by simp [extend]
    rw [hsame]
    rfl
  | cons b bytes ih =>
    have hnone : (decoder.extend [b]).next = (none, decoder.extend [b]) := by
      have hopen := h [b] bytes rfl
      simp only [Decoder.next, extend, hworks, Bool.false_eq_true, if_false]
      cases hd : decode decoder.limit (decoder.buffer ++ [b]) with
      | needMore => rfl
      | frame | fault =>
        rw [hd] at hopen
        cases hopen
    have hanswer : decoder.answer (.push [b] none) = ([], decoder.extend [b]) :=
      drain_of_next_none hnone
    have hrest := ih (decoder.extend [b]) hworks fun part more hpart => by
      have hopen := h (b :: part) more (by rw [List.cons_append, hpart])
      rw [extend, List.append_assoc]
      exact hopen
    rw [extend_extend] at hrest
    rw [List.map_cons, List.cons_append, exhaust_cons, hanswer]
    exact hrest

/-- The bytes of a message of which as much as may be left open comes byte by byte, and the rest in
one piece. -/
def longPieces (limit slack : Nat) : List Bytes :=
  (tokenBytes .line ++ List.replicate limit 120).map (fun b => [b]) ++
    [List.replicate slack 120 ++ [newline]]

/-- No piece is larger than given. -/
theorem length_longPieces (limit slack : Nat) :
    ∀ piece ∈ longPieces limit slack, piece.length ≤ slack + 1 := by
  intro piece hm
  rcases List.mem_append.mp hm with hm | hm
  · obtain ⟨b, -, rfl⟩ := List.mem_map.mp hm
    rw [List.length_singleton]
    omega
  · rw [List.mem_singleton.mp hm, List.length_append, List.length_replicate, List.length_singleton]

/-- The message is read. -/
theorem mem_exhaust_longPieces (limit slack : Nat) :
    Except.ok (.message ⟨.line, longPayload (limit + slack)⟩) ∈
      (exhaust { limit } ((longPieces limit slack).map fun piece => .push piece none)).1 := by
  have hopen : ∀ part more, part ++ more = tokenBytes .line ++ List.replicate limit 120 →
      (decode limit ([] ++ part)).isOpen = true := fun part more hpart =>
    isOpen_longPayload (Nat.le_refl limit) hpart
  have hexhaust := exhaust_of_open { limit } rfl hopen
    [.push (List.replicate slack 120 ++ [newline]) none]
  have hcalls : (longPieces limit slack).map (fun piece => Call.push piece none) =
      (tokenBytes .line ++ List.replicate limit 120).map (fun b => Call.push [b] none) ++
        [Call.push (List.replicate slack 120 ++ [newline]) none] := by
    rw [longPieces, List.map_append, List.map_map]
    rfl
  have hwhole : (({ limit } : Decoder).extend (tokenBytes .line ++ List.replicate limit 120)).extend
      (List.replicate slack 120 ++ [newline]) = ({ limit } : Decoder).extend (tokenBytes .line ++
        (List.replicate (limit + slack) 120 ++ [newline])) := by
    rw [extend_extend, List.replicate_add, List.append_assoc, List.append_assoc]
  obtain ⟨hline, hsized, hpayload⟩ := longPayload_line (limit + slack)
  have hnext : (({ limit } : Decoder).extend (tokenBytes .line ++
      (List.replicate (limit + slack) 120 ++ [newline]))).next =
        (some (.ok (.message ⟨.line, longPayload (limit + slack)⟩)), { limit }) := by
    have hd : decode limit ([] ++ (tokenBytes .line ++
        (List.replicate (limit + slack) 120 ++ [newline]))) =
          .frame (.message ⟨.line, longPayload (limit + slack)⟩) [] := by
      rw [List.nil_append, decode_tokenBytes, decodeBody_line hsized]
      exact decodeLine_eq_message_iff.mpr ⟨rfl, _, hline, rfl, hpayload⟩
    simp only [Decoder.next, extend, hd, Bool.false_eq_true, if_false]
  rw [hcalls, hexhaust, exhaust_cons]
  refine List.mem_append_left _ ?_
  rw [answer, takeWanted, hwhole, drain_of_next_some hnext]
  exact List.mem_cons_self

/-- When all items are taken behind each piece, no payload is larger than the limit by the size of
a piece, and one can be larger by one byte less. In particular, the limit is kept where the bytes
come one by one. -/
theorem payload_le_iff (limit slack bound : Nat) :
    (∀ pieces : List Bytes, (∀ piece ∈ pieces, piece.length ≤ slack + 1) →
      ∀ item ∈ (exhaust { limit } (pieces.map fun piece => .push piece none)).1,
        Within bound item) ↔ limit + slack ≤ bound := by
  constructor
  · intro h
    have hwithin := h _ (length_longPieces limit slack) _ (mem_exhaust_longPieces limit slack) _ rfl
    rwa [encode_longPayload, List.length_replicate] at hwithin
  · intro hbound pieces hpieces item hm message hitem
    have hwithin := within_of_pieces { limit } hpieces rfl item hm message hitem
    exact Nat.le_trans hwithin hbound

/-- A line that comes in one piece is read, although it is larger than the limit. -/
theorem not_payload_le_wholeLine :
    ¬ ∀ (limit : Nat) (calls : List Call), ∀ item ∈ (exhaust { limit } calls).1,
      Within limit item := by
  intro h
  have hm : Except.ok (.message ⟨.line, "abcdefgh"⟩) ∈
      (exhaust { limit := 4 } [.push (Utf8.encode ">Line<abcdefgh\n") none]).1 := by
    decide +kernel
  have hle := h 4 _ _ hm _ rfl
  revert hle
  decide +kernel

end Decoder

end DebugLink.Wire
