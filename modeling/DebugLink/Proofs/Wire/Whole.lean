import DebugLink.Proofs.Wire.Encoding

/-!
# Whole messages on the wire

No message begins with the bytes of another one, since its token ends at the first closing bracket
and its length says where its payload ends. So messages that were written one behind the other
can be told apart in one way only. A message without a payload is its token and a newline; when a
part of it is on the wire and another message comes behind that part, what is on the wire is no
longer made of messages.
-/

namespace DebugLink.Wire

open Text

/-! ## Where a message ends -/

/-- Bytes are cut in one way in front of the first one that a test rejects. -/
theorem cut_unique {test : UInt8 → Bool} {front front' rest rest' : Bytes} {b b' : UInt8}
    (hfront : ∀ x ∈ front, test x = true) (hfront' : ∀ x ∈ front', test x = true)
    (hb : test b = false) (hb' : test b' = false)
    (h : front ++ b :: rest = front' ++ b' :: rest') :
    front = front' ∧ b :: rest = b' :: rest' := by
  have htaken := congrArg (List.takeWhile test) h
  rw [List.takeWhile_append_of_pos hfront, List.takeWhile_append_of_pos hfront',
    List.takeWhile_cons_of_neg (by simp [hb]), List.takeWhile_cons_of_neg (by simp [hb']),
    List.append_nil, List.append_nil] at htaken
  subst htaken
  exact ⟨rfl, List.append_cancel_left h⟩

/-- The bytes of a message behind its token. -/
def bodyBytes (message : Message) : Bytes :=
  payloadBytes (Utf8.encode message.payload) ++ [newline]

/-- A message is its token and its body. -/
theorem messageBytes_eq (message : Message) :
    messageBytes message =
      openBracket :: (Utf8.encode message.word.name ++ closeBracket :: bodyBytes message) := by
  rw [messageBytes, tokenBytes_eq, bodyBytes]
  simp

/-- The body of a message is a newline, or a length, a zero byte, the payload and a newline. -/
theorem bodyBytes_cases (message : Message) :
    bodyBytes message = [newline] ∨ ∃ payload : Bytes, bodyBytes message =
      lengthBytes payload.length ++ 0 :: (payload ++ [newline]) := by
  by_cases hp : Utf8.encode message.payload = []
  · exact .inl (by rw [bodyBytes, hp, payloadBytes_nil, List.nil_append])
  · refine .inr ⟨Utf8.encode message.payload, ?_⟩
    rw [bodyBytes, payloadBytes_of_ne_nil hp, List.append_assoc, List.cons_append]

/-- Bytes with a length in front begin with a digit. -/
theorem isDigit_of_lengthBytes_append {length : Nat} {b : UInt8} {behind rest : Bytes}
    (h : lengthBytes length ++ behind = b :: rest) : isDigit b = true := by
  obtain ⟨digit, digits, hdigits⟩ := List.exists_cons_of_ne_nil (lengthBytes_ne_nil length)
  rw [hdigits, List.cons_append] at h
  rw [← (List.cons.inj h).1]
  exact isDigit_of_mem_lengthBytes (hdigits ▸ List.mem_cons_self)

/-- No body begins with another one. -/
theorem bodyBytes_append {message other : Message} {more : Bytes}
    (h : bodyBytes message ++ more = bodyBytes other) : more = [] := by
  rcases bodyBytes_cases message with hbody | ⟨payload, hbody⟩ <;>
    rcases bodyBytes_cases other with hother | ⟨payload', hother⟩ <;> rw [hbody, hother] at h
  · exact (List.cons.inj h).2
  · exact absurd (isDigit_of_lengthBytes_append h.symm) (by decide)
  · rw [List.append_assoc] at h
    exact absurd (isDigit_of_lengthBytes_append h) (by decide)
  · -- The digits end at the zero byte, so the lengths agree, and with them the payloads end.
    rw [List.append_assoc, List.cons_append] at h
    obtain ⟨hdigits, hrest⟩ := cut_unique (fun _ => isDigit_of_mem_lengthBytes)
      (fun _ => isDigit_of_mem_lengthBytes) (by decide) (by decide) h
    have hlength : payload.length = payload'.length := by
      rw [← foldl_lengthBytes payload.length, hdigits, foldl_lengthBytes]
    have hcount := congrArg List.length (List.cons.inj hrest).2
    simp only [List.length_append, List.length_cons, List.length_nil] at hcount
    exact List.length_eq_zero_iff.mp (by omega)

/-- Equal bytes that begin with a name and a closing bracket go on in the same way. -/
theorem eq_of_names {word word' : Word} {rest rest' : Bytes}
    (h : Utf8.encode word.name ++ closeBracket :: rest =
      Utf8.encode word'.name ++ closeBracket :: rest') : rest = rest' := by
  obtain ⟨-, hrest⟩ := cut_unique (name_bytes word).1 (name_bytes word').1 (by decide) (by decide) h
  exact (List.cons.inj hrest).2

/-- No message begins with the bytes of another one. -/
theorem messageBytes_append {message other : Message} {more : Bytes}
    (h : messageBytes message ++ more = messageBytes other) : more = [] := by
  rw [messageBytes_eq, messageBytes_eq, List.cons_append, List.cons.injEq, List.append_assoc,
    List.cons_append] at h
  exact bodyBytes_append (eq_of_names h.2)

/-- Equal bytes that begin with a message go on in the same way. -/
theorem eq_of_messages {message other : Message} {rest rest' : Bytes}
    (h : messageBytes message ++ rest = messageBytes other ++ rest') : rest = rest' := by
  rcases List.append_eq_append_iff.mp h with ⟨more, hother, hrest⟩ | ⟨more, hmessage, hrest⟩
  · rw [hrest, messageBytes_append hother.symm, List.nil_append]
  · rw [hrest, messageBytes_append hmessage.symm, List.nil_append]

/-- No message goes on with an opening bracket behind a part of a message without a payload. -/
theorem messageBytes_ne_part {word : Word} {part rest : Bytes} (hpart : part ≠ [])
    (hrest : rest ≠ []) (h : part ++ rest = messageBytes (.bare word)) (message : Message)
    (more : Bytes) : messageBytes message ≠ part ++ openBracket :: more := by
  intro heq
  obtain ⟨b, front, rfl⟩ := List.exists_cons_of_ne_nil hpart
  rw [messageBytes_eq, List.cons_append, List.cons.injEq] at h heq
  obtain ⟨missing, last, rfl⟩ := (List.eq_nil_or_concat rest).resolve_left hrest
  have hline : front ++ missing ++ [last] =
      Utf8.encode word.name ++ [closeBracket] ++ [newline] := by
    rw [List.append_assoc, ← List.concat_eq_append, h.2, List.append_assoc]
    rfl
  have htoken := (List.append_inj' hline rfl).1
  by_cases hmissing : missing = []
  · -- Only the newline is missing, and no body begins with a bracket.
    rw [hmissing, List.append_nil] at htoken
    rw [htoken, List.append_assoc, List.singleton_append] at heq
    have hbody := eq_of_names heq.2
    rcases bodyBytes_cases message with hend | ⟨payload, hsized⟩
    · rw [hend] at hbody
      exact absurd (List.cons.inj hbody).1 (by decide)
    · rw [hsized] at hbody
      exact absurd (isDigit_of_lengthBytes_append hbody) (by decide)
  · -- The part ends among the letters, where only a closing bracket may come instead of a letter.
    obtain ⟨letters, close, rfl⟩ := (List.eq_nil_or_concat missing).resolve_left hmissing
    rw [List.concat_eq_append, ← List.append_assoc] at htoken
    have hletters : ∀ b ∈ front, isLetter b = true := fun b hb =>
      (name_bytes word).1 b ((List.append_inj' htoken rfl).1 ▸ List.mem_append_left letters hb)
    have hcut := (cut_unique (name_bytes message.word).1 hletters (by decide) (by decide) heq.2).2
    exact absurd (List.cons.inj hcut).1 (by decide)

/-- Bytes that go on with an opening bracket behind a part of a message without a payload begin
with no message. -/
theorem part_append_ne {word : Word} {part rest : Bytes} (hpart : part ≠ []) (hrest : rest ≠ [])
    (h : part ++ rest = messageBytes (.bare word)) (message : Message) (more behind : Bytes) :
    part ++ openBracket :: more ≠ messageBytes message ++ behind := by
  intro heq
  rcases List.append_eq_append_iff.mp heq with ⟨last, hmessage, hlast⟩ | ⟨last, hmessage, -⟩
  · cases last with
    | nil =>
      rw [List.append_nil] at hmessage
      rw [← hmessage] at h
      exact hrest (messageBytes_append h)
    | cons b last =>
      rw [List.cons_append, List.cons.injEq] at hlast
      rw [← hlast.1] at hmessage
      exact messageBytes_ne_part hpart hrest h message last hmessage
  · rw [hmessage, List.append_assoc] at h
    exact hrest (List.append_eq_nil_iff.mp (messageBytes_append h)).2

/-! ## What is on the wire -/

/-- A message is written as its bytes. -/
theorem eq_messageBytes_of_encode {limit : Nat} {message : Message} {bytes : Bytes}
    (h : encode limit message = .ok bytes) : bytes = messageBytes message := by
  unfold encode at h
  dsimp only at h
  split at h
  · cases h
  · exact (Except.ok.inj h).symm

/-- Bytes of a message that may be written, of which at least one is missing. -/
def IsPart (limit : Nat) (part : Bytes) : Prop :=
  ∃ message rest, rest ≠ [] ∧ encode limit message = .ok (part ++ rest)

/-- The bytes of messages that may be written, one behind the other, and behind them those of a
message that is not complete, which may be none. -/
def AreWhole (limit : Nat) (bytes : Bytes) : Prop :=
  ∃ (messages : List Message) (part : Bytes),
    (∀ message ∈ messages, encode limit message = .ok (messageBytes message)) ∧
      IsPart limit part ∧ bytes = messages.flatMap messageBytes ++ part

/-- A message of which there is no byte yet is not complete. -/
theorem isPart_nil (limit : Nat) : IsPart limit [] := by
  have hempty : (Utf8.encode (Message.bare .ok).payload).length = 0 := rfl
  refine ⟨.bare .ok, messageBytes (.bare .ok), by simp [messageBytes_eq], ?_⟩
  rw [encode, if_neg (by omega)]
  rfl

/-- Bytes that are put on the wire, if there are any, begin with an opening bracket. -/
def Opens (bytes : Bytes) : Prop := bytes = [] ∨ ∃ more, bytes = openBracket :: more

/-- Messages open with a bracket. -/
theorem opens_messageBytes (message : Message) : Opens (messageBytes message) :=
  .inr ⟨_, messageBytes_eq message⟩

/-- Bytes that open with a bracket still do with others behind them. -/
theorem Opens.append {front back : Bytes} (hfront : Opens front) (hback : Opens back) :
    Opens (front ++ back) := by
  rcases hfront with rfl | ⟨more, rfl⟩
  · exact hback
  · exact .inr ⟨more ++ back, List.cons_append⟩

/-- A part of what opens with a bracket does so. -/
theorem Opens.of_append {part rest : Bytes} (h : Opens (part ++ rest)) : Opens part := by
  cases part with
  | nil => exact .inl rfl
  | cons b part =>
    rcases h with h | ⟨more, h⟩
    · cases h
    · exact .inr ⟨part, by rw [(List.cons.inj h).1]⟩

/-- When a part of a message without a payload comes behind whole messages, and what is on the wire
is whole, then nothing comes behind the part. -/
theorem eq_nil_of_areWhole {limit : Nat} {word : Word} {part rest behind : Bytes}
    (hpart : part ≠ []) (hrest : rest ≠ []) (hbare : part ++ rest = messageBytes (.bare word))
    (hbehind : Opens behind) {messages : List Message}
    (h : AreWhole limit (messages.flatMap messageBytes ++ (part ++ behind))) : behind = [] := by
  obtain ⟨others, left, -, ⟨message, missing, hmissing, hleft⟩, heq⟩ := h
  have hmessage := eq_messageBytes_of_encode hleft
  induction messages generalizing others with
  | nil =>
    rcases hbehind with hnil | ⟨more, rfl⟩
    · exact hnil
    cases others with
    | nil =>
      rw [List.flatMap_nil, List.nil_append, List.nil_append] at heq
      refine absurd ?_ (part_append_ne hpart hrest hbare message (more ++ missing) [])
      rw [List.append_nil, ← hmessage, ← heq, List.append_assoc, List.cons_append]
    | cons other others =>
      rw [List.flatMap_nil, List.nil_append, List.flatMap_cons, List.append_assoc] at heq
      exact absurd heq (part_append_ne hpart hrest hbare other more _)
  | cons first messages ih =>
    rw [List.flatMap_cons, List.append_assoc] at heq
    cases others with
    | nil =>
      rw [List.flatMap_nil, List.nil_append] at heq
      rw [← heq, List.append_assoc] at hmessage
      exact absurd (List.append_eq_nil_iff.mp (messageBytes_append hmessage)).2 hmissing
    | cons other others =>
      rw [List.flatMap_cons, List.append_assoc] at heq
      exact ih others (eq_of_messages heq)

end DebugLink.Wire
