import DebugLink.Message
import DebugLink.Text.Numeral
import DebugLink.Text.Utf8
import DebugLink.Wire.Fault

/-!
# Messages as bytes

A message is its token, then for a payload that is not empty the decimal length of
the payload, a zero byte and the payload itself, and a newline at the end. The
length lets a payload hold newlines. Older peers write the payload without a length
up to the end of the line, so that form is read as well. Bytes that do not start with
a token are output, which ends at a newline or in front of a token.
-/

namespace DebugLink.Wire

/-- The largest payload that is allowed where nothing else is said. -/
def defaultLimit : Nat := 16 * 1024 * 1024

/-- The bytes of a token, brackets included. -/
def tokenBytes (word : Word) : Bytes := Text.Utf8.encode word.token

/-- The byte that ends a line. -/
def newline : UInt8 := 10

/-- The byte that may stand in front of a newline and belongs to it. -/
def carriageReturn : UInt8 := 13

/-- The byte that opens a token. -/
def openBracket : UInt8 := 62

/-- The byte that closes a token. -/
def closeBracket : UInt8 := 60

/-- An ASCII digit. -/
def isDigit (b : UInt8) : Bool := 48 ≤ b && b ≤ 57

/-- An ASCII letter. -/
def isLetter (b : UInt8) : Bool := (65 ≤ b && b ≤ 90) || (97 ≤ b && b ≤ 122)

/-- The bytes of a payload between the token and the final newline. -/
def payloadBytes (payload : Bytes) : Bytes :=
  if payload.isEmpty then []
  else Text.Utf8.encodeChars (Text.Numeral.render payload.length) ++ 0 :: payload

/-- The bytes of a message, if its payload is not longer than allowed. -/
def encode (limit : Nat) (message : Message) : Except Fault Bytes :=
  let payload := Text.Utf8.encode message.payload
  if payload.length > limit then .error (.tooLarge payload.length limit)
  else .ok (tokenBytes message.word ++ payloadBytes payload ++ [newline])

/-- What stands at the start of bytes that begin with an opening bracket. -/
inductive TokenScan where
  /-- A word of the vocabulary, and how many bytes its token takes. -/
  | word (word : Word) (width : Nat)
  /-- A name in brackets that is no word. -/
  | unknown (name : String)
  /-- Letters behind the bracket, and then a newline. -/
  | unterminated
  /-- Nothing that has the form of a token. -/
  | notToken
  /-- Too few bytes to decide. -/
  | incomplete
  deriving DecidableEq

/-- A token has at most this many bytes, brackets included. -/
def tokenWindow : Nat := 20

/-- Look for the end of a token behind its opening bracket. `name` holds the letters passed,
reversed, and `room` tells how many more bytes a token may have. -/
def scanName (name : Bytes) : (room : Nat) → Bytes → TokenScan
  | 0, _ => .notToken
  | _ + 1, [] => .incomplete
  | room + 1, b :: rest =>
    if b = closeBracket ∧ name ≠ [] then
      let text := Text.Utf8.decodeLossy name.reverse
      match Word.ofName? text with
      | some word => .word word (name.length + 2)
      | none => .unknown text
    else if b = newline ∧ name ≠ [] then .unterminated
    else if isLetter b then scanName (b :: name) room rest
    else .notToken

/-- What stands at the start of bytes that may begin with an opening bracket. -/
def scanToken : Bytes → TokenScan
  | [] => .notToken
  | b :: rest => if b = openBracket then scanName [] (tokenWindow - 1) rest else .notToken

/-- What the bytes received so far amount to. -/
inductive Decoded where
  /-- More bytes are needed, so many at least. -/
  | needMore (count : Nat)
  /-- A frame, and the bytes behind it. -/
  | frame (frame : Frame) (rest : Bytes)
  /-- Bytes that no frame starts with. -/
  | fault (fault : Fault)
  deriving DecidableEq

/-- The bytes of a line without a carriage return at its end. -/
def dropReturn (line : Bytes) : Bytes :=
  if line.getLast? = some carriageReturn then line.dropLast else line

/-- The line at the front, without its newline, and the bytes behind the newline. -/
def splitLine? (bytes : Bytes) : Option (Bytes × Bytes) :=
  match bytes.dropWhile (· ≠ newline) with
  | [] => none
  | _ :: rest => some (bytes.takeWhile (· ≠ newline), rest)

/-- A payload length is written with at most this many digits. -/
def lengthDigits : Nat := 20

/-- The largest number that a payload length can denote. -/
def maxLength : Nat := 0xFFFFFFFFFFFFFFFF

/-- The number that a run of digits denotes, if it can be a payload length. -/
def readLength? (digits : Bytes) : Option Nat :=
  if digits.length > lengthDigits then none
  else
    let length := digits.foldl (fun n b => n * 10 + (b.toNat - 48)) 0
    if length ≤ maxLength then some length else none

/-- The message of a word whose payload has a known length. -/
def decodeSized (word : Word) (length : Nat) (body : Bytes) : Decoded :=
  match body.drop length with
  | [] => .needMore (length + 1 - body.length)
  | b :: rest =>
    if b ≠ newline then .fault (.missingTerminator word)
    else
      match Text.Utf8.decode? (body.take length) with
      | none => .fault .invalidUtf8
      | some payload => .frame (.message ⟨word, payload⟩) rest

/-- The message of a word whose payload runs to the end of the line. -/
def decodeLine (limit : Nat) (word : Word) (body : Bytes) : Decoded :=
  match splitLine? body with
  | none => if body.length > limit then .fault (.tooLarge body.length limit) else .needMore 1
  | some (line, rest) =>
    match Text.Utf8.decode? (dropReturn line) with
    | none => .fault .invalidUtf8
    | some payload => .frame (.message ⟨word, payload⟩) rest

/-- How many bytes a message takes whose length is written with so many digits. -/
def sizedWidth (word : Word) (digits length : Nat) : Nat :=
  (tokenBytes word).length + digits + 1 + length + 1

/-- The message of a word, from the bytes behind its token. As long as there are digits only,
they may be a length as well as a payload.

The bytes that a message takes are counted in a machine word. A total past `maxLength` stands for
one that wraps around: its last byte is then looked for within the token or the digits, where there
is no newline, so that the terminator is missing. Only a limit within `sizedWidth` of `maxLength`
lets such a length through. With a limit like that a decoder panics instead if its arithmetic is
checked or the total wraps to zero. And if the limit lets lengths from `2 ^ 63` on through, it
panics when it makes room for one, where this one asks for more bytes. With smaller limits there is
no difference. -/
def decodeBody (limit : Nat) (word : Word) (body : Bytes) : Decoded :=
  let digits := body.takeWhile isDigit
  if digits.isEmpty then decodeLine limit word body
  else
    match body.dropWhile isDigit with
    | [] => if body.length > limit then .fault (.tooLarge body.length limit) else .needMore 1
    | b :: rest =>
      if b ≠ 0 then decodeLine limit word body
      else
        match readLength? digits with
        | none => .fault .malformedLength
        | some length =>
          if length > limit then .fault (.tooLarge length limit)
          else if sizedWidth word digits.length length > maxLength then
            .fault (.missingTerminator word)
          else decodeSized word length rest

/-- Where output ends. -/
inductive OutputEnd where
  /-- In front of a token, behind so many bytes. -/
  | token (width : Nat)
  /-- Perhaps in front of bytes that may become a token. -/
  | undecided
  /-- With the line, whose newline comes behind so many bytes. -/
  | line (width : Nat)
  /-- Not within the bytes, of which there are so many. -/
  | later (size : Nat)
  deriving DecidableEq

/-- Look for the end of output, behind the number of bytes passed. A token at the very front
does not end it. -/
def seekEnd (passed : Nat) : Bytes → OutputEnd
  | [] => .later passed
  | b :: rest =>
    if b = newline then .line passed
    else if b = openBracket then
      match scanToken (b :: rest) with
      | .word .. => if passed = 0 then seekEnd 1 rest else .token passed
      | .incomplete => .undecided
      | _ => seekEnd (passed + 1) rest
    else seekEnd (passed + 1) rest

/-- The output at the front of bytes that do not start with a token. -/
def decodeOutput (limit : Nat) (bytes : Bytes) : Decoded :=
  match seekEnd 0 bytes with
  | .token width =>
    .frame (.output (Text.Utf8.decodeLossy (bytes.take width))) (bytes.drop width)
  | .undecided => .needMore 1
  | .line width =>
    .frame (.output (Text.Utf8.decodeLossy (dropReturn (bytes.take width))))
      (bytes.drop (width + 1))
  | .later size => if size > limit then .fault (.tooLarge size limit) else .needMore 1

/-- What the bytes received so far amount to. -/
def decode (limit : Nat) (bytes : Bytes) : Decoded :=
  if bytes.isEmpty then .needMore 1
  else
    match scanToken bytes with
    | .word word width => decodeBody limit word (bytes.drop width)
    | .unknown name => .fault (.unknownWord name)
    | .unterminated => .fault .malformedToken
    | .incomplete => .needMore 1
    | .notToken => decodeOutput limit bytes

/-- What is left of the bytes. Only a frame takes any. -/
def Decoded.rest (bytes : Bytes) : Decoded → Bytes
  | .frame _ rest => rest
  | _ => bytes

/-- What the bytes amount to when no more will come, and what is left of them: an incomplete
frame is dropped. -/
def decodeAtEnd (limit : Nat) (bytes : Bytes) : Decoded × Bytes :=
  match decode limit bytes with
  | .needMore count => (.needMore count, [])
  | decoded => (decoded, decoded.rest bytes)

end DebugLink.Wire
