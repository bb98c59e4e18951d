import DebugLink.Json.Shape
import DebugLink.Proofs.Text.Numeral
import DebugLink.Proofs.Text.Utf8
import Mathlib.Data.List.Chain
import Mathlib.Data.List.TakeWhile

/-!
# A written value is read back

The tokens of a value are read one after the other from its text, since no two words stand side by
side in it, and the machine that reads tokens builds the value again. Any content of a string is
read back, whatever is escaped in it. Numbers are those of integers, the only ones that are
written.
-/

namespace DebugLink.Json

open Text

namespace Token

/-- A number is written as that of an integer. -/
def IsWritten : Token → Prop
  | number text => ∃ n, text = Numeral.renderInt n
  | _ => True

/-- A text does not go on with a character of a word. -/
def Stops (text : List Char) : Prop := ∀ c, text.head? = some c → isWordChar c = false

variable {done : List Token} {rest : List (Option Char)}

/-- The reader goes on behind a step. -/
theorem read_of_step {mode next : Mode} {c : Option Char} {tokens : List Token}
    (h : step mode c = some (tokens, next)) :
    read done mode (c :: rest) = read (tokens.reverse ++ done) next rest := by
  rw [read, h]

/-- The reader goes on behind a step that completes no token. -/
theorem read_of_silent {mode next : Mode} {c : Option Char} (h : step mode c = some ([], next)) :
    read done mode (c :: rest) = read done next rest := read_of_step h

/-! ## Strings -/

/-- A hexadecimal digit is read back. -/
theorem hexDigit?_hexDigit : ∀ n < 16, Numeral.hexDigit? (hexDigit n) = some n := by decide

/-- A digit of an escape that is not the last one. -/
theorem step_unit_succ {n : Nat} (h : n < 16) (seen : List Part) (due value : Nat) :
    step (.unit seen (due + 1) value) (some (hexDigit n)) =
      some ([], .unit seen due (value * 16 + n)) := by
  rw [step, hexDigit?_hexDigit n h]
  rfl

/-- The last digit of an escape. -/
theorem step_unit_zero {n : Nat} (h : n < 16) (seen : List Part) (value : Nat) :
    step (.unit seen 0 value) (some (hexDigit n)) =
      some ([], .inside (.unit (value * 16 + n) :: seen)) := by
  rw [step, hexDigit?_hexDigit n h]
  rfl

/-- An escape with four digits is read as its unit. -/
theorem read_unitEscape {n : Nat} (h : n < 0x10000) (seen : List Part) :
    read done (.inside seen) ((unitEscape n).map some ++ rest) =
      read done (.inside (.unit n :: seen)) rest := by
  have hescape : step (.inside seen) (some '\\') = some ([], .escape seen) := rfl
  have hunit : step (.escape seen) (some 'u') = some ([], .unit seen 3 0) := rfl
  have h1 := step_unit_succ (show n / 4096 % 16 < 16 by omega) seen 2 0
  have h2 := step_unit_succ (show n / 256 % 16 < 16 by omega) seen 1 (0 * 16 + n / 4096 % 16)
  have h3 := step_unit_succ (show n / 16 % 16 < 16 by omega) seen 0
    ((0 * 16 + n / 4096 % 16) * 16 + n / 256 % 16)
  have h4 := step_unit_zero (show n % 16 < 16 by omega) seen
    (((0 * 16 + n / 4096 % 16) * 16 + n / 256 % 16) * 16 + n / 16 % 16)
  have hvalue : (((0 * 16 + n / 4096 % 16) * 16 + n / 256 % 16) * 16 + n / 16 % 16) * 16 +
      n % 16 = n := by omega
  rw [hvalue] at h4
  simp only [unitEscape, List.map_cons, List.map_nil, List.cons_append, List.nil_append]
  rw [read_of_silent hescape, read_of_silent hunit, read_of_silent h1, read_of_silent h2,
    read_of_silent h3, read_of_silent h4]

/-- A part stands for the content of a string, alone as well as in front of any other part. -/
inductive StandsFor : Part → Option Char → Prop
  /-- A character, or what denotes none, stands for itself. -/
  | scalar (c : Option Char) : StandsFor (.scalar c) c
  /-- A unit that is no second half stands for its character, or for none. -/
  | unit (n : Nat) (h : isLowSurrogate n = false) : StandsFor (.unit n) (unitChar? n)

/-- The written form of a part of a string is read as a part that stands for it. -/
theorem exists_read_escape (c : Option Char) : ∃ part, StandsFor part c ∧
    ∀ done seen rest, read done (.inside seen) ((escape c).map some ++ rest) =
      read done (.inside (part :: seen)) rest := by
  cases c with
  | none =>
    exact ⟨.unit 0xD800, .unit 0xD800 rfl, fun _ seen _ => read_unitEscape (by decide) seen⟩
  | some c =>
    unfold escape
    split
    case h_1 heq => cases heq
    case h_9 hquote hslash _ _ _ _ _ heq =>
      obtain rfl := Option.some.inj heq
      split
      · next hcontrol =>
        have hchar : unitChar? c.toNat = some c := by
          rw [unitChar?, if_neg, Char.ofNat_toNat]
          simp only [isHighSurrogate, isLowSurrogate, Bool.or_eq_true, Bool.and_eq_true,
            decide_eq_true_eq]
          omega
        have hlow : isLowSurrogate c.toNat = false := by
          simp only [isLowSurrogate, Bool.and_eq_false_iff, decide_eq_false_iff_not]
          omega
        refine ⟨.unit c.toNat, ?_, fun _ seen _ => read_unitEscape (by omega) seen⟩
        rw [← hchar]
        exact .unit c.toNat hlow
      · next hplain =>
        refine ⟨.scalar (some c), .scalar (some c), fun done seen rest => ?_⟩
        refine read_of_silent ?_
        rw [step, if_neg hquote, if_neg hslash, if_neg hplain]
    all_goals
      next heq =>
      obtain rfl := Option.some.inj heq
      exact ⟨.scalar (some _), .scalar (some _), fun _ _ _ => rfl⟩

/-- The written form of the content of a string is read as parts that stand for it. -/
theorem exists_read_content (content : Content) : ∃ parts, List.Forall₂ StandsFor parts content ∧
    ∀ done seen rest, read done (.inside seen) ((content.flatMap escape).map some ++ rest) =
      read done (.inside (parts.reverse ++ seen)) rest := by
  induction content with
  | nil => exact ⟨[], .nil, fun _ _ _ => rfl⟩
  | cons c content ih =>
    obtain ⟨parts, hparts, hread⟩ := ih
    obtain ⟨part, hpart, hescape⟩ := exists_read_escape c
    refine ⟨part :: parts, .cons hpart hparts, fun done seen rest => ?_⟩
    rw [List.flatMap_cons, List.map_append, List.append_assoc, hescape, hread]
    simp

/-- Parts that stand for the content of a string are put together to it. -/
theorem joinParts_eq {parts : List Part} {content : Content}
    (h : List.Forall₂ StandsFor parts content) (done : Content) :
    joinParts done parts = done.reverse ++ content := by
  induction h generalizing done with
  | nil => simp [joinParts]
  | @cons part c parts content hpart hparts ih =>
    have hjoin : joinParts done (part :: parts) = joinParts (c :: done) parts := by
      cases hpart with
      | scalar => rw [joinParts]
      | unit n _ =>
        cases hparts with
        | nil => rfl
        | cons hnext _ =>
          cases hnext with
          | scalar => rfl
          -- Two units could be a pair, but none that is written is a second half.
          | unit m hlow => rw [joinParts, hlow, Bool.and_false, if_neg Bool.false_ne_true]
    rw [hjoin, ih, List.reverse_cons, List.append_assoc]
    rfl

/-- A string is read back. -/
theorem read_string (content : Content) :
    read done .between ((string content).text.map some ++ rest) =
      read (string content :: done) .between rest := by
  obtain ⟨parts, hparts, hread⟩ := exists_read_content content
  have hopen : step .between (some '"') = some ([], .inside []) := rfl
  have hclose : step (.inside (parts.reverse ++ [])) (some '"') =
      some ([string content], .between) := by
    rw [List.append_nil, step, if_pos rfl, List.reverse_reverse, joinParts_eq hparts]
    rfl
  rw [text, List.cons_append, List.map_cons, List.map_append, List.cons_append, List.append_assoc,
    read_of_silent hopen, hread]
  exact read_of_step hclose

/-! ## Words and numbers -/

/-- Between tokens, a character of a word begins one. -/
theorem stepBetween_word {c : Char} (h : isWordChar c = true) :
    stepBetween c = some ([], .word [c]) := by
  have hne : ∀ d, isWordChar d = false → c ≠ d := fun d hd heq => by
    rw [heq, hd] at h
    cases h
  have hspace : isSpace c = false := by
    simp only [isSpace, Bool.or_eq_false_iff, beq_eq_false_iff_ne]
    exact ⟨⟨⟨hne _ rfl, hne _ rfl⟩, hne _ rfl⟩, hne _ rfl⟩
  rw [stepBetween, if_neg (by simp [hspace]), if_neg (hne _ rfl), if_neg (hne _ rfl),
    if_neg (hne _ rfl), if_neg (hne _ rfl), if_neg (hne _ rfl), if_neg (hne _ rfl),
    if_neg (hne _ rfl), if_pos h]

/-- The characters of a word are collected. -/
theorem read_wordChars {cs : List Char} (h : ∀ c ∈ cs, isWordChar c = true) (seen : List Char) :
    read done (.word seen) (cs.map some ++ rest) = read done (.word (cs.reverse ++ seen)) rest := by
  induction cs generalizing seen with
  | nil => rfl
  | cons c cs ih =>
    obtain ⟨hc, hr⟩ := List.forall_mem_cons.mp h
    have hstep : step (.word seen) (some c) = some ([], .word (c :: seen)) := if_pos hc
    rw [List.map_cons, List.cons_append, read_of_silent hstep, ih hr]
    simp

/-- A word or a number is read back, if the text does not go on with it. -/
theorem read_word (token : Token) (hword : ofWord? token.text = some token)
    (hchars : token.text.all isWordChar = true) {more : List Char} (hstops : Stops more) :
    read done .between (token.text.map some ++ more.map some) =
      read (token :: done) .between (more.map some) := by
  have hbegin : read done .between (token.text.map some ++ more.map some) =
      read done (.word token.text.reverse) (more.map some) := by
    have hne : token.text ≠ [] := fun hnil => by
      rw [hnil] at hword
      cases hword
    obtain ⟨c, cs, ht⟩ := List.exists_cons_of_ne_nil hne
    rw [ht] at hchars ⊢
    obtain ⟨hc, hr⟩ := List.forall_mem_cons.mp (List.all_eq_true.mp hchars)
    have hstep : step .between (some c) = some ([], .word [c]) := stepBetween_word hc
    rw [List.map_cons, List.cons_append, read_of_silent hstep, read_wordChars hr,
      List.reverse_cons]
  rw [hbegin]
  cases more with
  | nil => simp [read, finish, hword]
  | cons c more =>
    have hc := hstops c rfl
    have hstep : step (.word token.text.reverse) (some c) =
        (stepBetween c).map fun next => (token :: next.1, next.2) := by
      rw [step, if_neg (by simp [hc]), List.reverse_reverse, hword]
      cases stepBetween c <;> rfl
    rw [List.map_cons, read, read, hstep, step]
    cases stepBetween c with
    | none => rfl
    | some next => simp

/-- The numbers of the digits. -/
theorem isDigit_iff {c : Char} : isDigit c = true ↔ 48 ≤ c.toNat ∧ c.toNat ≤ 57 := by
  rw [isDigit, Bool.and_eq_true, decide_eq_true_eq, decide_eq_true_eq]
  exact Iff.rfl

/-- The digits of a number are digits. -/
theorem isDigit_of_mem_render {n : Nat} {c : Char} (h : c ∈ Numeral.render n) :
    isDigit c = true := isDigit_iff.mpr (Numeral.toNat_of_mem_render h)

/-- The digits of a number have the form of a number. -/
theorem isUnsignedNumber_render (n : Nat) : isUnsignedNumber (Numeral.render n) = true := by
  by_cases hn : n = 0
  · subst hn
    rfl
  · have hdigits : ∀ c ∈ Numeral.render n, isDigit c = true := fun _ => isDigit_of_mem_render
    have hzero := Numeral.head?_render_ne_zero hn
    obtain ⟨c, cs, hc, -, -⟩ := Numeral.exists_cons_render n
    rw [hc] at hdigits hzero ⊢
    obtain ⟨hfirst, hrest⟩ := List.forall_mem_cons.mp hdigits
    have htail : cs.dropWhile isDigit = [] := List.dropWhile_eq_nil_iff.mpr hrest
    unfold isUnsignedNumber
    split
    case h_1 heq => exact absurd (congrArg some (List.cons.inj heq).1) hzero
    case h_2 heq =>
      obtain ⟨rfl, rfl⟩ := List.cons.inj heq
      rw [hfirst, htail]
      rfl
    case h_3 heq => cases heq

/-- An integer is written as a number. -/
theorem ofWord?_renderInt (n : Int) :
    ofWord? (Numeral.renderInt n) = some (number (Numeral.renderInt n)) := by
  have hnumber : isNumber (Numeral.renderInt n) = true := by
    rw [Numeral.renderInt]
    split
    · exact isUnsignedNumber_render n.natAbs
    · have hunsigned := isUnsignedNumber_render n.natAbs
      obtain ⟨c, cs, hc, -, hminus⟩ := Numeral.exists_cons_render n.natAbs
      rw [hc] at hunsigned ⊢
      unfold isNumber
      split
      case h_1 heq => exact absurd (List.cons.inj heq).1 hminus
      case h_2 => exact hunsigned
  have hword : ∀ c ∈ Numeral.renderInt n, c ≠ 'l' ∧ c ≠ 'e' := fun c hc => by
    rcases Numeral.of_mem_renderInt hc with rfl | ⟨-, hle⟩
    · decide
    · exact ⟨fun h => absurd hle (by rw [h]; decide), fun h => absurd hle (by rw [h]; decide)⟩
  have hnull : Numeral.renderInt n ≠ ['n', 'u', 'l', 'l'] := fun h =>
    (hword 'l' (by simp [h])).1 rfl
  have htrue : Numeral.renderInt n ≠ ['t', 'r', 'u', 'e'] := fun h =>
    (hword 'e' (by simp [h])).2 rfl
  have hfalse : Numeral.renderInt n ≠ ['f', 'a', 'l', 's', 'e'] := fun h =>
    (hword 'e' (by simp [h])).2 rfl
  rw [ofWord?, if_neg hnull, if_neg htrue, if_neg hfalse, if_pos hnumber]

/-- The characters of an integer are those of a word. -/
theorem isWordChar_of_mem_renderInt {n : Int} {c : Char} (h : c ∈ Numeral.renderInt n) :
    isWordChar c = true := by
  rcases Numeral.of_mem_renderInt h with rfl | hdigit
  · rfl
  · have hc : isDigit c = true := isDigit_iff.mpr hdigit
    simp [isWordChar, hc]

/-! ## Tokens -/

/-- Whether a token is a word or a number, which ends where no character of a word follows. -/
def isWord : Token → Bool
  | null | bool _ | number _ => true
  | _ => false

/-- A token is read back, a word if the text does not go on with it. -/
theorem read_text {token : Token} (h : token.IsWritten) {more : List Char}
    (hstops : token.isWord = true → Stops more) :
    read done .between (token.text.map some ++ more.map some) =
      read (token :: done) .between (more.map some) := by
  cases token with
  | beginArray | endArray | beginObject | endObject | comma | colon => rfl
  | null => exact read_word null rfl rfl (hstops rfl)
  | bool value => cases value <;> exact read_word (bool _) rfl rfl (hstops rfl)
  | number text =>
    obtain ⟨n, rfl⟩ := h
    have hword : ofWord? (number (Numeral.renderInt n)).text =
        some (number (Numeral.renderInt n)) := ofWord?_renderInt n
    have hchars : (Numeral.renderInt n).all isWordChar = true :=
      List.all_eq_true.mpr fun _ => isWordChar_of_mem_renderInt
    exact read_word (number _) hword hchars (hstops rfl)
  | string content => exact read_string content

/-- A token that is no word begins with a character of none. -/
theorem stops_text {token : Token} (h : token.isWord = false) (more : List Char) :
    Stops (token.text ++ more) := by
  intro c hc
  cases token with
  | null | bool _ | number _ => cases h
  | beginArray | endArray | beginObject | endObject | comma | colon | string _ =>
    obtain rfl := Option.some.inj hc
    rfl

/-- Two tokens do not run into each other. -/
def Apart (first second : Token) : Prop := first.isWord = true → second.isWord = false

/-- Tokens that do not run into each other are read from their text. -/
theorem ofText?_text {tokens : List Token} (h : ∀ token ∈ tokens, token.IsWritten)
    (hapart : tokens.IsChain Apart) :
    ofText? ((tokens.flatMap text).map some) = some tokens := by
  suffices hread : ∀ done,
      read done .between ((tokens.flatMap text).map some) = some (done.reverse ++ tokens) from
    hread []
  induction tokens with
  | nil => exact fun done => rfl
  | cons token rest ih =>
    intro done
    obtain ⟨htoken, hrest⟩ := List.forall_mem_cons.mp h
    obtain ⟨hnext, hchain⟩ := List.isChain_cons.mp hapart
    have hstops : token.isWord = true → Stops (rest.flatMap text) := by
      intro hword
      cases rest with
      | nil => exact nofun
      | cons next rest => exact stops_text (hnext next rfl hword) _
    rw [List.flatMap_cons, List.map_append, read_text htoken hstops, ih hrest hchain]
    simp

end Token

namespace Value

open Token (Apart)

/-! ## Values -/

/-- Nothing runs into the end of an array or into the mark before its next item. -/
theorem apart_itemTokens (token : Token) (items : List Value) :
    ∀ next ∈ (itemTokens false items).head?, Apart token next := by
  intro next hnext _
  cases items with
  | nil | cons =>
    rw [itemTokens] at hnext
    obtain rfl := Option.some.inj hnext
    rfl

/-- Nothing runs into the end of an object or into the mark before its next member. -/
theorem apart_memberTokens (token : Token) (members : List (Content × Value)) :
    ∀ next ∈ (memberTokens false members).head?, Apart token next := by
  intro next hnext _
  match members with
  | [] | (_, _) :: _ =>
    rw [memberTokens] at hnext
    obtain rfl := Option.some.inj hnext
    rfl

mutual

/-- The tokens of a value do not run into each other. -/
theorem isChain_tokens (value : Value) : value.tokens.IsChain Apart := by
  match value with
  | null | bool _ | number _ | string _ => exact List.isChain_singleton _
  | array items => exact List.isChain_cons.mpr ⟨fun _ _ => nofun, isChain_itemTokens true items⟩
  | object members =>
    exact List.isChain_cons.mpr ⟨fun _ _ => nofun, isChain_memberTokens true members⟩

/-- The tokens of items do not run into each other. -/
theorem isChain_itemTokens (first : Bool) (items : List Value) :
    (itemTokens first items).IsChain Apart := by
  match items with
  | [] => exact List.isChain_singleton _
  | item :: rest =>
    have hitems : (item.tokens ++ itemTokens false rest).IsChain Apart :=
      List.isChain_append.mpr ⟨isChain_tokens item, isChain_itemTokens false rest,
        fun token _ => apart_itemTokens token rest⟩
    cases first with
    | true => exact hitems
    | false => exact List.isChain_cons.mpr ⟨fun _ _ => nofun, hitems⟩

/-- The tokens of members do not run into each other. -/
theorem isChain_memberTokens (first : Bool) (members : List (Content × Value)) :
    (memberTokens first members).IsChain Apart := by
  match members with
  | [] => exact List.isChain_singleton _
  | (key, value) :: rest =>
    have hvalues : (value.tokens ++ memberTokens false rest).IsChain Apart :=
      List.isChain_append.mpr ⟨isChain_tokens value, isChain_memberTokens false rest,
        fun token _ => apart_memberTokens token rest⟩
    have hmember : (.string key :: .colon :: (value.tokens ++ memberTokens false rest)).IsChain
        Apart :=
      List.isChain_cons.mpr ⟨fun _ _ => nofun, List.isChain_cons.mpr ⟨fun _ _ => nofun, hvalues⟩⟩
    cases first with
    | true => exact hmember
    | false => exact List.isChain_cons.mpr ⟨fun _ _ => nofun, hmember⟩

end

/-- The machine goes on behind a token. -/
theorem read_of_step {due next : Due} {token : Token} {more : List Token}
    (h : step due token = some next) : read due (token :: more) = read next more := by
  rw [read, h]

/-- The first item of an array is read like any other value. -/
theorem read_firstItem (value : Value) (outer : List Open) (more : List Token) :
    read (.item outer) (value.tokens ++ more) =
      read (.value (.array [] :: outer)) (value.tokens ++ more) := by
  cases value <;> rfl

mutual

/-- The tokens of a value lead from where it is due to where it is complete. -/
theorem read_tokens (value : Value) (outer : List Open) (more : List Token) :
    read (.value outer) (value.tokens ++ more) = read (.after value outer) more := by
  match value with
  | null | bool _ | number _ | string _ => rfl
  | array [] => rfl
  | array (item :: rest) =>
    have hbegin : step (.value outer) .beginArray = some (.item outer) := rfl
    rw [tokens, List.cons_append, read_of_step hbegin, itemTokens, List.append_assoc,
      read_firstItem, read_tokens item, read_itemTokens]
    rfl
  | object [] => rfl
  | object ((key, value) :: rest) =>
    have hbegin : step (.value outer) .beginObject = some (.key true [] outer) := rfl
    have hkey : step (.key true [] outer) (.string key) = some (.colon [] key outer) := rfl
    have hcolon : step (.colon [] key outer) .colon = some (.value (.object [] key :: outer)) := rfl
    rw [tokens, List.cons_append, read_of_step hbegin, memberTokens, List.cons_append,
      read_of_step hkey, List.cons_append, read_of_step hcolon, List.append_assoc,
      read_tokens value, read_memberTokens]
    rfl

/-- The tokens of the further items lead to where the array is complete. -/
theorem read_itemTokens (items done : List Value) (value : Value) (outer : List Open)
    (more : List Token) :
    read (.after value (.array done :: outer)) (itemTokens false items ++ more) =
      read (.after (array ((value :: done).reverse ++ items)) outer) more := by
  match items with
  | [] =>
    rw [List.append_nil]
    rfl
  | item :: rest =>
    have hcomma : step (.after value (.array done :: outer)) .comma =
        some (.value (.array (value :: done) :: outer)) := rfl
    rw [itemTokens, List.cons_append, read_of_step hcomma, List.append_assoc, read_tokens item,
      read_itemTokens rest, List.reverse_cons, List.append_assoc]
    rfl

/-- The tokens of the further members lead to where the object is complete. -/
theorem read_memberTokens (members done : List (Content × Value)) (key : Content) (value : Value)
    (outer : List Open) (more : List Token) :
    read (.after value (.object done key :: outer)) (memberTokens false members ++ more) =
      read (.after (object (((key, value) :: done).reverse ++ members)) outer) more := by
  match members with
  | [] =>
    rw [List.append_nil]
    rfl
  | (next, member) :: rest =>
    have hcomma : step (.after value (.object done key :: outer)) .comma =
        some (.key false ((key, value) :: done) outer) := rfl
    have hkey : step (.key false ((key, value) :: done) outer) (.string next) =
        some (.colon ((key, value) :: done) next outer) := rfl
    have hcolon : step (.colon ((key, value) :: done) next outer) .colon =
        some (.value (.object ((key, value) :: done) next :: outer)) := rfl
    rw [memberTokens, List.cons_append, read_of_step hcomma, List.cons_append, read_of_step hkey,
      List.cons_append, read_of_step hcolon, List.append_assoc, read_tokens member,
      read_memberTokens rest, List.reverse_cons, List.append_assoc]
    rfl

end

/-- The value of its tokens. -/
theorem ofTokens?_tokens (value : Value) : ofTokens? value.tokens = some value := by
  have hread := read_tokens value [] []
  rw [List.append_nil] at hread
  rw [ofTokens?, hread]
  rfl

/-- All numbers of a value are written as those of integers. -/
def IsWritten (value : Value) : Prop := ∀ token ∈ value.tokens, token.IsWritten

/-- A value is read back from its text. -/
theorem ofScalars?_compact {value : Value} (h : value.IsWritten) :
    ofScalars? (value.compact.toList.map some) = some value := by
  rw [compact, String.toList_ofList, ofScalars?, Token.ofText?_text h (isChain_tokens value)]
  exact ofTokens?_tokens value

/-- A text has no numbers. -/
theorem isWritten_ofString (s : String) : (ofString s).IsWritten := by
  intro token htoken
  obtain rfl := List.mem_singleton.mp htoken
  exact trivial

/-- An integer is written as such. -/
theorem isWritten_ofInt (n : Int) : (ofInt n).IsWritten := by
  intro token htoken
  obtain rfl := List.mem_singleton.mp htoken
  exact ⟨n, rfl⟩

/-- The tokens of items are theirs, and marks. -/
theorem of_mem_itemTokens {first : Bool} {items : List Value} {token : Token}
    (h : token ∈ itemTokens first items) :
    token = .endArray ∨ token = .comma ∨ ∃ item ∈ items, token ∈ item.tokens := by
  induction items generalizing first with
  | nil => exact .inl (List.mem_singleton.mp (by rwa [itemTokens] at h))
  | cons item rest ih =>
    have hitems : token = .comma ∨ token ∈ item.tokens ∨ token ∈ itemTokens false rest := by
      cases first with
      | true =>
        rw [itemTokens, List.mem_append] at h
        exact .inr h
      | false =>
        rw [itemTokens, List.mem_cons, List.mem_append] at h
        exact h
    rcases hitems with hcomma | hitem | hrest
    · exact .inr (.inl hcomma)
    · exact .inr (.inr ⟨item, List.mem_cons_self, hitem⟩)
    · rcases ih hrest with hend | hcomma | ⟨other, hother, htoken⟩
      · exact .inl hend
      · exact .inr (.inl hcomma)
      · exact .inr (.inr ⟨other, List.mem_cons_of_mem _ hother, htoken⟩)

/-- The tokens of an item are among those of the items. -/
theorem mem_itemTokens {first : Bool} {items : List Value} {item : Value} {token : Token}
    (hitem : item ∈ items) (h : token ∈ item.tokens) : token ∈ itemTokens first items := by
  induction items generalizing first with
  | nil => cases hitem
  | cons next rest ih =>
    have hmem : token ∈ next.tokens ++ itemTokens false rest := by
      rcases List.mem_cons.mp hitem with rfl | hrest
      · exact List.mem_append_left _ h
      · exact List.mem_append_right _ (ih hrest)
    cases first with
    | true => exact hmem
    | false => exact List.mem_cons_of_mem _ hmem

/-- The numbers of an array are those of its items. -/
theorem isWritten_array {items : List Value} (h : ∀ item ∈ items, item.IsWritten) :
    (array items).IsWritten := by
  intro token htoken
  rcases List.mem_cons.mp htoken with rfl | hitems
  · exact trivial
  · rcases of_mem_itemTokens hitems with rfl | rfl | ⟨item, hitem, htoken⟩
    · exact trivial
    · exact trivial
    · exact h item hitem token htoken

end Value

/-! ## Shapes -/

namespace Shape

open Value

/-- A text is read back. -/
theorem text?_ofString (s : String) : text? (ofString s) = some s := by
  have hpresent := Utf8.present?_map_some [] s.toList
  rw [ofString, text?, textOf?, hpresent, List.reverse_nil, List.nil_append, Option.map_some,
    String.ofList_toList]

/-- Items that are read back one by one are read back together. -/
theorem list?_array {α : Type} {item? : Value → Option α} {toJson : α → Value} {items : List α}
    (h : ∀ a ∈ items, item? (toJson a) = some a) :
    list? item? (.array (items.map toJson)) = some items := by
  rw [list?]
  induction items with
  | nil => rfl
  | cons item rest ih =>
    obtain ⟨hitem, hrest⟩ := List.forall_mem_cons.mp h
    rw [List.map_cons, all?, hitem, ih hrest]
    rfl

/-- The digits of a number of 64 bits have its magnitude. -/
theorem magnitude?_render {n : Nat} (h : n ≤ 0xFFFFFFFFFFFFFFFF) :
    integerOf?.magnitude? (Numeral.render n) = some n := by
  have hdigits : Token.isDigits (Numeral.render n) = true := by
    rw [Token.isDigits, Bool.and_eq_true, List.all_eq_true]
    exact ⟨by simp [Numeral.render_ne_nil], fun _ => Token.isDigit_of_mem_render⟩
  have hlength : (Numeral.render n).length ≤ integerDigits :=
    (Nat.length_toDigits_le_iff (by decide) (by decide)).mpr (Nat.lt_of_le_of_lt h (by decide))
  have hvalue : (Numeral.render n).foldl (fun n c => n * 10 + (c.toNat - '0'.toNat)) 0 = n := by
    simp only [Nat.mul_comm _ 10]
    exact Nat.ofDigitChars_ten_toDigits
  rw [integerOf?.magnitude?, if_pos (by simp [hdigits, hlength]), hvalue]

/-- An integer of 64 bits is read back. -/
theorem integerOf?_renderInt {n : Int} (h : n.natAbs ≤ 0xFFFFFFFFFFFFFFFF) :
    integerOf? (Numeral.renderInt n) = some n := by
  have hread := magnitude?_render h
  obtain ⟨c, cs, hc, -, hminus⟩ := Numeral.exists_cons_render n.natAbs
  rw [Numeral.renderInt]
  split
  · next hn =>
    have hvalue : -(n.natAbs : Int) = n := by omega
    have hzero := Numeral.head?_render_ne_zero (show n.natAbs ≠ 0 by omega)
    unfold integerOf?
    split
    case h_1 heq =>
      rw [(List.cons.inj heq).2] at hzero
      exact absurd rfl hzero
    case h_2 heq =>
      obtain rfl := (List.cons.inj heq).2
      rw [hread]
      exact congrArg some hvalue
    case h_3 hother => exact absurd rfl (hother _)
  · have hvalue : (n.natAbs : Int) = n := by omega
    rw [hc] at hread ⊢
    unfold integerOf?
    split
    case h_1 heq => exact absurd (List.cons.inj heq).1 hminus
    case h_2 heq => exact absurd (List.cons.inj heq).1 hminus
    case h_3 =>
      rw [hread]
      exact congrArg some hvalue

/-- An integer in the range is read back. -/
theorem integer?_ofInt {low high n : Int} (hl : low ≤ n) (hh : n ≤ high)
    (h : n.natAbs ≤ 0xFFFFFFFFFFFFFFFF) : integer? low high (ofInt n) = some n := by
  rw [ofInt, integer?, integerOf?_renderInt h, Option.filter_some_pos]
  exact decide_eq_true ⟨hl, hh⟩

/-- An unsigned number of 32 bits is read back. -/
theorem uint32?_ofUInt32 (n : UInt32) : uint32? (ofUInt32 n) = some n := by
  have hlt := n.toNat_lt
  rw [uint32?, ofUInt32, integer?_ofInt (by omega) (by omega) (by omega), Option.map_some,
    Int.toNat_natCast, UInt32.ofNat_toNat]

end Shape

end DebugLink.Json
