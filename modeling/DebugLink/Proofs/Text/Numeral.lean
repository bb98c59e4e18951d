import DebugLink.Proofs.Text.Blank
import DebugLink.Text.Numeral

/-!
# Numbers are read back

A number is written with decimal digits, without a leading zero, and behind a minus sign where it
is negative. Every reader of a range reads back the numbers of its range, and nothing has to be
trimmed from a numeral. Other numerals are read too: an unsigned number is read from its digits,
with leading zeros or without, and with a plus sign in front or without, and from nothing else.
-/

namespace DebugLink.Text.Numeral

/-! ## Digits -/

/-- A number is written with digits. -/
theorem isDigit_of_mem_render {n : Nat} {c : Char} (h : c ∈ render n) : c.isDigit = true :=
  Nat.isDigit_of_mem_toDigits (by decide) (by decide) h

/-- The numbers of the digits of a number. -/
theorem toNat_of_mem_render {n : Nat} {c : Char} (h : c ∈ render n) :
    48 ≤ c.toNat ∧ c.toNat ≤ 57 := by
  have hd := isDigit_of_mem_render h
  simp only [Char.isDigit, Bool.and_eq_true, decide_eq_true_eq, UInt32.le_iff_toNat_le] at hd
  exact hd

/-- A separator does not stand in a number. -/
theorem notMem_render {s : Char} (h : s.toNat < 48 ∨ 57 < s.toNat) (n : Nat) :
    s ∉ render n := by
  intro hs
  have hdigit := toNat_of_mem_render hs
  omega

/-- A number has a digit. -/
theorem render_ne_nil (n : Nat) : render n ≠ [] := Nat.toDigits_ne_nil

/-- Digits have a value, and no other character has one. -/
theorem digit?_eq (c : Char) :
    digit? c = if c.isDigit = true then some (c.toNat - '0'.toNat) else none := by
  have hdigit : ('0' ≤ c ∧ c ≤ '9') ↔ c.isDigit = true := by
    simp only [Char.isDigit, Bool.and_eq_true, decide_eq_true_eq]
    rfl
  rw [digit?]
  simp only [hdigit]

/-- A number of more than one digit is written behind its tenth. -/
theorem render_of_le {n : Nat} (h : 10 ≤ n) :
    render n = render (n / 10) ++ [Nat.digitChar (n % 10)] := Nat.toDigits_of_base_le (by decide) h

/-- Only zero is written with a zero in front. -/
theorem head?_render_ne_zero {n : Nat} (h : n ≠ 0) : (render n).head? ≠ some '0' := by
  induction n using Nat.strongRecOn with
  | _ n ih =>
    by_cases hn : n < 10
    · have hdigit : ∀ d < 10, d ≠ 0 → [Nat.digitChar d].head? ≠ some '0' := by decide
      have hone : render n = [Nat.digitChar n] := Nat.toDigits_of_lt_base hn
      rw [hone]
      exact hdigit n hn h
    · have hfront := ih (n / 10) (by omega) (by omega)
      obtain ⟨c, cs, hc⟩ := List.exists_cons_of_ne_nil (render_ne_nil (n / 10))
      rw [hc] at hfront
      rw [render_of_le (by omega), hc]
      exact hfront

/-! ## Reading digits -/

/-- Digits behind a number make it no smaller. -/
theorem le_ofDigitChars (cs : List Char) (value : Nat) :
    value ≤ Nat.ofDigitChars 10 cs value := by
  rw [Nat.ofDigitChars_eq_ofDigitChars_zero]
  have hpos : 1 ≤ 10 ^ cs.length := Nat.one_le_pow _ _ (by decide)
  have hle := Nat.mul_le_mul_right value hpos
  omega

/-- Behind a value in the range digits are read whose number does not leave it, and nothing else
is. -/
theorem readDigits_eq_ok_iff {bound value n : Nat} {fault : Fault} {cs : List Char}
    (h : value ≤ bound) :
    readDigits bound fault value cs = .ok n ↔
      (∀ c ∈ cs, c.isDigit = true) ∧ Nat.ofDigitChars 10 cs value = n ∧ n ≤ bound := by
  induction cs generalizing value with
  | nil =>
    rw [readDigits, Except.ok.injEq, Nat.ofDigitChars_nil]
    exact ⟨fun hn => ⟨nofun, hn, hn ▸ h⟩, fun hn => hn.2.1⟩
  | cons c cs ih =>
    rw [readDigits, digit?_eq, Nat.ofDigitChars_cons, List.forall_mem_cons, Nat.mul_comm value 10]
    by_cases hc : c.isDigit = true
    · rw [if_pos hc, and_iff_right hc]
      dsimp only
      split
      · next hle => exact ih hle
      · next hlt =>
        refine iff_of_false nofun ?_
        rintro ⟨-, rfl, hle⟩
        have hvalue := le_ofDigitChars cs (10 * value + (c.toNat - '0'.toNat))
        omega
    · rw [if_neg hc]
      exact iff_of_false nofun fun hr => hc hr.1.1

/-! ## The form of numerals -/

/-- Decimal digits denote a number. -/
structure AreDigits (cs : List Char) (n : Nat) : Prop where
  /-- There is a digit. -/
  nonempty : cs ≠ []
  /-- There are digits only. -/
  digit : ∀ c ∈ cs, c.isDigit = true
  /-- They denote the number. -/
  value : Nat.ofDigitChars 10 cs 0 = n

/-- A numeral denotes a number: its digits do, behind a plus sign or without one. -/
def Denotes (cs : List Char) (n : Nat) : Prop :=
  AreDigits cs n ∨ ∃ digits, cs = '+' :: digits ∧ AreDigits digits n

/-- The digits of a number denote it. -/
theorem areDigits_render (n : Nat) : AreDigits (render n) n :=
  ⟨render_ne_nil n, fun _ hc => isDigit_of_mem_render hc, Nat.ofDigitChars_ten_toDigits⟩

/-- A plus sign is no digit. -/
theorem not_areDigits_plus (cs : List Char) (n : Nat) : ¬ AreDigits ('+' :: cs) n :=
  fun h => absurd (h.digit '+' List.mem_cons_self) (by decide)

/-- The characters of a numeral. -/
theorem Denotes.of_mem {cs : List Char} {n : Nat} (h : Denotes cs n) {c : Char} (hc : c ∈ cs) :
    c = '+' ∨ c.isDigit = true := by
  rcases h with h | ⟨digits, rfl, h⟩
  · exact .inr (h.digit c hc)
  · rcases List.mem_cons.mp hc with hplus | hc
    · exact .inl hplus
    · exact .inr (h.digit c hc)

/-- A numeral is not empty. -/
theorem Denotes.ne_nil {cs : List Char} {n : Nat} (h : Denotes cs n) : cs ≠ [] := by
  rcases h with h | ⟨digits, rfl, -⟩
  · exact h.nonempty
  · exact List.cons_ne_nil _ _

/-- Digits are read up to the bound. -/
theorem readMagnitude_eq_ok_iff {bound n : Nat} {fault : Fault} {cs : List Char} :
    readMagnitude bound fault cs = .ok n ↔ AreDigits cs n ∧ n ≤ bound := by
  rw [readMagnitude]
  split
  · next hempty => exact iff_of_false nofun fun h => h.1.nonempty (List.isEmpty_iff.mp hempty)
  · next hne =>
    rw [readDigits_eq_ok_iff (Nat.zero_le bound)]
    exact ⟨fun ⟨hd, hv, hle⟩ => ⟨⟨fun hnil => hne (List.isEmpty_iff.mpr hnil), hd, hv⟩, hle⟩,
      fun ⟨h, hle⟩ => ⟨h.digit, h.value, hle⟩⟩

/-- An unsigned number is read from the numerals that denote it, up to the bound. -/
theorem readNat_eq_ok_iff {bound n : Nat} {cs : List Char} :
    readNat bound cs = .ok n ↔ Denotes cs n ∧ n ≤ bound := by
  unfold readNat
  split
  case h_1 => exact iff_of_false nofun fun h => h.1.ne_nil rfl
  case h_2 rest =>
    rw [readMagnitude_eq_ok_iff, Denotes, or_iff_right (not_areDigits_plus rest n)]
    simp
  case h_3 hne hsign =>
    have hread : readMagnitude bound .tooLarge cs = readDigits bound .tooLarge 0 cs :=
      if_neg (by simpa using hne)
    rw [← hread, readMagnitude_eq_ok_iff, Denotes, or_iff_left]
    rintro ⟨digits, hdigits, -⟩
    exact hsign digits hdigits

/-- A number of 32 bits is read from the numerals that denote it. -/
theorem readUInt32_eq_ok_iff {cs : List Char} {n : UInt32} :
    readUInt32 cs = .ok n ↔ Denotes cs n.toNat := by
  have hlt := n.toNat_lt
  constructor
  · intro h
    rw [readUInt32] at h
    cases hn : readNat 0xFFFFFFFF cs with
    | error fault =>
      rw [hn] at h
      cases h
    | ok value =>
      rw [hn] at h
      cases h
      obtain ⟨hdenotes, hle⟩ := readNat_eq_ok_iff.mp hn
      rwa [UInt32.toNat_ofNat_of_lt' (Nat.lt_succ_of_le hle)]
  · intro h
    rw [readUInt32, readNat_eq_ok_iff.mpr ⟨h, by omega⟩]
    exact congrArg Except.ok UInt32.ofNat_toNat

/-! ## Numbers are read back -/

/-- A number has a first digit, which is no sign. -/
theorem exists_cons_render (n : Nat) : ∃ c cs, render n = c :: cs ∧ c ≠ '+' ∧ c ≠ '-' := by
  obtain ⟨c, cs, hc⟩ := List.exists_cons_of_ne_nil (render_ne_nil n)
  have hdigit : 48 ≤ c.toNat := (toNat_of_mem_render (hc ▸ List.mem_cons_self)).1
  refine ⟨c, cs, hc, ?_, ?_⟩ <;> rintro rfl <;> exact absurd hdigit (by decide)

/-- An integer in the range is read back. -/
theorem readInt_renderInt {n : Int} {low high : Nat} (hl : -low ≤ n) (hh : n ≤ high) :
    readInt low high (renderInt n) = .ok n := by
  rw [renderInt]
  split
  · next hn =>
    have hvalue : -(n.natAbs : Int) = n := by omega
    rw [readInt, readMagnitude_eq_ok_iff.mpr ⟨areDigits_render n.natAbs, by omega⟩]
    exact congrArg Except.ok hvalue
  · next hn =>
    obtain ⟨-, hdigit, hvalue⟩ := areDigits_render n.natAbs
    have hread : readDigits high .tooLarge 0 (render n.natAbs) = .ok n.natAbs :=
      (readDigits_eq_ok_iff (Nat.zero_le high)).mpr ⟨hdigit, hvalue, by omega⟩
    obtain ⟨c, cs, hc, hplus, hminus⟩ := exists_cons_render n.natAbs
    rw [hc] at hread ⊢
    unfold readInt
    split
    case h_1 hnil => cases hnil
    case h_2 hsign => exact absurd (List.cons.inj hsign).1 hplus
    case h_3 hsign => exact absurd (List.cons.inj hsign).1 hminus
    case h_4 =>
      have hvalue : (n.natAbs : Int) = n := by omega
      rw [hread]
      exact congrArg Except.ok hvalue

/-- A number of 32 bits is read back. -/
theorem readUInt32_render (n : UInt32) : readUInt32 (render n.toNat) = .ok n :=
  readUInt32_eq_ok_iff.mpr (.inl (areDigits_render n.toNat))

/-- A signed number of 32 bits is read back. -/
theorem readInt32_renderInt (n : Int32) : readInt32 (renderInt n.toInt) = .ok n := by
  have hl := n.le_toInt
  have hh := n.toInt_lt
  rw [readInt32, readInt_renderInt (by omega) (by omega)]
  exact congrArg Except.ok n.ofInt_toInt

/-- A signed number of 64 bits is read back. -/
theorem readInt64_renderInt (n : Int64) : readInt64 (renderInt n.toInt) = .ok n := by
  have hl := n.le_toInt
  have hh := n.toInt_lt
  rw [readInt64, readInt_renderInt (by omega) (by omega)]
  exact congrArg Except.ok n.ofInt_toInt

/-! ## Numerals among other characters -/

/-- An integer is written with digits and a minus sign. -/
theorem of_mem_renderInt {n : Int} {c : Char} (h : c ∈ renderInt n) :
    c = '-' ∨ 48 ≤ c.toNat ∧ c.toNat ≤ 57 := by
  rw [renderInt] at h
  split at h
  · rcases List.mem_cons.mp h with rfl | h
    · exact .inl rfl
    · exact .inr (toNat_of_mem_render h)
  · exact .inr (toNat_of_mem_render h)

/-- A digit is no blank. -/
theorem isBlank_of_digit {c : Char} (hl : 48 ≤ c.toNat) (hh : c.toNat ≤ 57) :
    Blank.isBlank c = false := by
  simp only [Blank.isBlank, Bool.or_eq_false_iff, Bool.and_eq_false_iff, decide_eq_false_iff_not,
    beq_eq_false_iff_ne]
  omega

/-- Nothing has to be trimmed from a number. -/
theorem trim_render (n : Nat) : Blank.trim (render n) = render n :=
  Blank.trim_of_forall fun _ hc =>
    isBlank_of_digit (toNat_of_mem_render hc).1 (toNat_of_mem_render hc).2

/-- Nothing has to be trimmed from an integer. -/
theorem trim_renderInt (n : Int) : Blank.trim (renderInt n) = renderInt n :=
  Blank.trim_of_forall fun c hc => by
    rcases of_mem_renderInt hc with rfl | ⟨hl, hh⟩
    · decide
    · exact isBlank_of_digit hl hh

end DebugLink.Text.Numeral
