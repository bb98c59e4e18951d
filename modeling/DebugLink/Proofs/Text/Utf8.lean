import DebugLink.Text.Utf8
import Mathlib.Data.List.Basic

/-!
# UTF-8 reads back what it wrote

The machine tells each scalar value that was written, and nothing else, whatever follows.
Hence every text is read back from its octets, and octets below 128 stand for themselves
in both directions. Octets that are read without a gap were written: the bounds of the machine
exclude every other form.
-/

namespace DebugLink.Text.Utf8

/-- What has been told before stays in front. -/
theorem run_told (told : List (Option Char)) (state : State) (bytes : Bytes) :
    run told state bytes = told.reverse ++ run [] state bytes := by
  induction bytes generalizing told state with
  | nil => simp [run]
  | cons b rest ih =>
    rw [run, run, ih, ih ((move state b).1.reverse ++ [])]
    simp

/-- An octet that tells nothing only moves the machine. -/
theorem run_of_silent {state next : State} {b : UInt8} (h : move state b = ([], next))
    (rest : Bytes) : run [] state (b :: rest) = run [] next rest := by
  rw [run, h]
  rfl

/-- An octet that tells one thing puts it in front of what the rest tells. -/
theorem run_of_told {state next : State} {b : UInt8} {entry : Option Char}
    (h : move state b = ([entry], next)) (rest : Bytes) :
    run [] state (b :: rest) = entry :: run [] next rest := by
  rw [run, h, run_told]
  rfl

/-- The value of the octet made from a small number. -/
theorem toNat_toUInt8 {n : Nat} (h : n < 256) : n.toUInt8.toNat = n := by
  simp [Nat.mod_eq_of_lt h]

/-- Between scalar values the value of the octet decides. -/
theorem move_between {n : Nat} (h : n < 256) : move .between n.toUInt8 = begin n := by
  rw [move, toNat_toUInt8 h]

/-- A following octet in its bounds adds its six bits. -/
theorem move_inside_succ (tails value : Nat) {low high n : Nat} (hl : low ≤ n) (hh : n ≤ high)
    (hn : n < 256) :
    move (.inside (tails + 1) low high value) n.toUInt8 =
      ([], .inside tails 0x80 0xBF (value * 64 + (n - 0x80))) := by
  simp only [move, toNat_toUInt8 hn, hl, hh, and_self, if_true]

/-- The last following octet in its bounds completes the scalar value. -/
theorem move_inside_zero (value : Nat) {low high n : Nat} (hl : low ≤ n) (hh : n ≤ high)
    (hn : n < 256) :
    move (.inside 0 low high value) n.toUInt8 =
      ([some (Char.ofNat (value * 64 + (n - 0x80)))], .between) := by
  simp only [move, toNat_toUInt8 hn, hl, hh, and_self, if_true]

/-- The first of two octets leaves bounds that the second one keeps. -/
theorem begin_two {n : Nat} (hl : 0x80 ≤ n) (hh : n < 0x800) :
    begin (0xC0 + n / 64) = ([], .inside 0 0x80 0xBF (n / 64)) := by
  rw [begin, if_neg (by omega), if_neg (by omega), if_pos (by omega), Nat.add_sub_cancel_left]

/-- The first of three octets leaves bounds that the second one keeps: an overlong form or
a surrogate would leave them. -/
theorem begin_three {n : Nat} (hl : 0x800 ≤ n) (hh : n < 0x10000)
    (hs : n < 0xD800 ∨ 0xDFFF < n) :
    ∃ low high, begin (0xE0 + n / 4096) = ([], .inside 1 low high (n / 4096)) ∧
      low ≤ 0x80 + n / 64 % 64 ∧ 0x80 + n / 64 % 64 ≤ high := by
  by_cases h0 : n / 4096 = 0
  · exact ⟨0xA0, 0xBF, by rw [h0]; rfl, by omega, by omega⟩
  by_cases hd : n / 4096 = 0xD
  · exact ⟨0x80, 0x9F, by rw [hd]; rfl, by omega, by omega⟩
  refine ⟨0x80, 0xBF, ?_, by omega, by omega⟩
  rw [begin, if_neg (by omega), if_neg (by omega), if_neg (by omega), if_neg (by omega),
    if_neg (by omega), if_pos (by omega), Nat.add_sub_cancel_left]

/-- The first of four octets leaves bounds that the second one keeps: an overlong form or
a value behind the code space would leave them. -/
theorem begin_four {n : Nat} (hl : 0x10000 ≤ n) (hh : n < 0x110000) :
    ∃ low high, begin (0xF0 + n / 262144) = ([], .inside 2 low high (n / 262144)) ∧
      low ≤ 0x80 + n / 4096 % 64 ∧ 0x80 + n / 4096 % 64 ≤ high := by
  by_cases h0 : n / 262144 = 0
  · exact ⟨0x90, 0xBF, by rw [h0]; rfl, by omega, by omega⟩
  by_cases h4 : n / 262144 = 4
  · exact ⟨0x80, 0x8F, by rw [h4]; rfl, by omega, by omega⟩
  refine ⟨0x80, 0xBF, ?_, by omega, by omega⟩
  rw [begin, if_neg (by omega), if_neg (by omega), if_neg (by omega), if_neg (by omega),
    if_neg (by omega), if_neg (by omega), if_neg (by omega), if_pos (by omega),
    Nat.add_sub_cancel_left]

/-- A scalar value is no surrogate and lies below the end of the code space. -/
theorem toNat_bounds (c : Char) :
    c.toNat < 0xD800 ∨ (0xDFFF < c.toNat ∧ c.toNat < 0x110000) := c.valid

/-- The machine tells a written scalar value, whatever follows. -/
theorem run_encodeChar (c : Char) (rest : Bytes) :
    run [] .between (encodeChar c ++ rest) = some c :: run [] .between rest := by
  have hc := toNat_bounds c
  have hback : Char.ofNat c.toNat = c := Char.ofNat_toNat c
  unfold encodeChar
  generalize c.toNat = n at hc hback
  dsimp only
  split_ifs with h1 h2 h3
  · have hb : begin n = ([some (Char.ofNat n)], .between) := by rw [begin, if_pos h1]
    rw [← move_between (by omega), hback] at hb
    exact run_of_told hb rest
  · have hm := move_inside_zero (n / 64) (show 0x80 ≤ 0x80 + n % 64 by omega)
      (show _ ≤ 0xBF by omega) (by omega)
    rw [show n / 64 * 64 + (0x80 + n % 64 - 0x80) = n by omega, hback] at hm
    have hb := begin_two (by omega) h2
    rw [← move_between (by omega)] at hb
    exact (run_of_silent hb _).trans (run_of_told hm rest)
  · obtain ⟨low, high, hb, hl, hh⟩ := begin_three (by omega) h3 (by omega)
    rw [← move_between (by omega)] at hb
    have hm1 := move_inside_succ 0 (n / 4096) hl hh (by omega)
    have hm2 := move_inside_zero (n / 4096 * 64 + (0x80 + n / 64 % 64 - 0x80))
      (show 0x80 ≤ 0x80 + n % 64 by omega) (show _ ≤ 0xBF by omega) (by omega)
    rw [show (n / 4096 * 64 + (0x80 + n / 64 % 64 - 0x80)) * 64 + (0x80 + n % 64 - 0x80) = n by
      omega, hback] at hm2
    exact (run_of_silent hb _).trans ((run_of_silent hm1 _).trans (run_of_told hm2 rest))
  · obtain ⟨low, high, hb, hl, hh⟩ := begin_four (by omega) (show n < 0x110000 by omega)
    rw [← move_between (by omega)] at hb
    have hm1 := move_inside_succ 1 (n / 262144) hl hh (by omega)
    have hm2 := move_inside_succ 0 (n / 262144 * 64 + (0x80 + n / 4096 % 64 - 0x80))
      (show 0x80 ≤ 0x80 + n / 64 % 64 by omega) (show _ ≤ 0xBF by omega) (by omega)
    have hm3 := move_inside_zero
      ((n / 262144 * 64 + (0x80 + n / 4096 % 64 - 0x80)) * 64 + (0x80 + n / 64 % 64 - 0x80))
      (show 0x80 ≤ 0x80 + n % 64 by omega) (show _ ≤ 0xBF by omega) (by omega)
    rw [show ((n / 262144 * 64 + (0x80 + n / 4096 % 64 - 0x80)) * 64 +
      (0x80 + n / 64 % 64 - 0x80)) * 64 + (0x80 + n % 64 - 0x80) = n by omega, hback] at hm3
    exact (run_of_silent hb _).trans ((run_of_silent hm1 _).trans
      ((run_of_silent hm2 _).trans (run_of_told hm3 rest)))

/-- Written scalar values are told one after the other. -/
theorem scalars_encodeChars (cs : List Char) : scalars (encodeChars cs) = cs.map some := by
  unfold scalars encodeChars
  induction cs with
  | nil => rfl
  | cons c cs ih => rw [List.flatMap_cons, run_encodeChar, ih, List.map_cons]

/-- Scalar values without a gap are characters. -/
theorem present?_map_some (done cs : List Char) :
    present? done (cs.map some) = some (done.reverse ++ cs) := by
  induction cs generalizing done with
  | nil => simp [present?]
  | cons c cs ih => simp [present?, ih]

/-- Every text is read back from its octets. -/
theorem decode?_encode (s : String) : decode? (encode s) = some s := by
  rw [decode?, encode, scalars_encodeChars, present?_map_some]
  simp

/-- Reading that replaces what is invalid replaces nothing in the octets of a text. -/
theorem decodeLossy_encode (s : String) : decodeLossy (encode s) = s := by
  rw [decodeLossy, encode, scalars_encodeChars, List.map_map]
  simp [Function.comp_def]

/-- Different texts have different octets. -/
theorem encode_injective {s t : String} (h : encode s = encode t) : s = t := by
  rw [← decodeLossy_encode s, h, decodeLossy_encode]

/-- The octets of two texts in a row. -/
@[simp] theorem encodeChars_append (cs ds : List Char) :
    encodeChars (cs ++ ds) = encodeChars cs ++ encodeChars ds := List.flatMap_append

/-- The octets of a text that starts with a character. -/
@[simp] theorem encodeChars_cons (c : Char) (cs : List Char) :
    encodeChars (c :: cs) = encodeChar c ++ encodeChars cs := rfl

/-- The empty text has no octets. -/
@[simp] theorem encodeChars_nil : encodeChars [] = [] := rfl

/-! ## Octets below 128 -/

/-- A character below 128 is one octet. -/
theorem encodeChar_ascii {c : Char} (h : c.toNat < 0x80) : encodeChar c = [c.toNat.toUInt8] := by
  rw [encodeChar, if_pos h]

/-- All octets of any other character are at least 128. -/
theorem le_of_mem_encodeChar {c : Char} (h : ¬ c.toNat < 0x80) {b : UInt8}
    (hb : b ∈ encodeChar c) : 0x80 ≤ b.toNat := by
  have hc := toNat_bounds c
  unfold encodeChar at hb
  generalize c.toNat = n at h hc hb
  dsimp only at hb
  rw [if_neg h] at hb
  split_ifs at hb with h2 h3 <;>
    simp only [List.mem_cons, List.not_mem_nil, or_false] at hb
  · rcases hb with rfl | rfl <;> rw [toNat_toUInt8 (by omega)] <;> omega
  · rcases hb with rfl | rfl | rfl <;> rw [toNat_toUInt8 (by omega)] <;> omega
  · rcases hb with rfl | rfl | rfl | rfl <;> rw [toNat_toUInt8 (by omega)] <;> omega

/-- Every character has an octet. -/
theorem encodeChar_ne_nil (c : Char) : encodeChar c ≠ [] := by
  unfold encodeChar
  dsimp only
  split_ifs <;> exact List.cons_ne_nil _ _

/-- The number of the character of a scalar value. -/
theorem toNat_ofNat_of_valid {n : Nat} (h : n.isValidChar) : (Char.ofNat n).toNat = n := by
  rw [Char.ofNat, dif_pos h]
  rfl

/-- The number of the character of a number below 128. -/
theorem toNat_ofNat {n : Nat} (h : n < 0x80) : (Char.ofNat n).toNat = n :=
  toNat_ofNat_of_valid (.inl (by omega))

/-- Octets below 128 are read as the characters of the same numbers. -/
theorem encodeChars_map_ofNat {bytes : Bytes} (h : ∀ b ∈ bytes, b.toNat < 0x80) :
    encodeChars (bytes.map fun b => Char.ofNat b.toNat) = bytes := by
  induction bytes with
  | nil => rfl
  | cons b rest ih =>
    obtain ⟨hb, hr⟩ := List.forall_mem_cons.mp h
    have hv := toNat_ofNat hb
    rw [List.map_cons, encodeChars_cons, ih hr, encodeChar_ascii (by omega), hv]
    simp

/-- Octets below 128 are the octets of the text that they are read as. -/
theorem encode_decodeLossy {bytes : Bytes} (h : ∀ b ∈ bytes, b.toNat < 0x80) :
    encode (decodeLossy bytes) = bytes := by
  have he := encodeChars_map_ofNat h
  have hd := decodeLossy_encode (String.ofList (bytes.map fun b => Char.ofNat b.toNat))
  rw [encode, String.toList_ofList, he] at hd
  rw [hd, encode, String.toList_ofList, he]

/-! ## Only written octets are read -/

/-- In the given state, with the octets of a scalar value read so far, the machine tells a gap or
completes the scalar value. -/
def Completes (state : State) (front : Bytes) : Prop :=
  ∀ bytes, none ∈ run [] state bytes ∨
    ∃ c rest, front ++ bytes = encodeChar c ++ rest ∧
      run [] state bytes = some c :: run [] .between rest

/-- Inside a scalar value the machine tells a gap, or the next octet is in its bounds. -/
theorem run_inside_cases (tails low high value : Nat) (bytes : Bytes) :
    none ∈ run [] (.inside tails low high value) bytes ∨
      ∃ b rest, bytes = b :: rest ∧ low ≤ b.toNat ∧ b.toNat ≤ high := by
  cases bytes with
  | nil => exact .inl (List.mem_singleton.mpr rfl)
  | cons b rest =>
    by_cases hb : low ≤ b.toNat ∧ b.toNat ≤ high
    · exact .inr ⟨b, rest, rfl, hb⟩
    · refine .inl ?_
      rw [run, move]
      simp only [hb, if_false]
      rw [run_told]
      simp

/-- The last octet completes a scalar value, if the octets read are those of the value. -/
theorem completes_zero {low high value : Nat} {front : Bytes}
    (h : ∀ n, low ≤ n → n ≤ high →
      encodeChar (Char.ofNat (value * 64 + (n - 0x80))) = front ++ [n.toUInt8]) :
    Completes (.inside 0 low high value) front := by
  intro bytes
  refine (run_inside_cases 0 low high value bytes).imp_right ?_
  rintro ⟨b, rest, rfl, hl, hh⟩
  have hm := move_inside_zero value hl hh b.toNat_lt
  have he := h b.toNat hl hh
  rw [Nat.toUInt8_eq, UInt8.ofNat_toNat] at hm he
  exact ⟨_, rest, by rw [he, List.append_assoc]; rfl, run_of_told hm rest⟩

/-- An octet that is not the last one goes on to the next, if that completes the scalar value. -/
theorem completes_succ {tails low high value : Nat} {front : Bytes}
    (h : ∀ n, low ≤ n → n ≤ high →
      Completes (.inside tails 0x80 0xBF (value * 64 + (n - 0x80))) (front ++ [n.toUInt8])) :
    Completes (.inside (tails + 1) low high value) front := by
  intro bytes
  rcases run_inside_cases (tails + 1) low high value bytes with hgap | ⟨b, rest, rfl, hl, hh⟩
  · exact .inl hgap
  have hm := move_inside_succ tails value hl hh b.toNat_lt
  have hnext := h b.toNat hl hh rest
  rw [Nat.toUInt8_eq, UInt8.ofNat_toNat] at hm hnext
  rw [run_of_silent hm]
  rwa [List.append_assoc] at hnext

/-- The octets of a scalar value that takes two. -/
theorem encodeChar_two {n : Nat} (hl : 0x80 ≤ n) (hh : n < 0x800) :
    encodeChar (Char.ofNat n) = [(0xC0 + n / 64).toUInt8, (0x80 + n % 64).toUInt8] := by
  rw [encodeChar, toNat_ofNat_of_valid (.inl (by omega)), if_neg (by omega), if_pos hh]

/-- The octets of a scalar value that takes three. -/
theorem encodeChar_three {n : Nat} (hl : 0x800 ≤ n) (hh : n < 0x10000)
    (hs : n < 0xD800 ∨ 0xDFFF < n) :
    encodeChar (Char.ofNat n) =
      [(0xE0 + n / 4096).toUInt8, (0x80 + n / 64 % 64).toUInt8, (0x80 + n % 64).toUInt8] := by
  rw [encodeChar, toNat_ofNat_of_valid (hs.imp_right fun hs => ⟨hs, by omega⟩),
    if_neg (by omega), if_neg (by omega), if_pos hh]

/-- The octets of a scalar value that takes four. -/
theorem encodeChar_four {n : Nat} (hl : 0x10000 ≤ n) (hh : n < 0x110000) :
    encodeChar (Char.ofNat n) =
      [(0xF0 + n / 262144).toUInt8, (0x80 + n / 4096 % 64).toUInt8,
        (0x80 + n / 64 % 64).toUInt8, (0x80 + n % 64).toUInt8] := by
  rw [encodeChar, toNat_ofNat_of_valid (.inr ⟨by omega, hh⟩), if_neg (by omega),
    if_neg (by omega), if_neg (by omega)]

/-- The second of two octets completes a scalar value. -/
theorem completes_two {value : Nat} (hl : 2 ≤ value) (hh : value < 0x20) :
    Completes (.inside 0 0x80 0xBF value) [(0xC0 + value).toUInt8] := by
  refine completes_zero fun n hn hn' => ?_
  rw [encodeChar_two (by omega) (by omega),
    show (value * 64 + (n - 0x80)) / 64 = value by omega,
    show 0x80 + (value * 64 + (n - 0x80)) % 64 = n by omega]
  rfl

/-- The second of three octets leads on to the third, if its bounds exclude overlong forms and
surrogates. -/
theorem completes_three {low high value : Nat} (hv : value < 0x10) (hl : 0x80 ≤ low)
    (hh : high ≤ 0xBF) (h0 : value = 0 → 0xA0 ≤ low) (hd : value = 0xD → high ≤ 0x9F) :
    Completes (.inside 1 low high value) [(0xE0 + value).toUInt8] := by
  refine completes_succ fun n hn hn' => completes_zero fun m hm hm' => ?_
  rw [encodeChar_three (by omega) (by omega) (by omega),
    show ((value * 64 + (n - 0x80)) * 64 + (m - 0x80)) / 4096 = value by omega,
    show 0x80 + ((value * 64 + (n - 0x80)) * 64 + (m - 0x80)) / 64 % 64 = n by omega,
    show 0x80 + ((value * 64 + (n - 0x80)) * 64 + (m - 0x80)) % 64 = m by omega]
  rfl

/-- The second of four octets leads on to the others, if its bounds exclude overlong forms and
values behind the code space. -/
theorem completes_four {low high value : Nat} (hv : value < 5) (hl : 0x80 ≤ low)
    (hh : high ≤ 0xBF) (h0 : value = 0 → 0x90 ≤ low) (h4 : value = 4 → high ≤ 0x8F) :
    Completes (.inside 2 low high value) [(0xF0 + value).toUInt8] := by
  refine completes_succ fun n hn hn' => completes_succ fun m hm hm' =>
    completes_zero fun k hk hk' => ?_
  generalize hc : ((value * 64 + (n - 0x80)) * 64 + (m - 0x80)) * 64 + (k - 0x80) = code
  rw [encodeChar_four (by omega) (by omega), show code / 262144 = value by omega,
    show 0x80 + code / 4096 % 64 = n by omega, show 0x80 + code / 64 % 64 = m by omega,
    show 0x80 + code % 64 = k by omega]
  rfl

/-- The first octet tells a scalar value or a gap, or it leads on to the others. -/
theorem begin_cases {b : Nat} (h : b < 256) :
    (b < 0x80 ∧ begin b = ([some (Char.ofNat b)], .between)) ∨ begin b = ([none], .between) ∨
      ∃ state, begin b = ([], state) ∧ Completes state [b.toUInt8] := by
  have hsilent : ∀ first value tails low high, b = first + value →
      Completes (.inside tails low high value) [(first + value).toUInt8] →
        ∃ state, (([], .inside tails low high value) : Move) = ([], state) ∧
          Completes state [b.toUInt8] := by
    rintro first value tails low high rfl hc
    exact ⟨_, rfl, hc⟩
  by_cases h1 : b < 0x80
  · exact .inl ⟨h1, if_pos h1⟩
  rw [begin, if_neg h1]
  refine .inr ?_
  by_cases h2 : b < 0xC2
  · exact .inl (if_pos h2)
  rw [if_neg h2]
  by_cases h3 : b < 0xE0
  · rw [if_pos h3]
    exact .inr (hsilent 0xC0 (b - 0xC0) _ _ _ (by omega) (completes_two (by omega) (by omega)))
  rw [if_neg h3]
  by_cases h4 : b = 0xE0
  · rw [if_pos h4]
    exact .inr (hsilent 0xE0 0 _ _ _ h4
      (completes_three (by omega) (by omega) (by omega) (by omega) (by omega)))
  rw [if_neg h4]
  by_cases h5 : b = 0xED
  · rw [if_pos h5]
    exact .inr (hsilent 0xE0 0xD _ _ _ h5
      (completes_three (by omega) (by omega) (by omega) (by omega) (by omega)))
  rw [if_neg h5]
  by_cases h6 : b < 0xF0
  · rw [if_pos h6]
    exact .inr (hsilent 0xE0 (b - 0xE0) _ _ _ (by omega)
      (completes_three (by omega) (by omega) (by omega) (by omega) (by omega)))
  rw [if_neg h6]
  by_cases h7 : b = 0xF0
  · rw [if_pos h7]
    exact .inr (hsilent 0xF0 0 _ _ _ h7
      (completes_four (by omega) (by omega) (by omega) (by omega) (by omega)))
  rw [if_neg h7]
  by_cases h8 : b < 0xF4
  · rw [if_pos h8]
    exact .inr (hsilent 0xF0 (b - 0xF0) _ _ _ (by omega)
      (completes_four (by omega) (by omega) (by omega) (by omega) (by omega)))
  rw [if_neg h8]
  by_cases h9 : b = 0xF4
  · rw [if_pos h9]
    exact .inr (hsilent 0xF0 4 _ _ _ h9
      (completes_four (by omega) (by omega) (by omega) (by omega) (by omega)))
  exact .inl (if_neg h9)

/-- Octets hold a gap, or begin with those of a scalar value. -/
theorem run_between_cases (b : UInt8) (rest : Bytes) :
    none ∈ run [] .between (b :: rest) ∨ ∃ c behind, b :: rest = encodeChar c ++ behind ∧
      run [] .between (b :: rest) = some c :: run [] .between behind := by
  have hmove : move .between b = begin b.toNat := rfl
  rcases begin_cases b.toNat_lt with ⟨hb, hbegin⟩ | hbegin | ⟨state, hbegin, hc⟩ <;>
    rw [hbegin] at hmove
  · refine .inr ⟨Char.ofNat b.toNat, rest, ?_, run_of_told hmove rest⟩
    rw [encodeChar_ascii (by rwa [toNat_ofNat hb]), toNat_ofNat hb, Nat.toUInt8_eq,
      UInt8.ofNat_toNat]
    rfl
  · rw [run_of_told hmove]
    exact .inl List.mem_cons_self
  · have hnext := hc rest
    rw [Nat.toUInt8_eq, UInt8.ofNat_toNat] at hnext
    rw [run_of_silent hmove]
    exact hnext

/-- Octets without a gap are those of the scalar values told. -/
theorem eq_encodeChars_of_scalars {bytes : Bytes} {cs : List Char}
    (h : scalars bytes = cs.map some) : bytes = encodeChars cs := by
  induction cs generalizing bytes with
  | nil =>
    cases bytes with
    | nil => rfl
    | cons b rest =>
      rcases run_between_cases b rest with hgap | ⟨c, behind, -, hrun⟩
      · rw [show run [] .between (b :: rest) = [] from h] at hgap
        cases hgap
      · rw [scalars, hrun] at h
        cases h
  | cons c cs ih =>
    cases bytes with
    | nil => cases h
    | cons b rest =>
      rcases run_between_cases b rest with hgap | ⟨first, behind, hb, hrun⟩
      · rw [show run [] .between (b :: rest) = _ from h, List.mem_map] at hgap
        obtain ⟨_, -, hn⟩ := hgap
        cases hn
      · rw [scalars, hrun, List.map_cons, List.cons.injEq, Option.some.injEq] at h
        rw [hb, encodeChars_cons, ← h.1, ← ih h.2]

/-- What is present has no gap. -/
theorem eq_of_present? {done cs : List Char} {list : List (Option Char)}
    (h : present? done list = some cs) :
    ∃ rest, list = rest.map some ∧ cs = done.reverse ++ rest := by
  induction list generalizing done with
  | nil => exact ⟨[], rfl, by rw [List.append_nil]; exact (Option.some.inj h).symm⟩
  | cons entry list ih =>
    cases entry with
    | none => cases h
    | some c =>
      obtain ⟨rest, rfl, rfl⟩ := ih h
      exact ⟨c :: rest, rfl, by simp⟩

/-- Octets are read as a text exactly when they are its octets. -/
theorem decode?_eq_some_iff {bytes : Bytes} {s : String} :
    decode? bytes = some s ↔ bytes = encode s := by
  constructor
  · intro h
    rw [decode?, Option.map_eq_some_iff] at h
    obtain ⟨cs, hp, rfl⟩ := h
    obtain ⟨rest, hs, rfl⟩ := eq_of_present? hp
    rw [eq_encodeChars_of_scalars hs, encode, String.toList_ofList]
  · rintro rfl
    exact decode?_encode s

end DebugLink.Text.Utf8
