import DebugLink.Proofs.Text.Utf8
import DebugLink.Proofs.Wire.Stability
import DebugLink.Snapshot.Import

/-!
# Lines of a text and of a source

The lines of a text are those that a source of its octets is read in, however it is cut into reads.
A newline is one octet and part of no other character, so each line is UTF-8 on its own if and only
if the whole is. Text that ends with a newline has lines of its own: those of what follows come
behind them.
-/

namespace DebugLink

open Text Wire

/-! ## Newlines among octets -/

namespace Text.Utf8

/-- The octet of a newline stands for a newline. -/
theorem eq_newline_of_mem_encodeChar {c : Char} (h : newline ∈ encodeChar c) : c = '\n' := by
  by_cases hc : c.toNat < 0x80
  · rw [encodeChar_ascii hc, List.mem_singleton] at h
    have hn := congrArg UInt8.toNat h
    rw [toNat_toUInt8 (by omega)] at hn
    exact Char.toNat_inj.mp hn.symm
  · exact absurd (le_of_mem_encodeChar hc h) (by decide)

/-- The octets of characters hold that of a newline if the characters hold a newline. -/
theorem newline_mem_encodeChars {cs : List Char} : newline ∈ encodeChars cs ↔ '\n' ∈ cs := by
  rw [encodeChars, List.mem_flatMap]
  constructor
  · rintro ⟨c, hc, hm⟩
    rwa [← eq_newline_of_mem_encodeChar hm]
  · exact fun h => ⟨'\n', h, by decide⟩

/-- Where the octets of characters are cut at a newline, the characters are. -/
theorem exists_of_encodeChars_eq {cs : List Char} {front back : Bytes}
    (h : encodeChars cs = front ++ newline :: back) :
    ∃ ahead behind, cs = ahead ++ '\n' :: behind ∧ encodeChars ahead = front ∧
      encodeChars behind = back := by
  induction cs generalizing front with
  | nil => simp at h
  | cons c cs ih =>
    rw [encodeChars_cons, List.append_eq_append_iff] at h
    rcases h with ⟨more, hfront, hrest⟩ | ⟨more, hc, hrest⟩
    · obtain ⟨ahead, behind, rfl, rfl, hb⟩ := ih hrest
      exact ⟨c :: ahead, behind, rfl, by rw [hfront, encodeChars_cons], hb⟩
    · cases more with
      | nil =>
        have hcs : encodeChars cs = [] ++ newline :: back := hrest.symm
        obtain ⟨ahead, behind, rfl, ha, hb⟩ := ih hcs
        refine ⟨c :: ahead, behind, rfl, ?_, hb⟩
        rw [encodeChars_cons, ha, hc, List.append_nil, List.append_nil]
      | cons b more =>
        obtain ⟨rfl, hback⟩ := List.cons.inj hrest
        obtain rfl := eq_newline_of_mem_encodeChar (c := c) (by rw [hc]; simp)
        have hone : ([newline] : Bytes) = front ++ newline :: more := hc
        obtain ⟨rfl, hmore⟩ := List.append_eq_singleton_iff.mp hone.symm |>.resolve_right (by simp)
        obtain rfl := (List.cons.inj hmore).2
        exact ⟨[], cs, rfl, rfl, hback.symm⟩

/-- Octets that end with a newline are UTF-8 apart from those behind them. -/
theorem decode?_append {line rest : Bytes} (h : line.getLast? = some newline) :
    decode? (line ++ rest) = (decode? line).bind fun text => (decode? rest).map (text ++ ·) := by
  obtain ⟨front, rfl⟩ := List.getLast?_eq_some_iff.mp h
  rw [Option.ext_iff]
  intro text
  simp only [Option.bind_eq_some_iff, Option.map_eq_some_iff, decode?_eq_some_iff]
  constructor
  · intro ht
    rw [List.append_assoc, encode] at ht
    obtain ⟨ahead, behind, hcs, rfl, rfl⟩ := exists_of_encodeChars_eq ht.symm
    refine ⟨String.ofList (ahead ++ ['\n']), ?_, String.ofList behind, ?_, ?_⟩
    · rw [encode, String.toList_ofList, encodeChars_append]
      rfl
    · rw [encode, String.toList_ofList]
    · rw [← String.ofList_append, ← String.ofList_toList (s := text), hcs]
      simp
  · rintro ⟨first, hf, second, rfl, rfl⟩
    rw [hf, encode, encode, encode, String.toList_append, encodeChars_append]

end Text.Utf8

/-! ## Lines of a text -/

namespace FlatFile

/-- A text without a newline is not chopped. -/
theorem chop_of_notMem {line : List Char} (h : '\n' ∉ line) : chop line = line :=
  if_neg fun hl => h (List.mem_of_getLast? hl)

/-- A newline and a carriage return in front of it are chopped. -/
theorem chop_append_newline (line : List Char) :
    chop (line ++ ['\n']) = if line.getLast? = some '\r' then line.dropLast else line := by
  rw [chop, List.getLast?_concat, if_pos rfl, List.dropLast_concat]

/-- A character that ends no line is put in front of the first one. -/
theorem lines_cons {c : Char} {rest : List Char} (hc : c ≠ '\n')
    (hr : c = '\r' → rest.head? ≠ some '\n') : lines (c :: rest) = extend c (lines rest) := by
  refine lines.eq_4 c rest (fun more h hm => ?_) hc
  rw [hm] at hr
  exact hr h rfl

/-- The first line of a text goes to its first newline. -/
theorem lines_append_newline {line : List Char} (h : '\n' ∉ line) (rest : List Char) :
    lines (line ++ '\n' :: rest) = chop (line ++ ['\n']) :: lines rest := by
  rw [chop_append_newline]
  induction line with
  | nil => rfl
  | cons c line ih =>
    rw [List.mem_cons, not_or] at h
    have hrest := ih h.2
    by_cases hbreak : c = '\r' ∧ line = []
    · obtain ⟨rfl, rfl⟩ := hbreak
      rfl
    · have hhead : c = '\r' → (line ++ '\n' :: rest).head? ≠ some '\n' := by
        intro hcr hn
        cases line with
        | nil => exact hbreak ⟨hcr, rfl⟩
        | cons d line => exact h.2 (Option.some.inj hn ▸ List.mem_cons_self)
      rw [List.cons_append, lines_cons (Ne.symm h.1) hhead, hrest, extend]
      cases line with
      | nil =>
        have hcr : c ≠ '\r' := fun hcr => hbreak ⟨hcr, rfl⟩
        simp [hcr]
      | cons d line =>
        rw [List.getLast?_cons_cons]
        split <;> rfl

/-- The last line of a text may lack a newline. -/
theorem lines_of_notMem {line : List Char} (h : '\n' ∉ line) (hne : line ≠ []) :
    lines line = [line] := by
  induction line with
  | nil => exact absurd rfl hne
  | cons c line ih =>
    rw [List.mem_cons, not_or] at h
    have hhead : line.head? ≠ some '\n' := fun hn => h.2 (List.mem_of_head? hn)
    rw [lines_cons (Ne.symm h.1) fun _ => hhead]
    cases line with
    | nil => rfl
    | cons d line => rw [ih h.2 (List.cons_ne_nil d line), extend]

/-- Text that ends with a newline has lines of its own. -/
theorem lines_append {front : List Char} (h : front = [] ∨ front.getLast? = some '\n')
    (back : List Char) : lines (front ++ back) = lines front ++ lines back := by
  induction hlength : front.length using Nat.strongRecOn generalizing front with
  | ind length ih =>
    rcases h with rfl | h
    · rfl
    obtain ⟨line, rest, rfl, hline⟩ := List.eq_append_cons_of_mem (List.mem_of_getLast? h)
    have hrest : rest = [] ∨ rest.getLast? = some '\n' := by
      cases rest with
      | nil => exact .inl rfl
      | cons c rest =>
        rw [List.getLast?_append_cons, List.getLast?_cons_cons] at h
        exact .inr h
    have hlt : rest.length < length := by
      rw [← hlength, List.length_append, List.length_cons]
      omega
    rw [List.append_assoc, List.cons_append, lines_append_newline hline, lines_append_newline hline,
      ih rest.length hlt hrest rfl, List.cons_append]

/-! ## Lines of a source -/

/-- The octets of a source up to the end of the stream, unless a read fails before. -/
def content? : List Arrival → Option Bytes
  | [] => some []
  | .data [] :: _ => some []
  | .data (b :: bytes) :: source => (content? source).map (b :: bytes ++ ·)
  | .fault fault :: source => if fault.kind = .interrupted then content? source else none

/-- Octets that go to the next newline, or to the end where there is nothing left. -/
def IsLine (line : Bytes) (left : Option Bytes) : Prop :=
  (∃ front, newline ∉ front ∧ line = front ++ [newline]) ∨ newline ∉ line ∧ left = some []

/-- Octets without a newline make a line longer. -/
theorem IsLine.append {front line : Bytes} {left : Option Bytes} (h : IsLine line left)
    (hf : newline ∉ front) : IsLine (front ++ line) left := by
  rcases h with ⟨before, hb, rfl⟩ | ⟨hl, rfl⟩
  · exact .inl ⟨front ++ before, by simp [hf, hb], by rw [List.append_assoc]⟩
  · exact .inr ⟨by simp [hf, hl], rfl⟩

/-- What a read leaves are the octets behind those that it takes. -/
theorem content?_afterRead (count : Nat) (bytes : Bytes) (source : List Arrival) :
    content? (Arrival.afterRead count bytes source) =
      (content? source).map (bytes.drop count ++ ·) := by
  simp only [Arrival.afterRead]
  cases bytes.drop count with
  | nil => simp
  | cons b rest => rfl

/-- The next line of a source is that of its octets, and a read that fails is not passed over. -/
theorem nextLine_spec (seen : Bytes) (source : List Arrival) :
    (∃ fault, nextLine seen source = .error fault ∧ content? source = none) ∨
    ∃ line rest, nextLine seen source = .ok (seen ++ line, rest) ∧
      content? source = (content? rest).map (line ++ ·) ∧ IsLine line (content? rest) := by
  fun_induction nextLine seen source with
  | case1 seen | case2 seen =>
    exact .inr ⟨[], [], by rw [List.append_nil], rfl, .inr ⟨List.not_mem_nil, rfl⟩⟩
  | case3 seen b bytes source line rest hs =>
    obtain ⟨hline, hbytes⟩ := splitLine?_eq_some_iff.mp hs
    refine .inr ⟨line ++ [newline], _, by rw [List.append_assoc], ?_, .inl ⟨line, hline, rfl⟩⟩
    have hdrop : (b :: bytes).drop (line.length + 1) = rest := by
      rw [hbytes, ← List.drop_drop, List.drop_left, List.drop_one, List.tail_cons]
    rw [content?_afterRead, content?, hdrop, hbytes]
    cases content? source <;> simp
  | case4 seen b bytes source hs ih =>
    have hbytes : newline ∉ b :: bytes := fun hm => by
      obtain ⟨line, rest, hcut, hline⟩ := List.eq_append_cons_of_mem hm
      rw [splitLine?_eq_some_iff.mpr ⟨hline, hcut⟩] at hs
      cases hs
    rw [content?]
    rcases ih with ⟨fault, he, hc⟩ | ⟨line, rest, hn, hc, hl⟩
    · exact .inl ⟨fault, he, by rw [hc, Option.map_none]⟩
    · refine .inr ⟨b :: bytes ++ line, rest, by rw [hn, List.append_assoc], ?_,
        hl.append hbytes⟩
      rw [hc]
      cases content? rest <;> simp
  | case5 seen fault source hf ih =>
    rw [content?, if_pos hf]
    exact ih
  | case6 seen fault source hf => exact .inl ⟨fault, rfl, by rw [content?, if_neg hf]⟩

/-- A line is UTF-8 apart from what is left. -/
theorem decode?_of_isLine {line rest : Bytes} (h : IsLine line (some rest)) :
    Utf8.decode? (line ++ rest) =
      (Utf8.decode? line).bind fun text => (Utf8.decode? rest).map (text ++ ·) := by
  rcases h with ⟨front, -, rfl⟩ | ⟨-, hr⟩
  · exact Utf8.decode?_append List.getLast?_concat
  · rw [Option.some.inj hr, List.append_nil]
    cases Utf8.decode? line with
    | none => rfl
    | some text => exact (congrArg some (String.append_empty (s := text))).symm

/-- The text of a line that is read is the first line of the text, without its end. -/
theorem lines_of_isLine {text rest : String}
    (h : IsLine (Utf8.encode text) (some (Utf8.encode rest))) (hne : Utf8.encode text ≠ []) :
    lines (text ++ rest).toList = chop text.toList :: lines rest.toList := by
  rw [String.toList_append]
  rcases h with ⟨front, hf, ht⟩ | ⟨ht, hr⟩
  · obtain ⟨ahead, behind, hcs, rfl, hb⟩ := Utf8.exists_of_encodeChars_eq (show _ = _ from ht)
    obtain rfl : behind = [] := by
      rw [Utf8.encodeChars, List.flatMap_eq_nil_iff] at hb
      exact List.eq_nil_iff_forall_not_mem.mpr fun c hc => Utf8.encodeChar_ne_nil c (hb c hc)
    rw [Utf8.newline_mem_encodeChars] at hf
    rw [hcs, List.append_assoc, List.singleton_append, lines_append_newline hf]
  · have hrest : rest = "" := Utf8.encode_injective (Option.some.inj hr)
    rw [Utf8.encode, Utf8.newline_mem_encodeChars] at ht
    have htext : text.toList ≠ [] := fun hnil => hne (by rw [Utf8.encode, hnil]; rfl)
    rw [hrest, String.toList_empty, List.append_nil, lines_of_notMem ht htext, chop_of_notMem ht]
    rfl

end FlatFile

end DebugLink
