import DebugLink.Text.Split
import Mathlib.Data.List.Infix

/-!
# Where a text is cut

A cut finds the first or the last place of a separator, and nothing of the text is lost. Fields
that are joined by a separator are cut apart again where the fields in front, or those behind, do
not hold the first character of the separator.
-/

namespace DebugLink.Text.Split

/-- A beginning is found where it stands. -/
theorem after?_eq_some_iff {sep cs rest : List Char} :
    after? sep cs = some rest ↔ cs = sep ++ rest := by
  induction sep generalizing cs with
  | nil => simp [after?]
  | cons s sep ih =>
    cases cs with
    | nil => simp [after?]
    | cons c cs =>
      rw [after?]
      by_cases hc : s = c
      · rw [if_pos hc, ih, hc, List.cons_append, List.cons.injEq, and_iff_right rfl]
      · rw [if_neg hc, List.cons_append, List.cons.injEq]
        exact iff_of_false (Option.some_ne_none rest).symm fun h => hc h.1.symm

/-- Behind a beginning of a text is what it was put in front of. -/
theorem after?_append (sep cs : List Char) : after? sep (sep ++ cs) = some cs :=
  after?_eq_some_iff.mpr rfl

/-- The text is cut at the first separator. -/
structure IsFirst (sep cs front back : List Char) : Prop where
  /-- There is a separator between the two parts. -/
  whole : cs = front ++ sep ++ back
  /-- No separator begins further to the left. -/
  first : ∀ others more, cs = others ++ sep ++ more → front.length ≤ others.length

/-- A text is cut at the first separator behind a character where it is cut there without it, if
no separator begins with the character. -/
theorem isFirst_cons_iff {sep cs front back : List Char} {c : Char}
    (h : ∀ rest, c :: cs ≠ sep ++ rest) :
    IsFirst sep (c :: cs) (c :: front) back ↔ IsFirst sep cs front back := by
  constructor
  · rintro ⟨hwhole, hfirst⟩
    refine ⟨(List.cons.inj hwhole).2, fun others more ho => ?_⟩
    have hle := hfirst (c :: others) more (by rw [ho]; rfl)
    rw [List.length_cons, List.length_cons] at hle
    omega
  · rintro ⟨hwhole, hfirst⟩
    refine ⟨by rw [hwhole]; rfl, fun others more ho => ?_⟩
    cases others with
    | nil => exact absurd ho (h more)
    | cons d others =>
      have hle := hfirst others more (List.cons.inj ho).2
      rw [List.length_cons, List.length_cons]
      omega

/-- The walk to the first separator finds it. -/
theorem seek_eq_some_iff {sep seen cs front back : List Char} :
    seek sep seen cs = some (front, back) ↔
      ∃ passed, front = seen.reverse ++ passed ∧ IsFirst sep cs passed back := by
  induction cs generalizing seen with
  | nil =>
    rw [seek]
    by_cases hs : sep = []
    · subst hs
      simp only [List.isEmpty_nil, if_true, Option.some.injEq, Prod.mk.injEq]
      constructor
      · rintro ⟨rfl, rfl⟩
        exact ⟨[], by simp, by simp, fun _ _ _ => Nat.zero_le _⟩
      · rintro ⟨passed, rfl, hwhole, -⟩
        have hnil := List.append_eq_nil_iff.mp hwhole.symm
        rw [List.append_nil] at hnil
        rw [hnil.1, hnil.2, List.append_nil]
        exact ⟨rfl, rfl⟩
    · rw [if_neg (by simpa using hs)]
      constructor
      · exact nofun
      · rintro ⟨passed, -, hwhole, -⟩
        have hnil := List.append_eq_nil_iff.mp hwhole.symm
        exact absurd (List.append_eq_nil_iff.mp hnil.1).2 hs
  | cons c cs ih =>
    rw [seek]
    cases ha : after? sep (c :: cs) with
    | some rest =>
      have hwhole := after?_eq_some_iff.mp ha
      simp only [Option.some.injEq, Prod.mk.injEq]
      constructor
      · rintro ⟨rfl, rfl⟩
        exact ⟨[], by simp, by simpa using hwhole, fun _ _ _ => Nat.zero_le _⟩
      · rintro ⟨passed, rfl, hpassed, hfirst⟩
        have hnil := List.length_eq_zero_iff.mp (Nat.le_zero.mp (hfirst [] rest hwhole))
        subst hnil
        rw [List.nil_append, hwhole] at hpassed
        rw [List.append_cancel_left hpassed, List.append_nil]
        exact ⟨rfl, rfl⟩
    | none =>
      have hnot : ∀ rest, c :: cs ≠ sep ++ rest := fun rest hrest => by
        rw [after?_eq_some_iff.mpr hrest] at ha
        cases ha
      dsimp only
      rw [ih]
      constructor
      · rintro ⟨passed, rfl, hfirst⟩
        exact ⟨c :: passed, by simp, (isFirst_cons_iff hnot).mpr hfirst⟩
      · rintro ⟨passed, rfl, hfirst⟩
        cases passed with
        | nil => exact absurd hfirst.whole (by simpa using hnot back)
        | cons d passed =>
          obtain rfl := (List.cons.inj hfirst.whole).1
          exact ⟨passed, by simp, (isFirst_cons_iff hnot).mp hfirst⟩

/-- The cut finds the first separator. -/
theorem atFirst_eq_some_iff {sep cs front back : List Char} :
    atFirst sep cs = some (front, back) ↔ IsFirst sep cs front back := by
  rw [atFirst, seek_eq_some_iff]
  simp

/-- The walk finds no separator where the text has none. -/
theorem seek_eq_none_iff {sep seen cs : List Char} :
    seek sep seen cs = none ↔ ¬ sep <:+: cs := by
  induction cs generalizing seen with
  | nil => simp [seek]
  | cons c cs ih =>
    rw [seek, List.infix_cons_iff]
    cases ha : after? sep (c :: cs) with
    | some rest =>
      have hwhole := after?_eq_some_iff.mp ha
      exact iff_of_false nofun (not_not_intro (.inl ⟨rest, hwhole.symm⟩))
    | none =>
      have hnot : ¬ sep <+: c :: cs := fun ⟨rest, hrest⟩ => by
        rw [after?_eq_some_iff.mpr hrest.symm] at ha
        cases ha
      rw [or_iff_right hnot]
      exact ih

/-- There is no cut where the text has no separator. -/
theorem atFirst_eq_none_iff {sep cs : List Char} : atFirst sep cs = none ↔ ¬ sep <:+: cs :=
  seek_eq_none_iff

/-- There is no last cut where the text has no separator. -/
theorem atLast_eq_none_iff {sep cs : List Char} : atLast sep cs = none ↔ ¬ sep <:+: cs := by
  rw [atLast, Option.map_eq_none_iff, atFirst_eq_none_iff, List.reverse_infix]

/-- Where two separators stand in a text, the field in front of the later one goes on behind the
field in front of the other one. -/
theorem exists_missing {sep front back others more : List Char}
    (h : front ++ sep ++ back = others ++ sep ++ more) (hle : others.length ≤ front.length) :
    ∃ missing, front = others ++ missing ∧ sep ++ more = missing ++ (sep ++ back) := by
  rw [List.append_assoc, List.append_assoc] at h
  rcases List.append_eq_append_iff.mp h with ⟨missing, hothers, hmore⟩ | ⟨missing, hf, hm⟩
  · rw [hothers, List.length_append] at hle
    obtain rfl := List.length_eq_zero_iff.mp (show missing.length = 0 by omega)
    exact ⟨[], by rw [hothers]; simp, by simpa using hmore.symm⟩
  · exact ⟨missing, hf, hm⟩

/-- A text without the first character of the separator ends at the separator behind it. -/
theorem isFirst_of_notMem {s : Char} {sep front back : List Char} (h : s ∉ front) :
    IsFirst (s :: sep) (front ++ (s :: sep) ++ back) front back := by
  refine ⟨rfl, fun others more ho => ?_⟩
  by_contra hlt
  obtain ⟨missing, rfl, hm⟩ := exists_missing ho (by omega)
  cases missing with
  | nil =>
    rw [List.append_nil] at hlt
    omega
  | cons c missing =>
    obtain rfl := (List.cons.inj hm).1
    exact h (by simp)

/-- The text in front of the first separator of one character does not hold it. -/
theorem IsFirst.notMem {s : Char} {cs front back : List Char} (h : IsFirst [s] cs front back) :
    s ∉ front := by
  intro hm
  obtain ⟨before, behind, rfl⟩ := List.append_of_mem hm
  have hle := h.first before (behind ++ s :: back) (by rw [h.whole]; simp)
  rw [List.length_append, List.length_cons] at hle
  omega

/-- A text is cut at the separator behind a field that does not hold its first character. -/
theorem atFirst_of_notMem {s : Char} {sep front back : List Char} (h : s ∉ front) :
    atFirst (s :: sep) (front ++ (s :: sep) ++ back) = some (front, back) :=
  atFirst_eq_some_iff.mpr (isFirst_of_notMem h)

/-- A text is cut at the separator in front of a field that does not hold its last character. -/
theorem atLast_of_notMem {s : Char} {front back : List Char} (sep : List Char) (h : s ∉ back) :
    atLast (sep ++ [s]) (front ++ (sep ++ [s]) ++ back) = some (front, back) := by
  have hback : s ∉ back.reverse := by simpa using h
  have hcut : atFirst (s :: sep.reverse) (back.reverse ++ (s :: sep.reverse) ++ front.reverse) =
      some (back.reverse, front.reverse) := atFirst_of_notMem hback
  have htext : (front ++ (sep ++ [s]) ++ back).reverse =
      back.reverse ++ (s :: sep.reverse) ++ front.reverse := by simp
  rw [atLast, htext, List.reverse_append, List.reverse_singleton, List.singleton_append, hcut]
  simp

/-- A text is cut at a character behind a field that does not hold it. -/
theorem atFirst_singleton_eq_some_iff {s : Char} {cs front back : List Char} :
    atFirst [s] cs = some (front, back) ↔ s ∉ front ∧ cs = front ++ s :: back := by
  constructor
  · intro h
    have hfirst := atFirst_eq_some_iff.mp h
    exact ⟨hfirst.notMem, by rw [hfirst.whole, List.append_assoc, List.singleton_append]⟩
  · rintro ⟨hfront, rfl⟩
    rw [List.append_cons]
    exact atFirst_of_notMem hfront

/-- A text is not cut at a character if and only if it does not hold it. -/
theorem atFirst_singleton_eq_none_iff {s : Char} {cs : List Char} :
    atFirst [s] cs = none ↔ s ∉ cs := by
  rw [atFirst_eq_none_iff, List.singleton_infix_iff]

/-! ## Fields -/

/-- A text is cut at a repeated character behind a field where the field does not hold the repeated
character and does not end with the character. -/
theorem isFirst_replicate_iff {s : Char} {count : Nat} {front back : List Char} :
    IsFirst (List.replicate (count + 1) s) (front ++ List.replicate (count + 1) s ++ back) front
      back ↔ ¬ List.replicate (count + 1) s <:+: front ∧ front.getLast? ≠ some s := by
  have hlength : (List.replicate (count + 1) s).length = count + 1 := List.length_replicate
  constructor
  · intro h
    refine ⟨fun hrepeated => ?_, fun hlast => ?_⟩
    · obtain ⟨before, behind, rfl⟩ := hrepeated
      have hle := h.first before (behind ++ List.replicate (count + 1) s ++ back) (by simp)
      simp only [List.length_append, hlength] at hle
      omega
    · obtain ⟨before, rfl⟩ := List.getLast?_eq_some_iff.mp hlast
      have hle := h.first before (s :: back) (by
        have hshift : s :: List.replicate (count + 1) s = List.replicate (count + 1) s ++ [s] := by
          rw [← List.replicate_succ, List.replicate_succ']
        simp only [List.append_assoc, List.singleton_append]
        rw [hshift, List.append_assoc, List.singleton_append])
      rw [List.length_append, List.length_singleton] at hle
      omega
  · rintro ⟨hrepeated, hlast⟩
    refine ⟨rfl, fun others more ho => ?_⟩
    by_contra hlt
    obtain ⟨missing, rfl, hm⟩ := exists_missing ho (by omega)
    have hne : missing ≠ [] := by
      rintro rfl
      rw [List.append_nil] at hlt
      omega
    -- The separator that begins in the field ends in it, or the field ends with its character.
    rcases List.append_eq_append_iff.mp hm with ⟨rest, rfl, -⟩ | ⟨rest, hsep, -⟩
    · exact hrepeated ⟨others, rest, by simp⟩
    · refine hlast ?_
      have hlastIn : missing.getLast hne ∈ List.replicate (count + 1) s := by
        rw [hsep]
        exact List.mem_append_left _ (List.getLast_mem hne)
      rw [List.getLast?_append_of_ne_nil _ hne, List.getLast?_eq_some_getLast hne,
        List.eq_of_mem_replicate hlastIn]

/-- A field that does not hold a repeated character is cut off in front of it, or what is left
begins with the character: some of those in the separator were taken for the end of the field. -/
theorem IsFirst.of_not_infix {s : Char} {count : Nat} {field behind front back : List Char}
    (hfield : ¬ List.replicate (count + 1) s <:+: field)
    (h : IsFirst (List.replicate (count + 1) s)
      (field ++ List.replicate (count + 1) s ++ behind) front back) :
    (front = field ∧ back = behind) ∨ ∃ more, back = s :: more := by
  obtain ⟨missing, rfl, hm⟩ := exists_missing h.whole (h.first field behind rfl)
  rcases List.append_eq_append_iff.mp hm with ⟨rest, rfl, -⟩ | ⟨rest, hsep, hback⟩
  · exact absurd ⟨front, rest, by simp⟩ hfield
  · cases missing with
    | nil =>
      refine .inl ⟨(List.append_nil front).symm, ?_⟩
      exact List.append_cancel_left hm
    | cons c missing =>
      have hlength := congrArg List.length hsep
      rw [List.length_replicate, List.length_append, List.length_cons] at hlength
      have hrest : rest = List.replicate rest.length s :=
        List.eq_replicate_of_mem fun b hb =>
          List.eq_of_mem_replicate (hsep ▸ List.mem_append_right _ hb)
      have hsplit : List.replicate (count + 1) s = rest ++ s :: List.replicate missing.length s := by
        rw [hlength, Nat.add_comm, ← List.replicate_append_replicate, ← hrest,
          List.replicate_succ]
      rw [hsplit, List.append_assoc] at hback
      exact .inr ⟨_, (List.append_cancel_left hback).symm⟩

/-- A text is cut at a doubled character behind a field where the field does not hold the doubled
character and does not end with the character. -/
theorem isFirst_pair_iff {s : Char} {front back : List Char} :
    IsFirst [s, s] (front ++ [s, s] ++ back) front back ↔
      ¬ [s, s] <:+: front ∧ front.getLast? ≠ some s := @isFirst_replicate_iff s 1 front back

/-- The field in front of the first cut comes first. -/
theorem fieldsFirst_of_cut {sep cs front back : List Char}
    (h : atFirst sep cs = some (front, back)) (count : Nat) :
    fieldsFirst sep (count + 1) cs = front :: fieldsFirst sep count back := by
  rw [fieldsFirst, h]

/-- A field that does not hold a character ends at the first one. -/
theorem fieldsFirst_append_cons {s : Char} {front : List Char} (h : s ∉ front) (count : Nat)
    (back : List Char) :
    fieldsFirst [s] (count + 1) (front ++ s :: back) = front :: fieldsFirst [s] count back :=
  fieldsFirst_of_cut (atFirst_singleton_eq_some_iff.mpr ⟨h, rfl⟩) count

/-- A text that does not hold a character is one field. -/
theorem fieldsFirst_of_notMem {s : Char} {cs : List Char} (h : s ∉ cs) (count : Nat) :
    fieldsFirst [s] count cs = [cs] := by
  cases count with
  | zero => rfl
  | succ count => rw [fieldsFirst, atFirst_singleton_eq_none_iff.mpr h]

/-- The field behind the last cut comes last. -/
theorem fieldsLast_of_cut {sep cs front back : List Char}
    (h : atLast sep cs = some (front, back)) (count : Nat) :
    fieldsLast sep (count + 1) cs = fieldsLast sep count front ++ [back] := by
  rw [fieldsLast, h]

/-- Three fields are cut apart from the right, whatever the first one holds. -/
theorem fieldsLast_three {s : Char} {front middle back : List Char} (sep : List Char)
    (hmiddle : s ∉ middle) (hback : s ∉ back) :
    fieldsLast (sep ++ [s]) 2 (front ++ (sep ++ [s]) ++ middle ++ (sep ++ [s]) ++ back) =
      [front, middle, back] := by
  rw [fieldsLast_of_cut (atLast_of_notMem sep hback),
    fieldsLast_of_cut (atLast_of_notMem sep hmiddle)]
  rfl

/-- Where there is a field behind the first one, the text is cut between them. -/
theorem exists_cut_of_fieldsFirst {sep cs front next : List Char} {count : Nat}
    {others : List (List Char)} (h : fieldsFirst sep (count + 1) cs = front :: next :: others) :
    ∃ back, atFirst sep cs = some (front, back) := by
  rw [fieldsFirst] at h
  cases hcut : atFirst sep cs with
  | none =>
    rw [hcut] at h
    cases h
  | some parts =>
    obtain ⟨field, back⟩ := parts
    rw [hcut] at h
    exact ⟨back, by rw [(List.cons.inj h).1]⟩

/-- As many cuts as a text has characters are enough. -/
theorem fieldsFirst_of_length_le {sep : List Char} (hsep : sep ≠ []) {count : Nat}
    {cs : List Char} (h : cs.length ≤ count) : fieldsFirst sep count cs = fields sep cs := by
  induction count using Nat.strongRecOn generalizing cs with
  | _ count ih =>
    rw [fields]
    cases hcut : atFirst sep cs with
    | none =>
      have hwhole : ∀ n, fieldsFirst sep n cs = [cs] := fun n => by
        cases n with
        | zero => rfl
        | succ n => rw [fieldsFirst, hcut]
      rw [hwhole, hwhole]
    | some parts =>
      obtain ⟨front, back⟩ := parts
      have hlength := congrArg List.length (atFirst_eq_some_iff.mp hcut).whole
      have hpos := List.length_pos_iff.mpr hsep
      rw [List.length_append, List.length_append] at hlength
      obtain ⟨more, rfl⟩ := Nat.exists_eq_add_one_of_ne_zero (show count ≠ 0 by omega)
      obtain ⟨less, hless⟩ := Nat.exists_eq_add_one_of_ne_zero (show cs.length ≠ 0 by omega)
      rw [hless, fieldsFirst_of_cut hcut, fieldsFirst_of_cut hcut,
        ih more (by omega) (by omega), ih less (by omega) (by omega)]

/-- The field in front of the first cut comes first, and those behind it follow. -/
theorem fields_of_cut {sep cs front back : List Char} (hsep : sep ≠ [])
    (h : atFirst sep cs = some (front, back)) : fields sep cs = front :: fields sep back := by
  rw [← fieldsFirst_of_length_le hsep (Nat.le_succ cs.length), fieldsFirst_of_cut h,
    fieldsFirst_of_length_le hsep]
  have hlength := congrArg List.length (atFirst_eq_some_iff.mp h).whole
  rw [List.length_append] at hlength
  omega

/-- A text without a separator is one field. -/
theorem fields_of_not_infix {sep cs : List Char} (h : ¬ sep <:+: cs) : fields sep cs = [cs] := by
  rw [fields]
  cases cs.length with
  | zero => rfl
  | succ count => rw [fieldsFirst, atFirst_eq_none_iff.mpr h]

/-- Where there is a field behind the first one, the text is cut between them, and the others are
those of what is behind the cut. -/
theorem exists_cut_of_fields {sep cs front next : List Char} {others : List (List Char)}
    (hsep : sep ≠ []) (h : fields sep cs = front :: next :: others) :
    ∃ back, IsFirst sep cs front back ∧ fields sep back = next :: others := by
  have hfields := h
  rw [← fieldsFirst_of_length_le hsep (Nat.le_succ cs.length)] at hfields
  obtain ⟨back, hcut⟩ := exists_cut_of_fieldsFirst hfields
  rw [fields_of_cut hsep hcut] at h
  exact ⟨back, atFirst_eq_some_iff.mp hcut, (List.cons.inj h).2⟩

/-- A joined text ends with its last field. -/
theorem suffix_join (sep last : List Char) (parts : List (List Char)) :
    last <:+ join sep (parts ++ [last]) := by
  induction parts with
  | nil => simp [join]
  | cons part parts ih =>
    rw [join, List.cons_append, List.intercalate_cons_of_ne_nil (by simp), ← join]
    exact ih.trans (List.suffix_append _ _)

/-- Where there are as many fields as there can be, further separators of one character stand in
the last one only. -/
theorem count_of_fieldsFirst {s : Char} {count : Nat} {cs last : List Char}
    {fields : List (List Char)} (h : fieldsFirst [s] count cs = fields ++ [last])
    (hlength : fields.length = count) : cs.count s = count + last.count s := by
  induction count generalizing cs fields with
  | zero =>
    obtain rfl := List.length_eq_zero_iff.mp hlength
    obtain rfl := (List.cons.inj h).1
    exact (Nat.zero_add _).symm
  | succ count ih =>
    obtain ⟨field, fields, rfl⟩ := List.exists_cons_of_length_eq_add_one hlength
    rw [fieldsFirst] at h
    cases hcut : atFirst [s] cs with
    | none =>
      rw [hcut] at h
      have hone := congrArg List.length h
      simp at hone
    | some parts =>
      obtain ⟨front, back⟩ := parts
      rw [hcut] at h
      have hfirst := atFirst_eq_some_iff.mp hcut
      have hfront : front.count s = 0 := List.count_eq_zero_of_not_mem hfirst.notMem
      have hrest := ih (List.cons.inj h).2 (by rw [List.length_cons] at hlength; omega)
      rw [hfirst.whole, List.count_append, List.count_append, hfront, hrest,
        List.count_singleton_self]
      omega

end DebugLink.Text.Split
