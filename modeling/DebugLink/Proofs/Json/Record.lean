import DebugLink.Proofs.Json.RoundTrip
import Mathlib.Data.List.Nodup

/-!
# Records are read back

A record is written as an object that holds its fields in their declared order, and a field that
has no value is left out. Each field is found again by its name, since no two fields have the same
name. What types of data are read back is put together from what their fields are.
-/

namespace DebugLink.Json

open Value

namespace Value

/-- The tokens of members are their keys, those of their values, and marks. -/
theorem of_mem_memberTokens {first : Bool} {members : List (Content × Value)} {token : Token}
    (h : token ∈ memberTokens first members) :
    token = .endObject ∨ token = .comma ∨ token = .colon ∨
      ∃ member ∈ members, token = .string member.1 ∨ token ∈ member.2.tokens := by
  induction members generalizing first with
  | nil => exact .inl (List.mem_singleton.mp (by rwa [memberTokens] at h))
  | cons member rest ih =>
    obtain ⟨key, value⟩ := member
    have hmember : token = .comma ∨ token = .string key ∨ token = .colon ∨
        token ∈ value.tokens ∨ token ∈ memberTokens false rest := by
      cases first with
      | true =>
        rw [memberTokens, List.mem_cons, List.mem_cons, List.mem_append] at h
        exact .inr h
      | false =>
        rw [memberTokens, List.mem_cons, List.mem_cons, List.mem_cons, List.mem_append] at h
        exact h
    rcases hmember with hcomma | hkey | hcolon | hvalue | hrest
    · exact .inr (.inl hcomma)
    · exact .inr (.inr (.inr ⟨_, List.mem_cons_self, .inl hkey⟩))
    · exact .inr (.inr (.inl hcolon))
    · exact .inr (.inr (.inr ⟨_, List.mem_cons_self, .inr hvalue⟩))
    · rcases ih hrest with hend | hcomma | hcolon | ⟨other, hother, htoken⟩
      · exact .inl hend
      · exact .inr (.inl hcomma)
      · exact .inr (.inr (.inl hcolon))
      · exact .inr (.inr (.inr ⟨other, List.mem_cons_of_mem _ hother, htoken⟩))

/-- The tokens of a value are among those of the members. -/
theorem mem_memberTokens {first : Bool} {members : List (Content × Value)}
    {member : Content × Value} {token : Token} (hmember : member ∈ members)
    (h : token ∈ member.2.tokens) : token ∈ memberTokens first members := by
  induction members generalizing first with
  | nil => cases hmember
  | cons next rest ih =>
    obtain ⟨key, value⟩ := next
    have hmem : token ∈
        Token.string key :: .colon :: (value.tokens ++ memberTokens false rest) := by
      refine List.mem_cons_of_mem _ (List.mem_cons_of_mem _ ?_)
      rcases List.mem_cons.mp hmember with rfl | hrest
      · exact List.mem_append_left _ h
      · exact List.mem_append_right _ (ih hrest)
    cases first with
    | true => rwa [memberTokens]
    | false =>
      rw [memberTokens]
      exact List.mem_cons_of_mem _ hmem

/-- The numbers of an object are those of its values. -/
theorem isWritten_ofMembers {members : List (String × Value)}
    (h : ∀ member ∈ members, member.2.IsWritten) : (ofMembers members).IsWritten := by
  intro token htoken
  rcases List.mem_cons.mp htoken with rfl | htoken
  · trivial
  · rcases of_mem_memberTokens htoken with rfl | rfl | rfl | ⟨member, hmember, htoken⟩
    · trivial
    · trivial
    · trivial
    · obtain ⟨given, hgiven, rfl⟩ := List.mem_map.mp hmember
      rcases htoken with rfl | htoken
      · trivial
      · exact h given hgiven token htoken

/-- A truth value has no numbers. -/
theorem isWritten_bool (value : Bool) : (bool value).IsWritten := by
  intro token htoken
  obtain rfl := List.mem_singleton.mp htoken
  exact trivial

/-- The members that are written of the fields of a record: those that have a value. -/
def given (fields : List (String × Option Value)) : List (String × Value) :=
  fields.filterMap fun field => field.2.map (field.1, ·)

/-- The numbers of a record are those of its fields. -/
theorem isWritten_given {fields : List (String × Option Value)}
    (h : ∀ field ∈ fields, ∀ value, field.2 = some value → value.IsWritten) :
    (ofMembers (given fields)).IsWritten := by
  refine isWritten_ofMembers fun member hmember => ?_
  obtain ⟨field, hfield, hgiven⟩ := List.mem_filterMap.mp hmember
  obtain ⟨value, hvalue, rfl⟩ := Option.map_eq_some_iff.mp hgiven
  exact h field hfield value hvalue

end Value

namespace Shape

/-- The keys of an object are texts. -/
theorem namedMembers?_map (members : List (String × Value)) :
    namedMembers? (members.map fun (key, value) => (key.toList.map some, value)) =
      some members := by
  induction members with
  | nil => rfl
  | cons member rest ih =>
    have hkey : textOf? (member.1.toList.map some) = some member.1 := text?_ofString member.1
    rw [List.map_cons, namedMembers?, hkey, ih]
    rfl

/-- No member has the name of a field that is not among the given ones. -/
theorem lookup?_given_of_notMem {fields : List (String × Option Value)} {name : String}
    (h : name ∉ fields.map Prod.fst) :
    lookup? name (given fields) = some none ∧ ∀ member ∈ given fields, member.1 ≠ name := by
  induction fields with
  | nil => exact ⟨rfl, nofun⟩
  | cons field rest ih =>
    obtain ⟨key, value⟩ := field
    rw [List.map_cons, List.mem_cons, not_or] at h
    obtain ⟨hlookup, hnames⟩ := ih h.2
    have hkey : key ≠ name := fun heq => h.1 heq.symm
    cases value with
    | none => exact ⟨hlookup, hnames⟩
    | some value =>
      refine ⟨?_, List.forall_mem_cons.mpr ⟨hkey, hnames⟩⟩
      have hgiven : given ((key, some value) :: rest) = (key, value) :: given rest := rfl
      rw [hgiven, lookup?, if_neg hkey, hlookup]

/-- A field is found by its name, with its value or without. -/
theorem lookup?_given {fields : List (String × Option Value)} (h : (fields.map Prod.fst).Nodup)
    {field : String × Option Value} (hf : field ∈ fields) :
    lookup? field.1 (given fields) = some field.2 := by
  induction fields with
  | nil => cases hf
  | cons first rest ih =>
    obtain ⟨hfirst, hrest⟩ := List.nodup_cons.mp h
    rcases List.mem_cons.mp hf with rfl | hmem
    · obtain ⟨name, value⟩ := field
      obtain ⟨hnone, hnames⟩ := lookup?_given_of_notMem hfirst
      cases value with
      | none => exact hnone
      | some value =>
        have hgiven : given ((name, some value) :: rest) = (name, value) :: given rest := rfl
        have hsingle : (given rest).any (fun member => member.1 = name) = false := by
          simpa using hnames
        rw [hgiven, lookup?, if_pos rfl, hsingle]
        rfl
    · obtain ⟨name, value⟩ := first
      have hnames : field.1 ∈ rest.map Prod.fst := List.mem_map_of_mem hmem
      have hname : name ≠ field.1 := fun heq => hfirst (by rwa [heq])
      cases value with
      | none => exact ih hrest hmem
      | some value =>
        have hgiven : given ((name, some value) :: rest) = (name, value) :: given rest := rfl
        rw [hgiven, lookup?, if_neg hname, ih hrest hmem]

/-- The fields of a record are found in their declared order. -/
theorem fields?_given {names : List String} (h : names.Nodup) {values : List (Option Value)}
    (hlength : values.length = names.length) :
    fields? names (ofMembers (given (names.zip values))) = some values := by
  have hnames : (names.zip values).map Prod.fst = names := List.map_fst_zip hlength.ge
  have hvalues : (names.zip values).map Prod.snd = values := List.map_snd_zip hlength.le
  have hfound : ∀ found ⊆ names.zip values,
      (found.map Prod.fst).mapM (lookup? · (given (names.zip values))) =
        some (found.map Prod.snd) := by
    intro found hsub
    induction found with
    | nil => rfl
    | cons field found ih =>
      obtain ⟨hfield, hrest⟩ := List.cons_subset.mp hsub
      rw [List.map_cons, List.mapM_cons, lookup?_given (by rwa [hnames]) hfield, ih hrest]
      rfl
  have hall := hfound _ (List.Subset.refl _)
  rw [hnames, hvalues] at hall
  rw [ofMembers, fields?, namedMembers?_map]
  exact hall

/-- A field that has to be given is read from its value. -/
@[simp] theorem required?_some {α : Type} (shape? : Value → Option α) (value : Value) :
    required? shape? (some value) = shape? value := rfl

/-- A field that may be missing is read from its value. -/
@[simp] theorem defaulted?_some {α : Type} (default : α) (shape? : Value → Option α)
    (value : Value) : defaulted? default shape? (some value) = shape? value := rfl

end Shape

/-! ## Types of data -/

/-- Data of a type is read back from its written form. -/
structure ReadsBack {α : Type} (toJson : α → Value) (ofJson? : Value → Option α) : Prop where
  /-- The written form has no numbers but integers. -/
  written : ∀ a, (toJson a).IsWritten
  /-- The written form is that of the data. -/
  read : ∀ a, ofJson? (toJson a) = some a

namespace ReadsBack

open Shape

variable {α : Type} {toJson : α → Value} {ofJson? : Value → Option α}

/-- Data is read back from its text. -/
theorem ofText? (h : ReadsBack toJson ofJson?) (a : α) :
    (Value.ofText? (toJson a).compact).bind ofJson? = some a := by
  rw [Value.ofText?, ofScalars?_compact (h.written a)]
  exact h.read a

/-- A text is read back. -/
theorem text : ReadsBack ofString text? := ⟨isWritten_ofString, text?_ofString⟩

/-- A truth value is read back. -/
theorem bool : ReadsBack Value.bool bool? := ⟨isWritten_bool, fun _ => rfl⟩

/-- An unsigned number of 32 bits is read back. -/
theorem uint32 : ReadsBack ofUInt32 uint32? := ⟨fun _ => isWritten_ofInt _, uint32?_ofUInt32⟩

/-- A signed number of 64 bits is read back. -/
theorem int64 : ReadsBack (fun n : Int64 => ofInt n.toInt) int64? where
  written n := isWritten_ofInt n.toInt
  read n := by
    have hl := n.le_toInt
    have hh := n.toInt_lt
    rw [int64?, integer?_ofInt (by omega) (by omega) (by omega), Option.map_some, n.ofInt_toInt]

/-- Data is read back as an array if each item is. -/
theorem list (h : ReadsBack toJson ofJson?) :
    ReadsBack (fun items => .array (items.map toJson)) (list? ofJson?) where
  written items := isWritten_array fun item hitem => by
    obtain ⟨a, -, rfl⟩ := List.mem_map.mp hitem
    exact h.written a
  read _ := list?_array fun a _ => h.read a

/-- A record is read back if it is built again from the values of its fields. -/
theorem record (names : List String) (h : names.Nodup) (values : α → List (Option Value))
    {build : List (Option Value) → Option α}
    (hread : ∀ value, ofJson? value = (fields? names value).bind build)
    (hwrite : ∀ a, toJson a = ofMembers (given (names.zip (values a))))
    (hlength : ∀ a, (values a).length = names.length)
    (hwritten : ∀ a value, some value ∈ values a → value.IsWritten)
    (hbuild : ∀ a, build (values a) = some a) : ReadsBack toJson ofJson? where
  written a := by
    rw [hwrite]
    refine isWritten_given fun field hfield value hvalue => hwritten a value ?_
    rw [← hvalue]
    exact (List.of_mem_zip hfield).2
  read a := by rw [hread, hwrite, fields?_given h (hlength a), Option.bind_some, hbuild]

/-- The numbers of a field that may be missing are those of its value. -/
theorem written_optional (h : ReadsBack toJson ofJson?) {field : Option α} {value : Value}
    (hv : some value = field.map toJson) : value.IsWritten := by
  obtain ⟨a, -, rfl⟩ := Option.map_eq_some_iff.mp hv.symm
  exact h.written a

/-- A field that may be missing is read back, if its value is not written as null. -/
theorem read_optional (h : ReadsBack toJson ofJson?) (hnull : ∀ a, toJson a ≠ .null)
    (value : Option α) :
    defaulted? none (optional? ofJson?) (value.map toJson) = some value := by
  cases value with
  | none => rfl
  | some a =>
    rw [Option.map_some, defaulted?]
    unfold optional?
    split
    case h_1 heq => exact absurd heq (hnull a)
    case h_2 => rw [h.read, Option.map_some]

end ReadsBack

end DebugLink.Json
