import DebugLink.SourcePath
import DebugLink.Proofs.Json.Layout
import DebugLink.Proofs.Text.Utf8

/-!
# Paths that are texts

What shows a path is a text again, and the path of that text is the path itself exactly if the path
is a text. So paths that are texts are told apart by how they are shown, and they are read back from
their JSON form.
-/

namespace DebugLink.SourcePath

open Text

variable {path other : SourcePath}

/-- The path of a text is shown as the text. -/
@[simp] theorem display_ofText (text : String) : (ofText text).display = text :=
  Utf8.decodeLossy_encode text

/-- The path of a text is one. -/
@[simp] theorem isText_ofText (text : String) : (ofText text).isText = true := by
  rw [isText, ofText, Utf8.encode, Utf8.scalars_encodeChars]
  simp

/-- A path that is a text is the path of what shows it. -/
theorem ofText_display (h : path.isText = true) : ofText path.display = path := by
  have hpresent : Utf8.scalars path.octets =
      ((Utf8.scalars path.octets).map fun part => part.getD (Char.ofNat 0xFFFD)).map some := by
    rw [isText, List.all_eq_true] at h
    rw [List.map_map]
    refine (List.map_id _).symm.trans (List.map_congr_left fun part hpart => ?_)
    obtain ⟨c, rfl⟩ := Option.isSome_iff_exists.mp (h part hpart)
    rfl
  have hoctets := Utf8.eq_encodeChars_of_scalars hpresent
  rw [ofText, display, Utf8.decodeLossy, Utf8.encode, String.toList_ofList, ← hoctets]

/-- What shows a path names the path again exactly if the path is a text. -/
theorem ofText_display_eq_iff : ofText path.display = path ↔ path.isText = true :=
  ⟨fun h => h ▸ isText_ofText _, ofText_display⟩

/-- Paths that are texts are the same if they look alike. -/
theorem display_injective (h : path.isText = true) (ho : other.isText = true)
    (heq : path.display = other.display) : path = other := by
  rw [← ofText_display h, heq, ofText_display ho]

/-- The JSON form of a path has no numbers. -/
theorem isWritten_toJson (path : SourcePath) : path.toJson.IsWritten := by
  intro token htoken
  obtain rfl := List.mem_singleton.mp htoken
  exact trivial

/-- A path is written if it is a text. -/
@[simp] theorem isWhole_toJson_iff : path.toJson.IsWhole ↔ path.isText = true :=
  Json.Value.isWhole_string_iff

/-- A path that is a text has the JSON form of its text. -/
theorem toJson_ofText (text : String) : (ofText text).toJson = .ofString text := by
  rw [toJson, ofText, Utf8.encode, Utf8.scalars_encodeChars, Json.Value.ofString]

/-- A path that is a text is read back from its JSON form. -/
theorem ofJson?_toJson (h : path.isText = true) : ofJson? path.toJson = some path := by
  rw [← ofText_display h, toJson_ofText, ofJson?, Json.Shape.text?_ofString, Option.map_some]

end DebugLink.SourcePath
