/-!
# Histories

A history keeps all that has happened, in order. The newest entry lies in front, so that
adding to a long history costs no more than adding to a short one; `toList` is the view in
the order of time.
-/

namespace DebugLink

/-- All that has happened. -/
structure History (α : Type) where
  /-- The entries, newest first. -/
  newestFirst : List α := []
  /-- How many entries there are. -/
  size : Nat := 0
  /-- The size counts the entries. -/
  size_eq : size = newestFirst.length := by rfl
  deriving DecidableEq

namespace History

variable {α : Type}

/-- The entries, oldest first. -/
def toList (history : History α) : List α := history.newestFirst.reverse

/-- Add an entry. -/
def add (history : History α) (entry : α) : History α where
  newestFirst := entry :: history.newestFirst
  size := history.size + 1
  size_eq := by rw [history.size_eq, List.length_cons]

/-- The entries behind the first `count`, oldest first. -/
def since (history : History α) (count : Nat) : List α :=
  (history.newestFirst.take (history.size - count)).reverse

/-- A new history has no entries. -/
@[simp] theorem toList_empty : ({} : History α).toList = [] := rfl

/-- A new entry comes last. -/
@[simp] theorem toList_add (history : History α) (entry : α) :
    (history.add entry).toList = history.toList ++ [entry] := by
  simp [toList, add]

/-- The size counts the entries of the view. -/
theorem size_eq_length_toList (history : History α) : history.size = history.toList.length := by
  rw [toList, List.length_reverse, history.size_eq]

/-- What has happened since some entries is the view without them. -/
theorem since_eq_drop (history : History α) (count : Nat) :
    history.since count = history.toList.drop count := by
  rw [since, toList, List.drop_reverse, history.size_eq]

end History

end DebugLink
