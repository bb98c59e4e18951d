/-!
# Splitting at a separator

A text, or a sequence of octets, is cut at the first or at the last place where a
separator stands. The functions on several fields repeat one of the two cuts:
`fieldsFirst` cuts from the left and leaves further separators in the last field,
`fieldsLast` cuts from the right and leaves them in the first.
-/

namespace DebugLink.Text.Split

variable {α : Type} [DecidableEq α]

/-- The rest of a text behind a given beginning. -/
def after? : List α → List α → Option (List α)
  | [], cs => some cs
  | _ :: _, [] => none
  | s :: sep, c :: cs => if s = c then after? sep cs else none

/-- Walk to the first separator; `seen` holds what was passed, reversed. -/
def seek (sep : List α) : (seen : List α) → List α → Option (List α × List α)
  | seen, [] => if sep.isEmpty then some (seen.reverse, []) else none
  | seen, c :: cs =>
    match after? sep (c :: cs) with
    | some rest => some (seen.reverse, rest)
    | none => seek sep (c :: seen) cs

/-- The texts before and behind the first separator. -/
def atFirst (sep cs : List α) : Option (List α × List α) := seek sep [] cs

/-- The texts before and behind the last separator. -/
def atLast (sep cs : List α) : Option (List α × List α) :=
  (atFirst sep.reverse cs.reverse).map fun (behind, before) => (before.reverse, behind.reverse)

/-- At most `count + 1` fields, cut at the first `count` separators. -/
def fieldsFirst (sep : List α) : (count : Nat) → List α → List (List α)
  | 0, cs => [cs]
  | count + 1, cs =>
    match atFirst sep cs with
    | some (field, rest) => field :: fieldsFirst sep count rest
    | none => [cs]

/-- At most `count + 1` fields, cut at the last `count` separators, in the order of the text. -/
def fieldsLast (sep : List α) : (count : Nat) → List α → List (List α)
  | 0, cs => [cs]
  | count + 1, cs =>
    match atLast sep cs with
    | some (rest, field) => fieldsLast sep count rest ++ [field]
    | none => [cs]

/-- All fields of a text: no more cuts are possible than it is long. -/
def fields (sep cs : List α) : List (List α) := fieldsFirst sep cs.length cs

/-- Fields with a separator between each two of them. -/
def join (sep : List Char) (parts : List (List Char)) : List Char := sep.intercalate parts

end DebugLink.Text.Split
