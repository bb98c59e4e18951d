import DebugLink.CodeObject

/-!
# Remembered breakable lines

The breakable lines of a file are computed when they are first asked for, and kept until
the file is invalidated. A file without code is asked for again each time.
-/

namespace DebugLink

/-- Breakable lines by path, with the history of what the provider was asked for. -/
structure LineCache where
  /-- The lines that are remembered. -/
  files : List (SourcePath.Key × Lines) := []
  /-- The paths that the provider was asked for, in order and as they were spelled. -/
  asked : List SourcePath := []
  deriving DecidableEq

namespace LineCache

/-- The remembered lines of a path. -/
def get? (cache : LineCache) (path : SourcePath) : Option Lines :=
  cache.files.lookup (SourcePath.key path)

/-- Whether the lines of a path are remembered. -/
def isCached (cache : LineCache) (path : SourcePath) : Bool := (cache.get? path).isSome

/-- The breakable lines of a path, from the provider if they are not remembered. -/
def lines (cache : LineCache) (provider : CodeProvider) (path : SourcePath) :
    Option Lines × LineCache :=
  match cache.get? path with
  | some lines => (some lines, cache)
  | none =>
    let cache := { cache with asked := cache.asked ++ [path] }
    match provider path with
    | none => (none, cache)
    | some code =>
      let lines := code.breakableLines
      (some lines, { cache with files := (SourcePath.key path, lines) :: cache.files })

/-- Forget the lines of a path. -/
def invalidate (cache : LineCache) (path : SourcePath) : LineCache :=
  { cache with files := cache.files.filter fun (key, _) => key != SourcePath.key path }

/-- Forget all lines. -/
def clear (cache : LineCache) : LineCache := { cache with files := [] }

end LineCache

end DebugLink
