import DebugLink.Request

/-!
# Requests that wait for a reply

Replies carry no number: a reply belongs to the oldest request that waits for its word.
-/

namespace DebugLink

/-- The requests that wait for a reply, oldest first. -/
abbrev Pending := List Request

namespace Pending

/-- Whether a request waits for a word. -/
def awaits (word : Word) (request : Request) : Bool := request.replyWords.contains word

/-- The waiting requests with one that was just written. Requests without a reply do not wait,
and neither do probes: any sign of life answers them. -/
def push (pending : Pending) (request : Request) : Pending :=
  if request = .ping ∨ request.replyWords = [] then pending else pending ++ [request]

/-- The oldest request that waits for a word, and the others. -/
def take (pending : Pending) (word : Word) : Option Request × Pending :=
  (pending.find? (awaits word), pending.eraseP (awaits word))

end Pending

end DebugLink
