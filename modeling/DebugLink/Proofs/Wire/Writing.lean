import DebugLink.Wire.Writer

/-!
# What a write leaves on the wire

A write that succeeds puts all bytes behind those taken before, in however many pieces. One that
fails puts a proper part of them there. A message that is too large puts nothing there.
-/

namespace DebugLink.Wire.Sink

/-- Bytes that are taken come behind those taken before. -/
theorem accepted_add (script : List WriteOutcome) (broken : Option IoFault)
    (pieces : History Bytes) (bytes : Bytes) :
    accepted ⟨script, broken, pieces.add bytes⟩ = pieces.toList.flatten ++ bytes := by
  simp [accepted]

/-- What a write leaves, by the answers of the sink. -/
theorem writeFrom_cases (broken : Option IoFault) (pieces : History Bytes)
    (script : List WriteOutcome) (bytes : Bytes) :
    (∃ sink, writeFrom broken pieces script bytes = (.ok (), sink) ∧
      sink.accepted = pieces.toList.flatten ++ bytes) ∨
    (∃ fault sink part rest, writeFrom broken pieces script bytes = (.error fault, sink) ∧
      bytes = part ++ rest ∧ rest ≠ [] ∧ sink.accepted = pieces.toList.flatten ++ part) := by
  induction script generalizing pieces bytes with
  | nil =>
    cases bytes with
    | nil => exact .inl ⟨_, by rw [writeFrom], by simp [accepted]⟩
    | cons b bytes =>
      cases broken with
      | none => exact .inl ⟨_, rfl, accepted_add ..⟩
      | some fault =>
        exact .inr ⟨fault, _, [], b :: bytes, rfl, rfl, List.cons_ne_nil b bytes, by
          simp [accepted]⟩
  | cons outcome script ih =>
    cases bytes with
    | nil => exact .inl ⟨_, by rw [writeFrom], by simp [accepted]⟩
    | cons b bytes =>
      have hnone : ∀ sink : Sink, sink.pieces = pieces →
          b :: bytes = [] ++ b :: bytes ∧ b :: bytes ≠ [] ∧
            sink.accepted = pieces.toList.flatten ++ [] := fun sink hs =>
        ⟨rfl, List.cons_ne_nil b bytes, by rw [accepted, hs, List.append_nil]⟩
      cases outcome with
      | all => exact .inl ⟨_, rfl, accepted_add ..⟩
      | atMost count =>
        cases count with
        | zero => exact .inr ⟨_, _, [], _, rfl, hnone _ rfl⟩
        | succ count =>
          have hcut : b :: bytes = (b :: bytes.take count) ++ bytes.drop count := by
            rw [List.cons_append, List.take_append_drop]
          have hpieces : (pieces.add (b :: bytes.take count)).toList.flatten =
              pieces.toList.flatten ++ (b :: bytes.take count) := by simp
          rcases ih (pieces.add (b :: bytes.take count)) (bytes.drop count) with
            ⟨sink, hw, ha⟩ | ⟨fault, sink, part, rest, hw, hb, hr, ha⟩
          · refine .inl ⟨sink, hw, ?_⟩
            rw [ha, hpieces, List.append_assoc, ← hcut]
          · refine .inr ⟨fault, sink, (b :: bytes.take count) ++ part, rest, hw, ?_, hr, ?_⟩
            · rw [List.append_assoc, ← hb, ← hcut]
            · rw [ha, hpieces, List.append_assoc]
      | fail fault =>
        by_cases hi : fault.kind = .interrupted
        · simp only [writeFrom, hi, if_true]
          exact ih pieces (b :: bytes)
        · exact .inr ⟨fault, ⟨script, broken, pieces⟩, [], b :: bytes,
            by simp only [writeFrom, hi, if_false], hnone _ rfl⟩

/-- What sending a message leaves: its bytes, or nothing because it is too large, or a proper part
of its bytes because a write failed. -/
theorem send_cases (limit : Nat) (sink : Sink) (message : Message) :
    (∃ bytes next, encode limit message = .ok bytes ∧
      sink.send limit message = (.ok (), next) ∧ next.accepted = sink.accepted ++ bytes) ∨
    (∃ fault, encode limit message = .error fault ∧
      sink.send limit message = (.error fault, sink)) ∨
    (∃ bytes fault next part rest, encode limit message = .ok bytes ∧
      sink.send limit message = (.error fault, next) ∧ bytes = part ++ rest ∧ rest ≠ [] ∧
        next.accepted = sink.accepted ++ part) := by
  unfold send
  cases he : encode limit message with
  | error fault => exact .inr (.inl ⟨fault, rfl, rfl⟩)
  | ok bytes =>
    rcases writeFrom_cases sink.broken sink.pieces sink.script bytes with
      ⟨next, hw, ha⟩ | ⟨fault, next, part, rest, hw, hb, hr, ha⟩
    · refine .inl ⟨bytes, next, rfl, ?_, ha⟩
      simp only [write, hw]
    · refine .inr (.inr ⟨bytes, .io fault, next, part, rest, rfl, ?_, hb, hr, ha⟩)
      simp only [write, hw]

end DebugLink.Wire.Sink
