import RowStore.Bytes

namespace RowStore

/-- The bytes that have been written and not yet sent on. -/
structure OutputBuffer where
  held : Bytes := []
  deriving DecidableEq, Repr

namespace OutputBuffer

/-- The most bytes a buffer holds. -/
def capacity : Nat := 8192

/-- Take in more output. The bytes that go to the file at once come first: a piece as large as the
buffer passes through together with what was held, and a piece that does not fit beside what was
held sends that on. A piece is never cut. -/
def accept (buffer : OutputBuffer) (bytes : Bytes) : Bytes × OutputBuffer :=
  if capacity ≤ bytes.length then (buffer.held ++ bytes, {})
  else if buffer.held.length + bytes.length ≤ capacity then
    ([], { held := buffer.held ++ bytes })
  else (buffer.held, { held := bytes })

/-- Take in several pieces in turn. -/
def acceptAll (buffer : OutputBuffer) (pieces : List Bytes) : Bytes × OutputBuffer :=
  pieces.foldl
    (fun (sent, buffer) piece =>
      let (more, buffer) := buffer.accept piece
      (sent ++ more, buffer))
    ([], buffer)

theorem accept_append (buffer : OutputBuffer) (bytes : Bytes) :
    (buffer.accept bytes).1 ++ (buffer.accept bytes).2.held = buffer.held ++ bytes := by
  unfold accept
  split
  · simp
  · split <;> simp

/-- A buffer takes in a piece in whole: after sending on all it held, or behind it, or alone. -/
theorem accept_pieces {Piece : Type} (bytesOf : Piece → Bytes) {buffer : OutputBuffer}
    {held : List Piece} (holds : buffer.held = held.flatMap bytesOf) (piece : Piece) :
    ∃ sent kept, (buffer.accept (bytesOf piece)).1 = sent.flatMap bytesOf ∧
      (buffer.accept (bytesOf piece)).2.held = kept.flatMap bytesOf ∧
      sent ++ kept = held ++ [piece] ∧ kept.length ≤ held.length + 1 ∧
      (buffer.held.length + (bytesOf piece).length < capacity →
        sent = [] ∧ kept = held ++ [piece]) ∧
      (capacity ≤ (bytesOf piece).length → kept = []) := by
  unfold accept
  split
  · rename_i large
    refine ⟨held ++ [piece], [], ?_, rfl, by simp, by simp, fun small => by omega, fun _ => rfl⟩
    simp [holds]
  · rename_i notLarge
    split
    · refine ⟨[], held ++ [piece], rfl, ?_, by simp, by simp, fun _ => ⟨rfl, rfl⟩,
        fun large => absurd large notLarge⟩
      simp [holds]
    · rename_i full
      exact ⟨held, [piece], holds, by simp, rfl, by simp, fun small => by omega,
        fun large => absurd large notLarge⟩

end OutputBuffer

end RowStore
