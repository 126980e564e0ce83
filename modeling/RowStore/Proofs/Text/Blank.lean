import Mathlib.Data.List.TakeDrop
import Mathlib.Data.List.TakeWhile
import RowStore.Text.Blank

namespace RowStore.Text

variable {separator : Char} {chars before after line : List Char}

/-- One step of `splitAll`: the piece being read and the pieces before it, both latest first. -/
private abbrev cut (separator : Char) (state : List Char × List (List Char)) (char : Char) :
    List Char × List (List Char) :=
  if char = separator then ([], state.1.reverse :: state.2) else (char :: state.1, state.2)

private theorem splitAll_eq_cut (separator : Char) (chars : List Char) :
    splitAll separator chars =
      (chars.foldl (cut separator) ([], [])).2.reverse ++
        [(chars.foldl (cut separator) ([], [])).1.reverse] := by
  rw [← List.reverse_cons]
  rfl

/-- The pieces that have been read already stay as they are. -/
private theorem foldl_cut (separator : Char) (chars piece : List Char) (done : List (List Char)) :
    chars.foldl (cut separator) (piece, done) =
      ((chars.foldl (cut separator) (piece, [])).1,
        (chars.foldl (cut separator) (piece, [])).2 ++ done) := by
  induction chars generalizing piece done with
  | nil => rfl
  | cons char rest ih =>
      by_cases same : char = separator
      · simp only [List.foldl_cons, cut, same, if_true]
        rw [ih [] (piece.reverse :: done), ih [] [piece.reverse]]
        simp
      · simp only [List.foldl_cons, cut, same, if_false]
        exact ih (char :: piece) done

theorem splitAll_append_cons (separator : Char) (before after : List Char) :
    splitAll separator (before ++ separator :: after) =
      splitAll separator before ++ splitAll separator after := by
  have step : (before ++ separator :: after).foldl (cut separator) ([], []) =
      after.foldl (cut separator) ([], (before.foldl (cut separator) ([], [])).1.reverse ::
        (before.foldl (cut separator) ([], [])).2) := by
    rw [List.foldl_append, List.foldl_cons, cut, if_pos rfl]
  rw [splitAll_eq_cut, step, foldl_cut, splitAll_eq_cut separator before,
    splitAll_eq_cut separator after]
  simp

theorem splitAll_of_notMem (absent : separator ∉ chars) : splitAll separator chars = [chars] := by
  suffices read : ∀ piece, chars.foldl (cut separator) (piece, []) = (chars.reverse ++ piece, []) by
    rw [splitAll_eq_cut, read]
    simp
  induction chars with
  | nil => exact fun _ => rfl
  | cons char rest ih =>
      intro piece
      have other : char ≠ separator := fun same => absent (by simp [same])
      have restAbsent : separator ∉ rest := fun member => absent (List.mem_cons_of_mem _ member)
      rw [List.foldl_cons, cut, if_neg other, ih restAbsent]
      simp

theorem span_of_notMem {rest : List Char} (absent : separator ∉ chars)
    (stops : rest = [] ∨ rest.head? = some separator) :
    (chars ++ rest).span (· ≠ separator) = (chars, rest) := by
  have kept : ∀ char ∈ chars, decide (char ≠ separator) = true := by
    intro char member
    exact decide_eq_true fun same => absent (same ▸ member)
  rw [List.span_eq_takeWhile_dropWhile, List.takeWhile_append_of_pos kept,
    List.dropWhile_append_of_pos kept]
  rcases stops with rfl | slash
  · simp
  · obtain ⟨tail, rfl⟩ := List.head?_eq_some_iff.mp slash
    simp

theorem splitAtFirst?_append_cons (absent : separator ∉ before) :
    splitAtFirst? separator (before ++ separator :: after) = some (before, after) := by
  rw [splitAtFirst?, span_of_notMem absent (Or.inr rfl)]

theorem splitAtFirst?_of_mem (member : separator ∈ chars) :
    ∃ before after, splitAtFirst? separator chars = some (before, after) ∧
      chars = before ++ separator :: after := by
  obtain ⟨before, after, rfl, absent⟩ := List.eq_append_cons_of_mem member
  exact ⟨before, after, splitAtFirst?_append_cons absent, rfl⟩

theorem splitAtFirst?_eq_none_iff : splitAtFirst? separator chars = none ↔ separator ∉ chars := by
  constructor
  · intro uncut member
    obtain ⟨_, _, found, _⟩ := splitAtFirst?_of_mem member
    cases uncut.symm.trans found
  · intro absent
    have whole := span_of_notMem absent (Or.inl rfl : ([] : List Char) = [] ∨ _)
    rw [List.append_nil] at whole
    rw [splitAtFirst?, whole]

theorem trim_append_left (blank : ∀ char ∈ before, isBlank char = true) :
    trim (before ++ chars) = trim chars := by
  rw [trim, List.dropWhile_append_of_pos blank]
  rfl

theorem trim_append_right (blank : ∀ char ∈ after, isBlank char = true) :
    trim (chars ++ after) = trim chars := by
  rw [trim, List.dropWhile_append]
  split
  · rename_i nothing
    have allBlank : after.dropWhile isBlank = [] := by simpa using blank
    rw [trim, List.isEmpty_iff.mp nothing, allBlank]
  · have reversed : ∀ char ∈ after.reverse, isBlank char = true := by simpa using blank
    rw [List.reverse_append, List.dropWhile_append_of_pos reversed]
    rfl

/-- What trimming takes off a text is blank. -/
theorem exists_trim (chars : List Char) :
    ∃ before after, chars = before ++ (trim chars ++ after) ∧
      (∀ char ∈ before, isBlank char = true) ∧ ∀ char ∈ after, isBlank char = true := by
  let rest := chars.dropWhile isBlank
  have front : chars.takeWhile isBlank ++ rest = chars := List.takeWhile_append_dropWhile
  have back : rest.reverse.takeWhile isBlank ++ rest.reverse.dropWhile isBlank = rest.reverse :=
    List.takeWhile_append_dropWhile
  refine ⟨chars.takeWhile isBlank, (rest.reverse.takeWhile isBlank).reverse, ?_,
    fun char => List.mem_takeWhile_imp, fun char member => ?_⟩
  · have inner : trim chars ++ (rest.reverse.takeWhile isBlank).reverse = rest := by
      rw [trim, ← List.reverse_append, back, List.reverse_reverse]
    rw [inner, front]
  · exact List.mem_takeWhile_imp (List.mem_reverse.mp member)

theorem trim_dropLineReturn (line : List Char) : trim (dropLineReturn line) = trim line := by
  unfold dropLineReturn
  split
  · rename_i returns
    obtain ⟨init, rfl⟩ := List.getLast?_eq_some_iff.mp returns
    have blank : ∀ char ∈ ['\r'], isBlank char = true :=
      List.forall_mem_singleton.mpr (by decide)
    rw [List.dropLast_concat, trim_append_right blank]
  · rfl

private theorem lines_of_splitAll {pieces : List (List Char)} {last : List Char}
    (split : splitAll '\n' chars = pieces ++ [last]) :
    lines chars = pieces.map dropLineReturn ++ if last.isEmpty then [] else [last] := by
  rw [lines, split, List.reverse_concat]
  simp only [List.reverse_reverse]
  split <;> simp

/-- What follows a text ends the last line of it. This may be an empty line, which would be no line
at the end of the text. -/
theorem lines_append_cons (first second : List Char) :
    ∃ ended last, lines first = ended ++ (if last.isEmpty then [] else [last]) ∧
      lines (first ++ '\n' :: second) = ended ++ dropLineReturn last :: lines second := by
  have firstCut := splitAll_eq_cut '\n' first
  have secondCut := splitAll_eq_cut '\n' second
  have bothCut := splitAll_append_cons '\n' first second
  rw [firstCut, secondCut, ← List.append_assoc] at bothCut
  refine ⟨_, _, lines_of_splitAll firstCut, ?_⟩
  rw [lines_of_splitAll bothCut, lines_of_splitAll secondCut]
  simp

end RowStore.Text
