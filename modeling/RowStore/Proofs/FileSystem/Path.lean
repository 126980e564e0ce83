import RowStore.FileSystem.Path
import RowStore.Proofs.Text.Blank

namespace RowStore

namespace Path

/-- A name of something in a directory, which is one step of a path and not one of the two that
name nothing. -/
structure IsName (name : String) : Prop where
  noSlash : '/' ∉ name.toList
  notEmpty : name ≠ ""
  notHere : name ≠ here
  notUp : name ≠ up

theorem IsName.named {name : String} (isName : IsName name) :
    name.toList ≠ [] ∧ name.toList ≠ ['.'] ∧ name.toList ≠ ['.', '.'] :=
  ⟨fun same => isName.notEmpty (String.toList_eq_nil_iff.mp same),
    fun same => isName.notHere (String.toList_inj.mp same),
    fun same => isName.notUp (String.toList_inj.mp same)⟩

private def stepsOf (chars : List Char) : List String :=
  ((Text.splitAll '/' chars).map String.ofList).filter (· ≠ "")

private theorem stepsOf_append_slash {last : List Char} (before : List Char) (absent : '/' ∉ last) :
    stepsOf (before ++ '/' :: last) =
      stepsOf before ++ [String.ofList last].filter (· ≠ "") := by
  simp only [stepsOf, Text.splitAll_append_cons, Text.splitAll_of_notMem absent, List.map_append,
    List.filter_append, List.map_cons, List.map_nil]

/-- What stands before a name in a path. -/
def lead (directory : String) : List Char :=
  if directory = "" ∨ directory.toList.getLast? = some '/' then directory.toList
  else directory.toList ++ ['/']

theorem toList_join (directory name : String) :
    (join directory name).toList = lead directory ++ name.toList := by
  unfold join lead
  split <;> simp

theorem lead_ends (directory : String) :
    lead directory = [] ∨ ∃ upper, lead directory = upper ++ ['/'] := by
  unfold lead
  split
  · rename_i closed
    rcases closed with empty | slash
    · left
      rw [empty]
      rfl
    · exact Or.inr (List.getLast?_eq_some_iff.mp slash)
  · exact Or.inr ⟨_, rfl⟩

/-- A slash at the end is no step. -/
private theorem stepsOf_slash (before : List Char) : stepsOf (before ++ ['/']) = stepsOf before := by
  rw [stepsOf_append_slash before List.not_mem_nil]
  simp

private theorem stepsOf_append_name {front name : List Char} (noSlash : '/' ∉ name)
    (nonempty : name ≠ []) (lead : front = [] ∨ ∃ upper, front = upper ++ ['/']) :
    stepsOf (front ++ name) = stepsOf front ++ [String.ofList name] := by
  have kept : [String.ofList name].filter (· ≠ "") = [String.ofList name] := by
    simpa using nonempty
  rcases lead with rfl | ⟨upper, rfl⟩
  · rw [List.nil_append, stepsOf, Text.splitAll_of_notMem noSlash]
    exact kept
  · rw [List.append_assoc, List.singleton_append, stepsOf_append_slash upper noSlash, kept,
      stepsOf_slash]

theorem steps_append {path : String} {front name : List Char} (whole : path.toList = front ++ name)
    (noSlash : '/' ∉ name) (nonempty : name ≠ [])
    (lead : front = [] ∨ ∃ upper, front = upper ++ ['/']) :
    steps path = steps (String.ofList front) ++ [String.ofList name] := by
  have named := stepsOf_append_name noSlash nonempty lead
  rw [steps, steps, whole, String.toList_ofList]
  exact named

theorem steps_join {name : String} (directory : String) (isName : IsName name) :
    steps (join directory name) = steps directory ++ [name] := by
  have sameLead : stepsOf (lead directory) = stepsOf directory.toList := by
    unfold lead
    split
    · rfl
    · exact stepsOf_slash directory.toList
  change stepsOf (join directory name).toList = stepsOf directory.toList ++ [name]
  rw [toList_join, stepsOf_append_name isName.noSlash isName.named.1 (lead_ends directory), sameLead,
    String.ofList_toList]

theorem endsInSlash_join {name : String} (directory : String) (isName : IsName name) :
    endsInSlash (join directory name) = false := by
  have whole := toList_join directory name
  obtain ⟨init, last, split⟩ :=
    (List.eq_nil_or_concat name.toList).resolve_left isName.named.1
  have notSlash : last ≠ '/' := fun same => isName.noSlash (by simp [split, same])
  simp [endsInSlash, whole, split, notSlash]

theorem endsUnnamed_join {name : String} (directory : String) (isName : IsName name) :
    endsUnnamed (steps (join directory name)) = false := by
  simp [endsUnnamed, steps_join directory isName, isName.notHere, isName.notUp]

theorem join_ne_empty {name : String} (directory : String) (isName : IsName name) :
    join directory name ≠ "" := by
  intro empty
  have noSteps : steps (join directory name) = [] := by rw [empty]; rfl
  rw [steps_join directory isName] at noSteps
  simp at noSteps

private theorem dropTrailing_of_named {first : Char} {rest : List Char} (notSlash : first ≠ '/')
    (notStay : first = '.' → rest.head? ≠ some '/') :
    dropTrailing (first :: rest) = first :: rest := by
  unfold dropTrailing
  split
  · rename_i same
    exact absurd (List.cons.inj same).1 notSlash
  · rename_i same
    obtain ⟨dot, tail⟩ := List.cons.inj same
    exact absurd (by rw [tail]; rfl) (notStay dot)
  · rfl

theorem splitName?_append_eq {front name : List Char} (noSlash : '/' ∉ name)
    (named : name ≠ [] ∧ name ≠ ['.'])
    (lead : front = [] ∨ ∃ upper, front = upper ++ ['/']) :
    splitName? (front ++ name) = if name = ['.', '.'] then none else some (front, name) := by
  have stops : front.reverse = [] ∨ front.reverse.head? = some '/' := by
    rcases lead with rfl | ⟨upper, rfl⟩ <;> simp
  have kept : dropTrailing (name.reverse ++ front.reverse) = name.reverse ++ front.reverse := by
    obtain ⟨init, last, rfl⟩ := (List.eq_nil_or_concat name).resolve_left named.1
    have lastNotSlash : last ≠ '/' := fun same => noSlash (by simp [same])
    rw [List.concat_eq_append, List.reverse_append, List.reverse_singleton, List.append_assoc,
      List.singleton_append]
    refine dropTrailing_of_named lastNotSlash fun dot => ?_
    rcases List.eq_nil_or_concat init with rfl | ⟨before, previous, rfl⟩
    · exact absurd (by simp [dot]) named.2
    · have previousNotSlash : previous ≠ '/' := fun same => noSlash (by simp [same])
      simpa using previousNotSlash
  have found := Text.span_of_notMem (by simpa using noSlash : '/' ∉ name.reverse) stops
  simp only [splitName?, List.reverse_append, kept, found, List.reverse_reverse, named, false_or]

theorem splitName?_append {front name : List Char} (noSlash : '/' ∉ name)
    (named : name ≠ [] ∧ name ≠ ['.'] ∧ name ≠ ['.', '.'])
    (lead : front = [] ∨ ∃ upper, front = upper ++ ['/']) :
    splitName? (front ++ name) = some (front, name) := by
  rw [splitName?_append_eq noSlash ⟨named.1, named.2.1⟩ lead, if_neg named.2.2]

/-- What is found at the end of a path is one of its steps, and its directory stands before it. -/
theorem splitName?_eq_some {path front name : List Char}
    (found : splitName? path = some (front, name)) :
    dropTrailing path.reverse = (front ++ name).reverse ∧ '/' ∉ name ∧
      (name ≠ [] ∧ name ≠ ['.'] ∧ name ≠ ['.', '.']) ∧
      (front = [] ∨ ∃ upper, front = upper ++ ['/']) := by
  simp only [splitName?, List.span_eq_takeWhile_dropWhile] at found
  split at found
  · cases found
  · rename_i named
    cases found
    refine ⟨?_, ?_, by simpa only [not_or] using named, ?_⟩
    · rw [List.reverse_append, List.reverse_reverse, List.reverse_reverse,
        List.takeWhile_append_dropWhile]
    · intro member
      simpa using List.mem_takeWhile_imp (List.mem_reverse.mp member)
    · cases rest : (dropTrailing path.reverse).dropWhile (· ≠ '/') with
      | nil => exact Or.inl rfl
      | cons first behind =>
          have stopped := List.head?_dropWhile_not (· ≠ '/') (dropTrailing path.reverse)
          rw [rest] at stopped
          refine Or.inr ⟨behind.reverse, ?_⟩
          have slash : first = '/' := by simpa using stopped
          rw [slash, List.reverse_cons]

private theorem stepsOf_dropTrailing (reversed : List Char) :
    ∃ stays, (∀ step ∈ stays, step = here) ∧
      stepsOf reversed.reverse = stepsOf (dropTrailing reversed).reverse ++ stays := by
  fun_induction dropTrailing reversed with
  | case1 rest ih =>
      rw [List.reverse_cons, stepsOf_slash]
      exact ih
  | case2 rest ih =>
      obtain ⟨stays, allStay, same⟩ := ih
      refine ⟨stays ++ [here], ?_, ?_⟩
      · simpa [or_imp, forall_and] using allStay
      · have noSlash : '/' ∉ ['.'] := by simp
        rw [List.reverse_cons, List.reverse_cons, List.append_assoc, List.singleton_append,
          stepsOf_append_slash rest.reverse noSlash, same, List.append_assoc]
        rfl
  | case3 => exact ⟨[], by simp, by simp⟩

/-- What follows the last name of a path goes nowhere. -/
theorem steps_of_splitName? {path : String} {front name : List Char}
    (found : splitName? path.toList = some (front, name)) :
    ∃ stays, (∀ step ∈ stays, step = here) ∧
      steps path = steps (String.ofList front) ++ String.ofList name :: stays := by
  obtain ⟨ends, noSlash, named, lead⟩ := splitName?_eq_some found
  obtain ⟨stays, allStay, same⟩ := stepsOf_dropTrailing path.toList.reverse
  refine ⟨stays, allStay, ?_⟩
  rw [List.reverse_reverse, ends, List.reverse_reverse,
    stepsOf_append_name noSlash named.1 lead, List.append_assoc] at same
  have upper : steps (String.ofList front) = stepsOf front := by
    rw [steps, String.toList_ofList, stepsOf]
  rw [upper]
  exact same

theorem isName_of_splitName? {path front name : List Char}
    (found : splitName? path = some (front, name)) : IsName (String.ofList name) := by
  obtain ⟨-, noSlash, ⟨nonempty, notHere, notUp⟩, -⟩ := splitName?_eq_some found
  exact {
    noSlash := by rwa [String.toList_ofList]
    notEmpty := by simpa using nonempty
    notHere := fun same => notHere (by simpa [here] using congrArg String.toList same)
    notUp := fun same => notUp (by simpa [up] using congrArg String.toList same) }

end Path

end RowStore
