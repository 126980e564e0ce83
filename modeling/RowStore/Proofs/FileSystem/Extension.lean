import RowStore.Proofs.FileSystem.Path

namespace RowStore.Path

variable {path front name stem old : List Char}

theorem splitExtension_append (begins : stem ≠ []) (noDot : '.' ∉ old) :
    splitExtension (stem ++ '.' :: old) = (stem, some old) := by
  have reversed : (stem ++ '.' :: old).reverse = old.reverse ++ '.' :: stem.reverse := by simp
  have found := Text.span_of_notMem (by simpa using noDot : '.' ∉ old.reverse)
    (Or.inr rfl : '.' :: stem.reverse = [] ∨ ('.' :: stem.reverse).head? = some '.')
  simp only [splitExtension, reversed, found, List.isEmpty_reverse, List.isEmpty_iff, begins,
    if_false, List.reverse_reverse]

/-- A name without an extension is all stem. -/
theorem splitExtension_cases (name : List Char) :
    splitExtension name = (name, none) ∨
      ∃ stem old, stem ≠ [] ∧ '.' ∉ old ∧ name = stem ++ '.' :: old ∧
        splitExtension name = (stem, some old) := by
  have whole := List.takeWhile_append_dropWhile (p := (· ≠ '.')) (l := name.reverse)
  cases rest : name.reverse.dropWhile (· ≠ '.') with
  | nil =>
      left
      simp only [splitExtension, List.span_eq_takeWhile_dropWhile, rest]
  | cons dot reversedStem =>
      have stopped := List.head?_dropWhile_not (· ≠ '.') name.reverse
      rw [rest] at stopped
      obtain rfl : dot = '.' := by simpa using stopped
      cases reversedStem with
      | nil =>
          left
          simp only [splitExtension, List.span_eq_takeWhile_dropWhile, rest, List.isEmpty_nil,
            if_true]
      | cons last reversedInit =>
          right
          have noDot : '.' ∉ (name.reverse.takeWhile (· ≠ '.')).reverse := by
            intro member
            simpa using List.mem_takeWhile_imp (List.mem_reverse.mp member)
          have split : name = (last :: reversedInit).reverse ++
              '.' :: (name.reverse.takeWhile (· ≠ '.')).reverse :=
            calc name
              _ = (name.reverse.takeWhile (· ≠ '.') ++ '.' :: last :: reversedInit).reverse := by
                  rw [← rest, whole, List.reverse_reverse]
              _ = _ := by
                  rw [List.reverse_append, List.reverse_cons, List.append_assoc,
                    List.singleton_append]
          have begins : (last :: reversedInit).reverse ≠ [] := by simp
          refine ⟨_, _, begins, noDot, split, ?_⟩
          conv => lhs; rw [split]
          exact splitExtension_append begins noDot

theorem behindDot_named (begins : stem ≠ []) :
    stem ++ '.' :: old ≠ [] ∧ stem ++ '.' :: old ≠ ['.'] ∧
      (old ≠ [] → stem ++ '.' :: old ≠ ['.', '.']) := by
  have stemLength := List.length_pos_iff.mpr begins
  have length : (stem ++ '.' :: old).length = stem.length + old.length + 1 := by
    simp only [List.length_append, List.length_cons, Nat.add_assoc]
  refine ⟨by simp, fun same => ?_, fun goes same => ?_⟩
  · rw [same, List.length_singleton] at length
    omega
  · have oldLength := List.length_pos_iff.mpr goes
    rw [same] at length
    simp only [List.length_cons, List.length_nil] at length
    omega

theorem splitExtension_begins (nonempty : name ≠ []) : (splitExtension name).1 ≠ [] := by
  rcases splitExtension_cases name with whole | ⟨stem, old, begins, -, -, cut⟩
  · rwa [whole]
  · rwa [cut]

theorem splitExtension_noSlash (noSlash : '/' ∉ name) : '/' ∉ (splitExtension name).1 := by
  rcases splitExtension_cases name with whole | ⟨stem, old, -, -, rfl, cut⟩
  · rwa [whole]
  · rw [cut]
    exact fun member => noSlash (List.mem_append_left _ member)

/-- No extension has a dot in it, so that one with a dot makes another name. -/
theorem splitExtension_ne {extension : List Char} (dotted : '.' ∈ extension) :
    (splitExtension name).1 ++ '.' :: extension ≠ name := by
  intro same
  rcases splitExtension_cases name with whole | ⟨stem, old, begins, noDot, split, cut⟩
  · rw [whole] at same
    simpa using congrArg List.length same
  · rw [cut] at same
    conv at same => rhs; rw [split]
    obtain ⟨-, rfl⟩ := List.cons.inj (List.append_cancel_left same)
    exact noDot dotted

/-- A path cut by the length of the extension of its last name. -/
def shortened (path name : List Char) : List Char :=
  match (splitExtension name).2 with
  | none => path
  | some old => path.take (path.length - old.length)

theorem withExtension_eq {path extension : String} {front name : List Char}
    (found : splitName? path.toList = some (front, name)) :
    withExtension path extension =
      match splitName? (shortened path.toList name) with
      | none => String.ofList (shortened path.toList name)
      | some (upper, cut) =>
        String.ofList (upper ++ (splitExtension cut).1) ++ "." ++ extension := by
  cases ending : (splitExtension name).2 with
  | none =>
      have whole : shortened path.toList name = path.toList := by simp only [shortened, ending]
      simp only [withExtension, found, ending, whole]
  | some old =>
      have taken : shortened path.toList name =
          path.toList.take (path.toList.length - old.length) := by
        simp only [shortened, ending]
      rw [taken]
      cases left : splitName? (path.toList.take (path.toList.length - old.length)) <;>
        simp only [withExtension, found, ending, left]

private theorem dropTrailing_cases (reversed : List Char) :
    ∃ trail, reversed = trail ++ dropTrailing reversed ∧
      ∀ count ≤ trail.length, dropTrailing (reversed.drop count) = dropTrailing reversed := by
  fun_induction dropTrailing reversed with
  | case1 rest ih =>
      obtain ⟨trail, whole, same⟩ := ih
      refine ⟨'/' :: trail, by rw [List.cons_append, ← whole], fun count within => ?_⟩
      cases count with
      | zero => rw [List.drop_zero, dropTrailing]
      | succ count => exact same count (Nat.le_of_succ_le_succ within)
  | case2 rest ih =>
      obtain ⟨trail, whole, same⟩ := ih
      refine ⟨'.' :: '/' :: trail, by rw [List.cons_append, List.cons_append, ← whole],
        fun count within => ?_⟩
      rcases count with _ | _ | count
      · rw [List.drop_zero, dropTrailing]
      · rw [List.drop_succ_cons, List.drop_zero, dropTrailing]
      · exact same count (Nat.le_of_succ_le_succ (Nat.le_of_succ_le_succ within))
  | case3 reversed noSlash noStay =>
      refine ⟨[], rfl, fun count within => ?_⟩
      obtain rfl := Nat.le_zero.mp within
      rw [List.drop_zero]
      unfold dropTrailing
      split
      · exact absurd rfl (noSlash _)
      · exact absurd rfl (noStay _)
      · rfl

/-- As long as only what follows the last name is cut off, a path ends in the same name. -/
theorem splitName?_take (found : splitName? path = some (front, name)) :
    ∃ trail, path = front ++ name ++ trail ∧ ∀ count ≤ trail.length,
      splitName? (path.take (path.length - count)) = some (front, name) := by
  obtain ⟨ends, -⟩ := splitName?_eq_some found
  obtain ⟨trail, parts, same⟩ := dropTrailing_cases path.reverse
  refine ⟨trail.reverse, ?_, fun count within => ?_⟩
  · rw [← List.reverse_reverse path, parts, ends, List.reverse_append, List.reverse_reverse]
  · rw [List.length_reverse] at within
    have inside : count ≤ path.length := by
      rw [← List.length_reverse, parts, List.length_append]
      omega
    have dropped : dropTrailing (path.take (path.length - count)).reverse =
        dropTrailing path.reverse := by
      rw [List.reverse_take, Nat.sub_sub_self inside]
      exact same count within
    rw [← found]
    simp only [splitName?, dropped]

/-- A cut that reaches into the extension leaves its dot. -/
private theorem take_behindDot {trail : List Char}
    (whole : path = front ++ (stem ++ '.' :: old) ++ trail) (longer : trail.length < old.length) :
    path.take (path.length - old.length) = front ++ (stem ++ '.' :: old.take trail.length) := by
  have split : path = front ++ (stem ++ '.' :: old.take trail.length) ++
      (old.drop trail.length ++ trail) := by
    rw [whole]
    conv => lhs; rw [← List.take_append_drop trail.length old]
    simp only [List.append_assoc, List.cons_append]
  have width : path.length - old.length =
      (front ++ (stem ++ '.' :: old.take trail.length)).length := by
    rw [split]
    simp only [List.length_append, List.length_cons, List.length_take, List.length_drop]
    omega
  rw [width]
  conv => lhs; rw [split]
  exact List.take_left

/-- The stem stays, unless it is a dot and what is left of the path ends in two of them. -/
theorem splitName?_shortened (found : splitName? path = some (front, name)) :
    (∃ cut, splitName? (shortened path name) = some (front, cut) ∧
        (splitExtension cut).1 = (splitExtension name).1) ∨
      (splitExtension name).1 = ['.'] ∧ shortened path name = front ++ ['.', '.'] ∧
        splitName? (shortened path name) = none := by
  obtain ⟨-, noSlash, -, lead⟩ := splitName?_eq_some found
  rcases splitExtension_cases name with whole | ⟨stem, old, begins, noDot, rfl, cut⟩
  · have unchanged : shortened path name = path := by rw [shortened, whole]
    rw [unchanged]
    exact Or.inl ⟨name, found, rfl⟩
  · have taken : shortened path (stem ++ '.' :: old) = path.take (path.length - old.length) := by
      rw [shortened, cut]
    obtain ⟨trail, whole, same⟩ := splitName?_take found
    rw [taken, cut]
    by_cases within : old.length ≤ trail.length
    · exact Or.inl ⟨_, same old.length within, by rw [cut]⟩
    · have cutNoSlash : '/' ∉ stem ++ '.' :: old.take trail.length := by
        simp only [List.mem_append, List.mem_cons] at noSlash ⊢
        exact mt (Or.imp_right (Or.imp_right List.mem_of_mem_take)) noSlash
      obtain ⟨notEmpty, notHere, -⟩ := @behindDot_named stem (old.take trail.length) begins
      rw [take_behindDot whole (Nat.lt_of_not_le within),
        splitName?_append_eq cutNoSlash ⟨notEmpty, notHere⟩ lead]
      split
      · rename_i up
        have alone : stem = ['.'] := by
          have length := congrArg List.length up
          have stemLength := List.length_pos_iff.mpr begins
          simp only [List.length_append, List.length_cons, List.length_nil] at length
          obtain ⟨first, rfl⟩ := List.length_eq_one_iff.mp (by omega : stem.length = 1)
          rw [(List.cons.inj up).1]
        exact Or.inr ⟨alone, by rw [up], rfl⟩
      · refine Or.inl ⟨_, rfl, ?_⟩
        rw [splitExtension_append begins fun member => noDot (List.mem_of_mem_take member)]

theorem toList_withExtension {path : String} {front name : List Char}
    (found : splitName? path.toList = some (front, name)) (extension : String) :
    (withExtension path extension).toList =
        front ++ ((splitExtension name).1 ++ '.' :: extension.toList) ∨
      (splitExtension name).1 = ['.'] ∧
        (withExtension path extension).toList = front ++ ['.', '.'] := by
  rw [withExtension_eq found]
  rcases splitName?_shortened found with ⟨cut, cutFound, sameStem⟩ | ⟨dot, up, cutNone⟩
  · left
    rw [cutFound]
    simp [sameStem]
  · right
    rw [cutNone]
    exact ⟨dot, by rw [up, String.toList_ofList]⟩

theorem withExtension_join {name : String} (directory extension : String) (isName : IsName name)
    (stemmed : (splitExtension name.toList).1 ≠ ['.']) :
    withExtension (join directory name) extension =
      join directory (String.ofList (splitExtension name.toList).1 ++ "." ++ extension) := by
  have found : splitName? (join directory name).toList = some (lead directory, name.toList) := by
    rw [toList_join]
    exact splitName?_append isName.noSlash isName.named (lead_ends directory)
  have whole := (toList_withExtension found extension).resolve_right fun up => stemmed up.1
  apply String.toList_inj.mp
  rw [whole, toList_join]
  simp

/-- An extension with a dot leads to another name in the same directory, or to the directory
above. -/
theorem withExtension_cases {path extension : String} {front name : List Char}
    (found : splitName? path.toList = some (front, name)) (dotted : '.' ∈ extension.toList)
    (extensionNoSlash : '/' ∉ extension.toList) :
    (∃ other, other ≠ name ∧
        splitName? (withExtension path extension).toList = some (front, other)) ∨
      (withExtension path extension).toList = front ++ ['.', '.'] := by
  obtain ⟨-, noSlash, named, lead⟩ := splitName?_eq_some found
  refine (toList_withExtension found extension).imp (fun whole => ?_) And.right
  refine ⟨(splitExtension name).1 ++ '.' :: extension.toList, splitExtension_ne dotted, ?_⟩
  have newNoSlash : '/' ∉ (splitExtension name).1 ++ '.' :: extension.toList := by
    simp [splitExtension_noSlash noSlash, extensionNoSlash]
  obtain ⟨notEmpty, notHere, notUp⟩ := behindDot_named (splitExtension_begins named.1)
  rw [whole]
  exact splitName?_append newNoSlash ⟨notEmpty, notHere, notUp (List.ne_nil_of_mem dotted)⟩ lead

theorem withExtension_ne {path extension : String} {front name : List Char}
    (found : splitName? path.toList = some (front, name)) (dotted : '.' ∈ extension.toList)
    (extensionNoSlash : '/' ∉ extension.toList) : withExtension path extension ≠ path := by
  intro same
  rcases withExtension_cases found dotted extensionNoSlash with ⟨other, different, otherFound⟩ | up
  · rw [same, found] at otherFound
    cases otherFound
    exact different rfl
  · obtain ⟨-, -, -, lead⟩ := splitName?_eq_some found
    rw [same] at up
    rw [up, splitName?_append_eq (by simp) (by simp) lead, if_pos rfl] at found
    cases found

end RowStore.Path
