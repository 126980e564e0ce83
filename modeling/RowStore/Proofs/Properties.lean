import RowStore.Properties
import RowStore.Proofs.Text.Blank

/-!
Property texts as sequences of assignments. Merging a text assigns its lines in turn, blank lines
and comments left out, up to the first that is no assignment, so that the last value of a key stands
and a text can be merged piece by piece.
-/

namespace RowStore.Properties

open Text (trim lines dropLineReturn)

variable {properties merged : Properties} {line : List Char} {first second : List (List Char)}
  {key : String}

theorem assignment?_eq_none_iff : assignment? line = none ↔ '=' ∉ line := by
  rw [assignment?, Option.map_eq_none_iff, Text.splitAtFirst?_eq_none_iff]

/-- The blanks around a line go to the ends of its key and its value, where they come off. -/
theorem assignment?_trim (line : List Char) : assignment? (trim line) = assignment? line := by
  obtain ⟨before, after, whole, blankBefore, blankAfter⟩ := Text.exists_trim line
  have signNotBlank : Text.isBlank '=' = false := by decide
  have notBefore : '=' ∉ before := fun member => by
    cases signNotBlank.symm.trans (blankBefore _ member)
  have notAfter : '=' ∉ after := fun member => by
    cases signNotBlank.symm.trans (blankAfter _ member)
  by_cases member : '=' ∈ trim line
  · obtain ⟨name, value, split, noSign⟩ := List.eq_append_cons_of_mem member
    have around : line = (before ++ name) ++ '=' :: (value ++ after) := by
      rw [split] at whole
      simpa using whole
    have noSignBefore : '=' ∉ before ++ name := by simp [notBefore, noSign]
    rw [split, around, assignment?, assignment?, Text.splitAtFirst?_append_cons noSign,
      Text.splitAtFirst?_append_cons noSignBefore]
    simp only [Option.map_some, Text.trim_append_left blankBefore,
      Text.trim_append_right blankAfter]
  · have nowhere : '=' ∉ line := by
      rw [whole]
      simp [notBefore, notAfter, member]
    rw [assignment?_eq_none_iff.mpr member, assignment?_eq_none_iff.mpr nowhere]

theorem get?_set (properties : Properties) (key sought value : String) :
    (properties.set key value).get? sought =
      if sought = key then some value else properties.get? sought :=
  properties.entries.find?_set key sought value

/-- A line without its surrounding blank characters, if it is neither blank nor a comment. -/
def IsRequest (content : List Char) : Prop :=
  content ≠ [] ∧ content.head? ≠ some '#' ∧ content.head? ≠ some '!'

instance (content : List Char) : Decidable (IsRequest content) :=
  inferInstanceAs (Decidable (_ ∧ _ ∧ _))

theorem isIdle_iff {content : List Char} : isIdle content = true ↔ ¬ IsRequest content := by
  cases content with
  | nil => simp [isIdle, IsRequest]
  | cons first rest =>
      simp only [isIdle, IsRequest, decide_eq_true_eq, List.head?_cons, Option.some.injEq, ne_eq,
        reduceCtorEq, not_false_eq_true, true_and]
      exact Decidable.or_iff_not_not_and_not

/-- The lines of a text that ask for an assignment, each with its number among all lines, counted
from one. -/
def requests (text : String) : List (List Char × Nat) :=
  ((lines text.toList).zipIdx 1).filter fun line => IsRequest (trim line.1)

def assignAll (properties : Properties) (requests : List (List Char × Nat)) :
    Except Fault Properties :=
  requests.foldlM (fun properties line => properties.assign (String.ofList line.1)) properties

/-- How a merge ends that has come as far as the requests which are left: there are none, or the
first of them is no assignment. -/
inductive Ends : List (List Char × Nat) → Except Fault Unit → Prop
  | complete : Ends [] (.ok ())
  | stopped {line : List Char} {number : Nat} {rest : List (List Char × Nat)}
      (unassigned : '=' ∉ line) :
      Ends ((line, number) :: rest)
        (.error (.config (.notAssignmentLine number (String.ofList (trim line)))))

/-- The value that a line gives to a key, if it is an assignment to it. -/
def valueFor? (key : String) (line : List Char) : Option String :=
  (assignment? line).bind fun (name, value) => if key = name then some value else none

theorem assign_line (properties : Properties) (line : List Char) :
    properties.assign (String.ofList line) =
      match assignment? (trim line) with
      | some (key, value) => .ok (properties.set key value)
      | none => .error (.config (.notAssignment (String.ofList line))) := by
  cases parsed : assignment? (trim line) <;>
    simp only [assign, String.toList_ofList, ← assignment?_trim line, parsed]

theorem mergeLines_assigns (properties : Properties) (number : Nat) (lines : List (List Char)) :
    ∃ earlier later,
      ((lines.zipIdx number).filter fun line => IsRequest (trim line.1)) = earlier ++ later ∧
      properties.assignAll earlier = .ok (properties.mergeLines number lines).2 ∧
      Ends later (properties.mergeLines number lines).1 := by
  induction lines generalizing properties number with
  | nil => exact ⟨[], [], rfl, rfl, .complete⟩
  | cons line rest ih =>
      rw [List.zipIdx_cons, mergeLines]
      by_cases idle : isIdle (trim line) = true
      · obtain ⟨earlier, later, requested, assigned, ends⟩ := ih properties (number + 1)
        rw [List.filter_cons_of_neg (by simpa using isIdle_iff.mp idle), if_pos idle]
        exact ⟨earlier, later, requested, assigned, ends⟩
      · have request : IsRequest (trim line) := Decidable.not_not.mp (mt isIdle_iff.mpr idle)
        rw [List.filter_cons_of_pos (by simpa using request), if_neg idle]
        cases parsed : assignment? (trim line) with
        | none =>
            have unassigned : '=' ∉ line := by
              rwa [assignment?_trim, assignment?_eq_none_iff] at parsed
            exact ⟨[], _, rfl, rfl, .stopped unassigned⟩
        | some pair =>
            obtain ⟨earlier, later, requested, assigned, ends⟩ :=
              ih (properties.set pair.1 pair.2) (number + 1)
            refine ⟨(line, number) :: earlier, later, ?_, ?_, ends⟩
            · rw [requested, List.cons_append]
            · rw [assignAll, List.foldlM_cons, assign_line, parsed]
              exact assigned

/-- The last of several assignments to a key wins. -/
theorem get?_assignAll {earlier : List (List Char × Nat)}
    (assigned : properties.assignAll earlier = .ok merged) (key : String) :
    merged.get? key =
      (earlier.reverse.findSome? fun line => valueFor? key line.1).or (properties.get? key) := by
  induction earlier generalizing properties with
  | nil =>
      cases assigned
      rfl
  | cons line rest ih =>
      rw [assignAll, List.foldlM_cons, assign_line, assignment?_trim] at assigned
      cases parsed : assignment? line.1 with
      | none =>
          rw [parsed] at assigned
          cases assigned
      | some pair =>
          rw [parsed] at assigned
          have value : valueFor? key line.1 = if key = pair.1 then some pair.2 else none := by
            rw [valueFor?, parsed]
            rfl
          rw [ih assigned, get?_set, List.reverse_cons, List.findSome?_append,
            List.findSome?_singleton, value, Option.or_assoc]
          split <;> rfl

theorem mergeLines_append {number : Nat} (made : (properties.mergeLines number first).1 = .ok ()) :
    properties.mergeLines number (first ++ second) =
      (properties.mergeLines number first).2.mergeLines (number + first.length) second := by
  induction first generalizing properties number with
  | nil => rfl
  | cons line rest ih =>
      rw [mergeLines] at made ⊢
      rw [List.cons_append, mergeLines, List.length_cons, Nat.add_comm rest.length,
        ← Nat.add_assoc]
      by_cases idle : isIdle (trim line) = true
      · rw [if_pos idle] at made ⊢
        rw [if_pos idle]
        exact ih made
      · rw [if_neg idle] at made ⊢
        rw [if_neg idle]
        cases parsed : assignment? (trim line) with
        | none =>
            rw [parsed] at made
            cases made
        | some pair =>
            rw [parsed] at made
            exact ih made

/-- Only the report of a failure depends on the numbers of the lines. -/
theorem mergeLines_renumbered (properties : Properties) (number other : Nat)
    (lines : List (List Char)) :
    (properties.mergeLines number lines).2 = (properties.mergeLines other lines).2 ∧
      ((properties.mergeLines number lines).1 = .ok () ↔
        (properties.mergeLines other lines).1 = .ok ()) := by
  induction lines generalizing properties number other with
  | nil => exact ⟨rfl, Iff.rfl⟩
  | cons line rest ih =>
      rw [mergeLines, mergeLines]
      by_cases idle : isIdle (trim line) = true
      · rw [if_pos idle, if_pos idle]
        exact ih properties (number + 1) (other + 1)
      · rw [if_neg idle, if_neg idle]
        cases assignment? (trim line) with
        | none => simp
        | some pair => exact ih (properties.set pair.1 pair.2) (number + 1) (other + 1)

theorem mergeLines_congr {number : Nat} (alike : first.map trim = second.map trim) :
    properties.mergeLines number first = properties.mergeLines number second := by
  induction first generalizing properties number second with
  | nil => rw [List.map_eq_nil_iff.mp alike.symm]
  | cons line rest ih =>
      cases second with
      | nil => cases alike
      | cons other more =>
          obtain ⟨same, restAlike⟩ := List.cons.inj alike
          rw [mergeLines, mergeLines, same]
          simp only [ih restAlike]

/-- The line break behind a text makes no difference to its last line. -/
theorem mergeLines_ended {ended : List (List Char)} {last : List Char} {number : Nat}
    (made : (properties.mergeLines number
      (ended ++ if last.isEmpty then [] else [last])).1 = .ok ()) :
    properties.mergeLines number (ended ++ [dropLineReturn last]) =
      properties.mergeLines number (ended ++ if last.isEmpty then [] else [last]) := by
  cases last with
  | nil =>
      simp only [List.isEmpty_nil, if_true, List.append_nil] at made ⊢
      rw [mergeLines_append made]
      exact Prod.ext made.symm rfl
  | cons char rest =>
      apply mergeLines_congr
      simp [Text.trim_dropLineReturn]

theorem merge_append {text : String} (made : (properties.merge text).1 = .ok ()) (more : String) :
    (properties.merge (text ++ "\n" ++ more)).2 = ((properties.merge text).2.merge more).2 ∧
      ((properties.merge (text ++ "\n" ++ more)).1 = .ok () ↔
        ((properties.merge text).2.merge more).1 = .ok ()) := by
  obtain ⟨ended, last, whole, joined⟩ := Text.lines_append_cons text.toList more.toList
  have joinedText : (text ++ "\n" ++ more).toList = text.toList ++ '\n' :: more.toList := by simp
  rw [merge, whole] at made
  have same := mergeLines_ended made
  rw [merge, merge, merge, joinedText, joined, whole, ← List.singleton_append, ← List.append_assoc,
    mergeLines_append (same ▸ made), same]
  exact mergeLines_renumbered _ _ 1 _

/-- Merging a text comes to assigning its lines in turn, those left out that are blank or comments,
up to the first that is no assignment, which is reported with its number. What was assigned last
stands, and a text that can be merged in whole is merged together with another one behind it as if
each were merged by itself. -/
theorem merge_assigns_in_turn (properties : Properties) (text : String) :
    (∃ earlier later, requests text = earlier ++ later ∧
      properties.assignAll earlier = .ok (properties.merge text).2 ∧
      Ends later (properties.merge text).1 ∧
      ∀ key, (properties.merge text).2.get? key =
        (earlier.reverse.findSome? fun line => valueFor? key line.1).or (properties.get? key)) ∧
    ((properties.merge text).1 = .ok () → ∀ more,
      (properties.merge (text ++ "\n" ++ more)).2 = ((properties.merge text).2.merge more).2 ∧
      ((properties.merge (text ++ "\n" ++ more)).1 = .ok () ↔
        ((properties.merge text).2.merge more).1 = .ok ())) := by
  refine ⟨?_, merge_append⟩
  obtain ⟨earlier, later, requested, assigned, ends⟩ :=
    mergeLines_assigns properties 1 (lines text.toList)
  exact ⟨earlier, later, requested, assigned, ends, get?_assignAll assigned⟩

/-- The second text assigns again to a key of the first, and stops at its third line. -/
theorem merge_assigns_in_turn_stopped :
    (empty.merge "a=1\r\n# a=2\n! a=4\n b = x=y \r").1 = .ok () ∧
    (empty.merge ("a=1\r\n# a=2\n! a=4\n b = x=y \r" ++ "\n" ++ "a= 3\n\nb\nc=4")).1 =
      .error (.config (.notAssignmentLine 7 "b")) ∧
    (empty.merge ("a=1\r\n# a=2\n! a=4\n b = x=y \r" ++ "\n" ++ "a= 3\n\nb\nc=4")).2.entries.pairs =
      [("a", "3"), ("b", "x=y")] := by
  have made : (empty.merge "a=1\r\n# a=2\n! a=4\n b = x=y \r").1 = .ok () := by decide
  obtain ⟨-, onward⟩ := merge_assigns_in_turn empty "a=1\r\n# a=2\n! a=4\n b = x=y \r"
  refine ⟨made, by decide, ?_⟩
  rw [(onward made _).1]
  decide

end RowStore.Properties
