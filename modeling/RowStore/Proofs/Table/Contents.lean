import RowStore.Proofs.OrderedMap
import RowStore.Table.Contents

namespace RowStore

theorem Contents.map_putAll (contents : Contents) (pairs : List (Bytes × Bytes)) :
    (contents.putAll pairs).map = contents.map.insertAll pairs := by
  induction pairs generalizing contents with
  | nil => rfl
  | cons pair rest ih => exact ih (contents.put pair.1 pair.2)

namespace OrderedMap

variable {map : OrderedMap} {start : Bytes}

theorem ascending_entriesFrom (map : OrderedMap) (start : Bytes) :
    Ascending (map.entriesFrom start) :=
  List.Pairwise.sublist (List.dropWhile_sublist _) map.ascending

/-- The keys before a starting key come first, so that leaving off the first entries is to leave off
exactly those. -/
theorem mem_entriesFrom_iff {entry : Bytes × Bytes} :
    entry ∈ map.entriesFrom start ↔ ¬ entry.1 < start ∧ entry ∈ map.entries := by
  suffices dropped : ∀ entries, Ascending entries →
      (entry ∈ entries.dropWhile (fun entry => decide (entry.1 < start)) ↔
        ¬ entry.1 < start ∧ entry ∈ entries) by
    exact dropped map.entries map.ascending
  intro entries ascending
  induction entries with
  | nil => simp
  | cons head rest ih =>
      obtain ⟨headFirst, restAscending⟩ := List.pairwise_cons.mp ascending
      by_cases before : head.1 < start
      · rw [List.dropWhile_cons, if_pos (decide_eq_true before), ih restAscending]
        constructor
        · rintro ⟨notBefore, member⟩
          exact ⟨notBefore, List.mem_cons_of_mem _ member⟩
        · rintro ⟨notBefore, member⟩
          rcases List.mem_cons.mp member with same | later
          · exact absurd (same ▸ before) notBefore
          · exact ⟨notBefore, later⟩
      · rw [List.dropWhile_cons, if_neg (by simpa using before)]
        refine ⟨fun member => ⟨fun entryBefore => ?_, member⟩, And.right⟩
        rcases List.mem_cons.mp member with same | later
        · exact before (same ▸ entryBefore)
        · exact before (List.lt_trans (headFirst entry later) entryBefore)

end OrderedMap

namespace Cursor

/-- The entries that a cursor yields in turn until it finds nothing more. -/
inductive Yields (contents : Contents) : Cursor → List (Bytes × Bytes) → Prop
  | done {cursor : Cursor} (nothing : (cursor.next contents).1 = none) : Yields contents cursor []
  | more {cursor : Cursor} {entry : Bytes × Bytes} {rest : List (Bytes × Bytes)}
      (found : (cursor.next contents).1 = some entry)
      (later : Yields contents (cursor.next contents).2 rest) :
      Yields contents cursor (entry :: rest)

/-- A cursor yields what is within its bound, if that is how the entries end. -/
private theorem yields_split {contents : Contents} {bound : OrderedMap.Bound}
    {passed rest : List (Bytes × Bytes)} (whole : contents.map.entries = passed ++ rest)
    (outside : ∀ entry ∈ passed, bound.admits entry.1 = false)
    (within : ∀ entry ∈ rest, bound.admits entry.1 = true) : Yields contents ⟨bound⟩ rest := by
  induction rest generalizing bound passed with
  | nil =>
      have nothing : contents.map.next? bound = none := by
        rw [OrderedMap.next?, whole, List.append_nil]
        simpa using outside
      apply Yields.done
      simp only [next, nothing]
  | cons entry later ih =>
      have skipped : passed.find? (fun other => bound.admits other.1) = none := by
        simpa using outside
      have first : contents.map.next? bound = some entry := by
        rw [OrderedMap.next?, whole, List.find?_append, skipped, Option.none_or, List.find?_cons,
          within entry List.mem_cons_self]
      have ascending := contents.map.ascending
      rw [whole] at ascending
      obtain ⟨_, rest, apart⟩ := List.pairwise_append.mp ascending
      obtain ⟨entryFirst, _⟩ := List.pairwise_cons.mp rest
      have outsideNext : ∀ other ∈ passed ++ [entry],
          (OrderedMap.Bound.after entry.1).admits other.1 = false := by
        intro other member
        apply decide_eq_false
        rcases List.mem_append.mp member with before | here
        · exact fun reached => Bytes.lt_irrefl _
            (List.lt_trans reached (apart other before entry List.mem_cons_self))
        · rw [List.mem_singleton.mp here]
          exact Bytes.lt_irrefl _
      have wholeNext : contents.map.entries = (passed ++ [entry]) ++ later := by simp [whole]
      have onward := ih wholeNext outsideNext
        (fun other member => decide_eq_true (entryFirst other member))
      refine Yields.more ?_ ?_
      · simp only [next, first]
      · simpa only [next, first] using onward

theorem yields_entriesFrom (contents : Contents) (start : Bytes) :
    Yields contents (startingAt start) (contents.map.entriesFrom start) := by
  refine yields_split (List.takeWhile_append_dropWhile).symm (fun entry member => ?_)
    (fun entry member => ?_)
  · have before := List.all_eq_true.mp List.all_takeWhile entry member
    simp [OrderedMap.Bound.admits, of_decide_eq_true before]
  · have notBefore := (OrderedMap.mem_entriesFrom_iff.mp member).1
    simp [OrderedMap.Bound.admits, notBefore]

end Cursor

end RowStore
