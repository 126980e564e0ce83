import Mathlib.Data.Finset.Card
import RowStore.OrderedMap
import RowStore.Proofs.Dictionary

namespace RowStore

theorem Bytes.lt_irrefl (bytes : Bytes) : ¬ bytes < bytes :=
  List.lt_irrefl bytes

/-- The value of the last pair with a key. -/
def lastValue (pairs : List (Bytes × Bytes)) (key : Bytes) : Option Bytes :=
  (pairs.reverse.find? (·.1 = key)).map Prod.snd

theorem lastValue_append (earlier later : List (Bytes × Bytes)) (key : Bytes) :
    lastValue (earlier ++ later) key = (lastValue later key).or (lastValue earlier key) := by
  simp only [lastValue, List.reverse_append, List.find?_append]
  cases later.reverse.find? (·.1 = key) <;> rfl

theorem lastValue_singleton (pair : Bytes × Bytes) (key : Bytes) :
    lastValue [pair] key = if key = pair.1 then some pair.2 else none := by
  by_cases same : pair.1 = key
  · simp [lastValue, same]
  · simp [lastValue, same, Ne.symm same]

private theorem find?_key_eq_none_iff {pairs : List (Bytes × Bytes)} {key : Bytes} :
    pairs.find? (·.1 = key) = none ↔ key ∉ pairs.map Prod.fst := by
  simp only [List.find?_eq_none, decide_eq_true_eq, List.mem_map, not_exists, not_and]

theorem lastValue_eq_none_iff {pairs : List (Bytes × Bytes)} {key : Bytes} :
    lastValue pairs key = none ↔ key ∉ pairs.map Prod.fst := by
  rw [lastValue, Option.map_eq_none_iff, find?_key_eq_none_iff, List.map_reverse, List.mem_reverse]

theorem mem_of_lastValue {pairs : List (Bytes × Bytes)} {key value : Bytes}
    (last : lastValue pairs key = some value) : (key, value) ∈ pairs := by
  rw [lastValue, Option.map_eq_some_iff] at last
  obtain ⟨⟨other, stored⟩, located, same⟩ := last
  have written := List.mem_of_find?_eq_some located
  have sameKey : other = key := by simpa using List.find?_some located
  subst sameKey
  subst same
  exact List.mem_reverse.mp written

namespace OrderedMap

variable {map left right : OrderedMap} {key value sought : Bytes}

theorem nodup_keys (map : OrderedMap) : (map.entries.map Prod.fst).Nodup := by
  rw [List.nodup_iff_pairwise_ne, List.pairwise_map]
  refine map.ascending.imp fun {earlier later} before same => ?_
  rw [same] at before
  exact Bytes.lt_irrefl _ before

theorem find?_eq_some_iff : map.find? key = some value ↔ (key, value) ∈ map.entries :=
  find?_pair_eq_some_iff map.nodup_keys

theorem find?_eq_none_iff : map.find? key = none ↔ key ∉ map.entries.map Prod.fst := by
  rw [find?, Option.map_eq_none_iff, find?_key_eq_none_iff]

/-- Two maps that answer alike are the same entries. -/
theorem ext_find? (alike : ∀ key, left.find? key = right.find? key) : left = right := by
  have members : ∀ entry, entry ∈ left.entries ↔ entry ∈ right.entries := by
    rintro ⟨key, value⟩
    rw [← find?_eq_some_iff, ← find?_eq_some_iff, alike]
  have permutation : left.entries.Perm right.entries :=
    (List.perm_ext_iff_of_nodup left.nodup_keys.of_map right.nodup_keys.of_map).mpr members
  have same : left.entries = right.entries := by
    refine permutation.eq_of_pairwise (fun earlier later _ _ before after => ?_)
      left.ascending right.ascending
    exact absurd (List.lt_trans before after) (Bytes.lt_irrefl _)
  cases left
  cases right
  cases same
  rfl

theorem entries_eq_iff :
    left.entries = right.entries ↔ ∀ key, left.find? key = right.find? key := by
  refine ⟨fun same key => ?_, fun alike => congrArg entries (ext_find? alike)⟩
  rw [find?, find?, same]

@[simp] theorem find?_empty (key : Bytes) : empty.find? key = none := rfl

private theorem find?_insertEntry (entries : List (Bytes × Bytes)) :
    ((insertEntry key value entries).find? (·.1 = sought)).map Prod.snd =
      if sought = key then some value
      else (entries.find? (·.1 = sought)).map Prod.snd := by
  induction entries with
  | nil =>
      by_cases wanted : sought = key
      · simp [insertEntry, wanted]
      · simp [insertEntry, wanted, Ne.symm wanted]
  | cons entry rest ih =>
      obtain ⟨other, previous⟩ := entry
      simp only [insertEntry]
      split
      · rename_i same
        subst same
        by_cases wanted : sought = key
        · simp [wanted]
        · simp [wanted, Ne.symm wanted]
      · rename_i different
        split
        · by_cases wanted : sought = key
          · simp [wanted]
          · simp [wanted, Ne.symm wanted]
        · by_cases here : other = sought
          · subst here
            simp [Ne.symm different]
          · simpa [here] using ih

theorem find?_insert (map : OrderedMap) (key value sought : Bytes) :
    (map.insert key value).find? sought = if sought = key then some value else map.find? sought :=
  find?_insertEntry map.entries

theorem insertAll_append (map : OrderedMap) (earlier later : List (Bytes × Bytes)) :
    map.insertAll (earlier ++ later) = (map.insertAll earlier).insertAll later :=
  List.foldl_append

theorem find?_insertAll (map : OrderedMap) (pairs : List (Bytes × Bytes)) (key : Bytes) :
    (map.insertAll pairs).find? key = (lastValue pairs key).or (map.find? key) := by
  induction pairs generalizing map with
  | nil => rfl
  | cons pair rest ih =>
      have step : map.insertAll (pair :: rest) = (map.insert pair.1 pair.2).insertAll rest := rfl
      have split : lastValue (pair :: rest) key =
          (lastValue rest key).or (lastValue [pair] key) := lastValue_append [pair] rest key
      rw [step, ih, find?_insert, split, lastValue_singleton, Option.or_assoc]
      split <;> rfl

theorem lastValue_entries (map : OrderedMap) (key : Bytes) :
    lastValue map.entries key = map.find? key := by
  have distinct : (map.entries.reverse.map Prod.fst).Nodup := by
    rw [List.map_reverse, List.nodup_reverse]
    exact map.nodup_keys
  apply Option.ext
  intro value
  rw [lastValue, find?_pair_eq_some_iff distinct, List.mem_reverse, find?_eq_some_iff]

/-- Writing the entries of a map in turn builds the map. -/
theorem empty_insertAll_entries (map : OrderedMap) : empty.insertAll map.entries = map := by
  apply ext_find?
  intro key
  rw [find?_insertAll, lastValue_entries, find?_empty, Option.or_none]

/-- Writing entries over a map and then once more does not change it. -/
theorem insertAll_entries_insertAll (map : OrderedMap) (pairs : List (Bytes × Bytes)) :
    (empty.insertAll map.entries).insertAll pairs = map.insertAll pairs := by
  rw [empty_insertAll_entries]

private theorem mem_keys_iff : key ∈ map.entries.map Prod.fst ↔ map.find? key ≠ none := by
  rw [Ne, find?_eq_none_iff, Classical.not_not]

/-- As many entries as different keys have been written. -/
theorem count_empty_insertAll (pairs : List (Bytes × Bytes)) :
    (empty.insertAll pairs).count = (pairs.map Prod.fst).toFinset.card := by
  have counted : (empty.insertAll pairs).count =
      ((empty.insertAll pairs).entries.map Prod.fst).toFinset.card := by
    rw [List.toFinset_card_of_nodup (nodup_keys _), List.length_map, count]
  rw [counted]
  congr 1
  ext key
  rw [List.mem_toFinset, List.mem_toFinset, mem_keys_iff, find?_insertAll, find?_empty,
    Option.or_none, Ne, lastValue_eq_none_iff, Classical.not_not]

theorem count_empty_insertAll_le (pairs : List (Bytes × Bytes)) :
    (empty.insertAll pairs).count ≤ pairs.length := by
  rw [count_empty_insertAll]
  exact (List.toFinset_card_le _).trans (by simp)

theorem mem_of_mem_insertAll {entry : Bytes × Bytes} {pairs : List (Bytes × Bytes)}
    (member : entry ∈ (empty.insertAll pairs).entries) : entry ∈ pairs := by
  obtain ⟨key, value⟩ := entry
  have found := find?_eq_some_iff.mpr member
  rw [find?_insertAll, find?_empty, Option.or_none] at found
  exact mem_of_lastValue found

end OrderedMap

end RowStore
