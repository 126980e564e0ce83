import RowStore.Dictionary

namespace RowStore

variable {Key Value : Type} [DecidableEq Key]

theorem find?_pair_eq_some_iff {pairs : List (Key × Value)} {key : Key} {value : Value}
    (distinct : (pairs.map Prod.fst).Nodup) :
    (pairs.find? (·.1 = key)).map Prod.snd = some value ↔ (key, value) ∈ pairs := by
  induction pairs with
  | nil => simp
  | cons entry rest ih =>
      obtain ⟨other, previous⟩ := entry
      obtain ⟨absent, restDistinct⟩ := List.nodup_cons.mp distinct
      by_cases same : other = key
      · subst same
        have notLater : (other, value) ∉ rest := fun member =>
          absent (List.mem_map.mpr ⟨_, member, rfl⟩)
        simp [notLater, eq_comm]
      · simpa [same, Ne.symm same] using ih restDistinct

namespace Dictionary

variable {dictionary : Dictionary Key Value} {key : Key} {value : Value}

theorem find?_eq_some_iff : dictionary.find? key = some value ↔ (key, value) ∈ dictionary.pairs :=
  find?_pair_eq_some_iff dictionary.distinct

theorem mem_keys_of_find? (found : dictionary.find? key = some value) : key ∈ dictionary.keys :=
  List.mem_map.mpr ⟨_, find?_eq_some_iff.mp found, rfl⟩

theorem update_unchanged {change : Value → Value} (found : dictionary.find? key = some value)
    (same : change value = value) : dictionary.update key change = dictionary := by
  have pairs : (dictionary.pairs.map fun pair => if pair.1 = key then (key, value) else pair) =
      dictionary.pairs := by
    conv => rhs; rw [← List.map_id dictionary.pairs]
    apply List.map_congr_left
    rintro ⟨other, stored⟩ member
    split
    · rename_i equal
      change other = key at equal
      subst equal
      have storedFound := find?_eq_some_iff.mpr member
      rw [found] at storedFound
      cases storedFound
      rfl
    · rfl
  obtain ⟨list, distinct⟩ := dictionary
  simp only [update, found, same, set, mem_keys_of_find? found, dif_pos]
  simpa using pairs

theorem size_set_of_none (absent : dictionary.find? key = none) (value : Value) :
    (dictionary.set key value).size = dictionary.size + 1 := by
  have missing : key ∉ dictionary.keys := find?_eq_none_iff.mp absent
  simp [set, missing, size]

theorem size_erase_of_some (found : dictionary.find? key = some value) :
    (dictionary.erase key).size + 1 = dictionary.size := by
  obtain ⟨pairs, distinct⟩ := dictionary
  have member : key ∈ pairs.map Prod.fst := mem_keys_of_find? found
  change (pairs.filter (·.1 ≠ key)).length + 1 = pairs.length
  clear found
  induction pairs with
  | nil => cases member
  | cons entry rest ih =>
      obtain ⟨absent, restDistinct⟩ := List.nodup_cons.mp distinct
      by_cases same : entry.1 = key
      · have kept : rest.filter (·.1 ≠ key) = rest := by
          apply List.filter_eq_self.mpr
          intro other otherMember
          have different : other.1 ≠ key := by
            rintro rfl
            exact absent (same ▸ List.mem_map_of_mem otherMember)
          simpa using different
        rw [List.filter_cons_of_neg (by simpa using same), kept, List.length_cons]
      · have later : key ∈ rest.map Prod.fst :=
          (List.mem_cons.mp member).resolve_left (Ne.symm same)
        rw [List.filter_cons_of_pos (by simpa using same), List.length_cons, List.length_cons,
          ih restDistinct later]

theorem find?_of_size_eq_zero (empty : dictionary.size = 0) (key : Key) :
    dictionary.find? key = none := by
  simp [find?, List.length_eq_zero_iff.mp empty]

theorem size_pos_of_some (found : dictionary.find? key = some value) : 0 < dictionary.size :=
  List.length_pos_of_mem (find?_eq_some_iff.mp found)

end Dictionary

end RowStore
