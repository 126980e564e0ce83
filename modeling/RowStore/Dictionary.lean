namespace RowStore

/-- A finite map. Setting a key that is present changes its value and not its place. -/
structure Dictionary (Key Value : Type) where
  pairs : List (Key × Value)
  distinct : (pairs.map Prod.fst).Nodup

namespace Dictionary

variable {Key Value : Type}

def empty : Dictionary Key Value := ⟨[], List.nodup_nil⟩

instance : Inhabited (Dictionary Key Value) := ⟨empty⟩

def keys (dictionary : Dictionary Key Value) : List Key :=
  dictionary.pairs.map Prod.fst

def size (dictionary : Dictionary Key Value) : Nat :=
  dictionary.pairs.length

variable [DecidableEq Key]

def find? (dictionary : Dictionary Key Value) (key : Key) : Option Value :=
  (dictionary.pairs.find? (·.1 = key)).map Prod.snd

def contains (dictionary : Dictionary Key Value) (key : Key) : Bool :=
  (dictionary.find? key).isSome

private theorem keys_replace (pairs : List (Key × Value)) (key : Key) (value : Value) :
    (pairs.map fun pair => if pair.1 = key then (key, value) else pair).map Prod.fst =
      pairs.map Prod.fst := by
  induction pairs with
  | nil => rfl
  | cons pair rest ih =>
    simp only [List.map_cons, ih, List.cons.injEq, and_true]
    split
    · rename_i same
      exact same.symm
    · rfl

def set (dictionary : Dictionary Key Value) (key : Key) (value : Value) :
    Dictionary Key Value :=
  if member : key ∈ dictionary.keys then
    { pairs := dictionary.pairs.map fun pair => if pair.1 = key then (key, value) else pair
      distinct := by rw [keys_replace]; exact dictionary.distinct }
  else
    { pairs := dictionary.pairs ++ [(key, value)]
      distinct := by
        rw [List.map_append, List.nodup_append]
        refine ⟨dictionary.distinct, by simp, ?_⟩
        intro left leftMember right rightMember same
        simp only [List.map_cons, List.map_nil, List.mem_singleton] at rightMember
        subst rightMember same
        exact member leftMember }

def erase (dictionary : Dictionary Key Value) (key : Key) : Dictionary Key Value where
  pairs := dictionary.pairs.filter (·.1 ≠ key)
  distinct := dictionary.distinct.sublist (List.filter_sublist.map Prod.fst)

def update (dictionary : Dictionary Key Value) (key : Key) (change : Value → Value) :
    Dictionary Key Value :=
  match dictionary.find? key with
  | some value => dictionary.set key (change value)
  | none => dictionary

@[simp] theorem find?_empty (key : Key) : (empty : Dictionary Key Value).find? key = none := rfl

theorem find?_eq_none_iff {dictionary : Dictionary Key Value} {key : Key} :
    dictionary.find? key = none ↔ key ∉ dictionary.keys := by
  simp only [find?, Option.map_eq_none_iff, List.find?_eq_none, decide_eq_true_eq, keys,
    List.mem_map, not_exists, not_and]

private theorem find?_replace (pairs : List (Key × Value)) (key sought : Key) (value : Value)
    (member : key ∈ pairs.map Prod.fst) :
    ((pairs.map fun pair => if pair.1 = key then (key, value) else pair).find?
      (·.1 = sought)).map Prod.snd =
      if sought = key then some value else (pairs.find? (·.1 = sought)).map Prod.snd := by
  induction pairs with
  | nil => simp at member
  | cons pair rest ih =>
    obtain ⟨first, second⟩ := pair
    simp only [List.map_cons, List.mem_cons] at member
    by_cases same : first = key
    · subst same
      by_cases wanted : sought = first
      · subst wanted; simp
      · have other : ¬ first = sought := fun equal => wanted equal.symm
        by_cases later : first ∈ rest.map Prod.fst
        · simpa [other, wanted] using ih later
        · have unchanged : (rest.map fun pair => if pair.1 = first then (first, value) else pair) =
              rest := by
            conv => rhs; rw [← List.map_id rest]
            apply List.map_congr_left
            intro entry entryMember
            have different : entry.1 ≠ first := by
              intro equal
              exact later (equal ▸ List.mem_map_of_mem entryMember)
            simp [different]
          simp [other, wanted, unchanged]
    · have later : key ∈ rest.map Prod.fst := by
        rcases member with equal | later
        · exact absurd equal.symm same
        · exact later
      by_cases wanted : first = sought
      · subst wanted; simp [same]
      · simpa [same, wanted] using ih later

theorem find?_set (dictionary : Dictionary Key Value) (key sought : Key) (value : Value) :
    (dictionary.set key value).find? sought =
      if sought = key then some value else dictionary.find? sought := by
  unfold set
  split
  · rename_i member
    exact find?_replace dictionary.pairs key sought value member
  · rename_i absent
    have missing : dictionary.find? key = none := find?_eq_none_iff.mpr absent
    simp only [find?, List.find?_append] at missing ⊢
    by_cases wanted : sought = key
    · subst wanted
      simp only [Option.map_eq_none_iff] at missing
      simp [missing]
    · have other : ¬ key = sought := fun equal => wanted equal.symm
      simp [wanted, other]

@[simp] theorem find?_set_self (dictionary : Dictionary Key Value) (key : Key) (value : Value) :
    (dictionary.set key value).find? key = some value := by
  simp [find?_set]

theorem find?_erase (dictionary : Dictionary Key Value) (key sought : Key) :
    (dictionary.erase key).find? sought =
      if sought = key then none else dictionary.find? sought := by
  simp only [find?, erase, List.find?_filter]
  by_cases wanted : sought = key
  · subst wanted
    simp
  · have same : (fun pair : Key × Value => !decide (pair.1 = key) && decide (pair.1 = sought)) =
        fun pair => decide (pair.1 = sought) := by
      funext pair
      by_cases equal : pair.1 = sought
      · simp [equal, wanted]
      · simp [equal]
    simp [wanted, same]

theorem find?_update (dictionary : Dictionary Key Value) (key sought : Key)
    (change : Value → Value) :
    (dictionary.update key change).find? sought =
      if sought = key then (dictionary.find? sought).map change else dictionary.find? sought := by
  unfold update
  cases found : dictionary.find? key with
  | none => by_cases wanted : sought = key <;> simp [wanted, found]
  | some value =>
    simp only [find?_set]
    by_cases wanted : sought = key
    · subst wanted; simp [found]
    · simp [wanted]

end Dictionary

end RowStore
