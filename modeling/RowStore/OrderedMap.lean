import RowStore.Bytes
import RowStore.Sizes

namespace RowStore

theorem Bytes.lt_or_eq_of_not_lt {left right : Bytes} (notBefore : ¬ left < right)
    (different : left ≠ right) : right < left := by
  have reached : right ≤ left := List.not_lt.mp notBefore
  rcases List.le_iff_lt_or_eq.mp reached with before | same
  · exact before
  · exact absurd same.symm different

/-- Keys in strictly ascending order, so that no key occurs twice. -/
def Ascending (entries : List (Bytes × Bytes)) : Prop :=
  entries.Pairwise fun earlier later => earlier.1 < later.1

instance (entries : List (Bytes × Bytes)) : Decidable (Ascending entries) :=
  inferInstanceAs (Decidable (entries.Pairwise _))

/-- Entries with the value of `key` replaced or, when the key is new, put in its place. -/
def insertEntry (key value : Bytes) : List (Bytes × Bytes) → List (Bytes × Bytes)
  | [] => [(key, value)]
  | (other, previous) :: rest =>
    if key = other then (key, value) :: rest
    else if key < other then (key, value) :: (other, previous) :: rest
    else (other, previous) :: insertEntry key value rest

theorem mem_insertEntry {key value : Bytes} {entries : List (Bytes × Bytes)}
    {entry : Bytes × Bytes} (member : entry ∈ insertEntry key value entries) :
    entry = (key, value) ∨ entry ∈ entries := by
  induction entries with
  | nil => simpa [insertEntry] using member
  | cons head rest ih =>
    obtain ⟨other, previous⟩ := head
    simp only [insertEntry] at member
    split at member
    · rcases List.mem_cons.mp member with same | later
      · exact Or.inl same
      · exact Or.inr (List.mem_cons_of_mem _ later)
    · split at member
      · rcases List.mem_cons.mp member with same | later
        · exact Or.inl same
        · exact Or.inr later
      · rcases List.mem_cons.mp member with same | later
        · exact Or.inr (same ▸ List.mem_cons_self)
        · exact (ih later).imp_right (List.mem_cons_of_mem _)

theorem ascending_insertEntry (key value : Bytes) {entries : List (Bytes × Bytes)}
    (ascending : Ascending entries) : Ascending (insertEntry key value entries) := by
  induction entries with
  | nil => simp [Ascending, insertEntry]
  | cons head rest ih =>
    obtain ⟨other, previous⟩ := head
    obtain ⟨headFirst, restAscending⟩ := List.pairwise_cons.mp ascending
    simp only [insertEntry]
    split
    · rename_i same
      subst same
      exact List.pairwise_cons.mpr ⟨headFirst, restAscending⟩
    · rename_i different
      split
      · rename_i before
        refine List.pairwise_cons.mpr ⟨fun entry member => ?_, ascending⟩
        rcases List.mem_cons.mp member with same | later
        · exact same ▸ before
        · exact List.lt_trans before (headFirst entry later)
      · rename_i notBefore
        refine List.pairwise_cons.mpr ⟨fun entry member => ?_, ih restAscending⟩
        rcases mem_insertEntry member with same | old
        · subst same
          exact Bytes.lt_or_eq_of_not_lt notBefore different
        · exact headFirst entry old

/-- A map from keys to values, as the ascending list of its entries. -/
structure OrderedMap where
  entries : List (Bytes × Bytes)
  ascending : Ascending entries

namespace OrderedMap

def empty : OrderedMap := ⟨[], List.Pairwise.nil⟩

instance : Inhabited OrderedMap := ⟨empty⟩

def count (map : OrderedMap) : Nat :=
  map.entries.length

def find? (map : OrderedMap) (key : Bytes) : Option Bytes :=
  (map.entries.find? (·.1 = key)).map Prod.snd

def insert (map : OrderedMap) (key value : Bytes) : OrderedMap where
  entries := insertEntry key value map.entries
  ascending := ascending_insertEntry key value map.ascending

/-- The map after writing the given pairs in turn. -/
def insertAll (map : OrderedMap) (pairs : List (Bytes × Bytes)) : OrderedMap :=
  pairs.foldl (fun map pair => map.insert pair.1 pair.2) map

/-- Where a search for the next entry begins: at a key, or after it. -/
inductive Bound
  | atLeast (key : Bytes)
  | after (key : Bytes)
  deriving DecidableEq

def Bound.admits : Bound → Bytes → Bool
  | atLeast lower, key => !decide (key < lower)
  | after lower, key => decide (lower < key)

/-- The first entry within the bound. -/
def next? (map : OrderedMap) (bound : Bound) : Option (Bytes × Bytes) :=
  map.entries.find? fun entry => bound.admits entry.1

/-- The entries with keys from `start` on. -/
def entriesFrom (map : OrderedMap) (start : Bytes) : List (Bytes × Bytes) :=
  map.entries.dropWhile fun entry => decide (entry.1 < start)

/-- The bytes of all keys and values together. -/
def byteCount (map : OrderedMap) : Nat :=
  total (fun entry => entry.1.length + entry.2.length) map.entries

end OrderedMap

end RowStore
