import RowStore.Proofs.CommandLine.Runs
import RowStore.Proofs.Connection.Reads
import RowStore.Proofs.FileSystem.Path

namespace RowStore.CommandLine

open FileSystem Records

/-- What a field given on the command line counts for in its row: its text without the sign between
name and value, and two lengths. -/
def pairSize (pair : String) : Nat :=
  (Utf8.encode pair).length + 7

theorem fieldOf_of_mem {pair : String} (assigns : '=' ∈ pair.toList) :
    ∃ field, fieldOf pair = .ok field ∧ showField field = pair ∧
      field.encodedSize = pairSize pair := by
  obtain ⟨name, value, split, whole⟩ := Text.splitAtFirst?_of_mem assigns
  refine ⟨{ name := Utf8.encode (String.ofList name), value := Utf8.encode (String.ofList value) },
    by simp only [fieldOf, split], ?_, ?_⟩
  · rw [showField, Utf8.decodeLossy_encode, Utf8.decodeLossy_encode]
    apply String.toList_injective
    rw [whole]
    simp
  · have sign : (String.utf8EncodeChar '=').length = 1 := by decide
    simp only [Field.encodedSize, lengthWidth, pairSize, Utf8.encode, whole, String.toList_ofList,
      List.flatMap_append, List.flatMap_cons, List.length_append, sign]
    omega

theorem mapM_fieldOf {pairs : List String} (assign : ∀ pair ∈ pairs, '=' ∈ pair.toList) :
    ∃ row : Row, pairs.mapM fieldOf = .ok row ∧ row.map showField = pairs ∧
      row.encodedSize = total pairSize pairs := by
  induction pairs with
  | nil => exact ⟨[], rfl, rfl, rfl⟩
  | cons pair rest ih =>
      obtain ⟨field, isField, shown, size⟩ := fieldOf_of_mem (assign pair List.mem_cons_self)
      obtain ⟨row, isRow, rowShown, rowSize⟩ :=
        ih fun other member => assign other (List.mem_cons_of_mem pair member)
      refine ⟨field :: row, ?_, ?_, ?_⟩
      · rw [List.mapM_cons, isField, isRow]
        rfl
      · rw [List.map_cons, shown, rowShown]
      · rw [Row.encodedSize_cons, size, rowSize, total_cons]

/-- A run and the time of its write. -/
structure Visit where
  invocation : Invocation
  timestamp : UInt64

def visitAll (files : FileSystem) (visits : List Visit) : FileSystem :=
  visits.foldl (fun files visit => (run visit.invocation files visit.timestamp).2) files

theorem visitAll_concat (files : FileSystem) (visits : List Visit) (visit : Visit) :
    visitAll files (visits ++ [visit]) =
      (run visit.invocation (visitAll files visits) visit.timestamp).2 := by
  rw [visitAll, List.foldl_append]
  rfl

variable {path key : String} {home : Location} {files : FileSystem} {writes : List Write}
  {visits : List Visit} {row : Row}

/-- Runs that concern the store at a path, each with the files that it finds, and do not store a row
under the key. -/
structure Spare (path key : String) (files : FileSystem) (visits : List Visit) : Prop where
  concern : ∀ before visit, before ++ [visit] <+: visits →
    visit.invocation.Concerns path (visitAll files before)
  others : ∀ visit ∈ visits, visit.invocation.command.stored?.map Prod.fst ≠ some key

theorem Spare.of_prefix {before : List Visit} (spare : Spare path key files visits)
    (within : before <+: visits) : Spare path key files before where
  concern earlier visit begins := spare.concern earlier visit (begins.trans within)
  others visit member := spare.others visit (within.subset member)

theorem lastValue_added {added : List Write} {pair? : Option (String × Row)}
    (isAdded : (added.map Write.pair).Sublist (pair?.toList.map stored))
    (other : pair?.map Prod.fst ≠ some key) :
    lastValue (added.map Write.pair) (Utf8.encode key) = none := by
  rw [lastValue_eq_none_iff]
  intro member
  obtain ⟨pair, isPair, sameKey⟩ := List.mem_map.mp member
  obtain ⟨⟨storedKey, row⟩, isStored, rfl⟩ := List.mem_map.mp (isAdded.subset isPair)
  obtain rfl := Utf8.encode_injective sameKey
  exact other (by rw [Option.mem_toList.mp isStored, Option.map_some])

theorem resting_visitAll (resting : Resting path home files writes)
    (spare : Spare path key files visits) (few : writes.length + visits.length < wordMax) :
    ∃ added, Resting path home (visitAll files visits) (writes ++ added) ∧
      added.length ≤ visits.length ∧
      lastValue (added.map Write.pair) (Utf8.encode key) = none := by
  induction visits using List.reverseRecOn with
  | nil => exact ⟨[], by rwa [List.append_nil], Nat.le_refl _, rfl⟩
  | append_singleton earlier visit ih =>
      rw [List.length_append, List.length_singleton] at few
      obtain ⟨before, rests, fewer, kept⟩ :=
        ih (spare.of_prefix (List.prefix_append _ _)) (by omega)
      obtain ⟨added, restsAfter, isAdded⟩ :=
        run_resting rests (spare.concern earlier visit List.prefix_rfl) visit.timestamp
          (by rw [List.length_append]; omega)
      refine ⟨before ++ added, ?_, ?_, ?_⟩
      · rw [visitAll_concat, ← List.append_assoc]
        exact restsAfter
      · have single := isAdded.length_le
        have atMost : visit.invocation.command.stored?.toList.length ≤ 1 := by
          cases visit.invocation.command.stored? <;> simp
        simp only [List.length_map] at single
        simp only [List.length_append, List.length_singleton]
        omega
      · rw [List.map_append, lastValue_append, kept,
          lastValue_added isAdded (spare.others visit (by simp)), Option.or_none]

theorem stored?_of_assignments {command : Command} {pairs : List String}
    (inserts : command = .insert key pairs ∨ command = .update key pairs)
    (assign : ∀ pair ∈ pairs, '=' ∈ pair.toList)
    (short : 32 + ((Utf8.encode key).length + total pairSize pairs) < Bytes.fieldRange 4) :
    ∃ row, command.stored? = some (key, row) ∧ row.map showField = pairs ∧ row.Fits := by
  obtain ⟨row, isRow, shown, size⟩ := mapM_fieldOf assign
  have storable : Storable key row := by
    rw [Storable, size]
    exact short
  refine ⟨row, ?_, shown, storable.fits⟩
  rcases inserts with rfl | rfl
  · simp only [Command.stored?, Command.request, isRow]
    exact if_pos storable
  · simp only [Command.stored?, Command.request, isRow]
    exact if_pos storable

/-- A row that one run stores is shown by a later run just as its fields were given, if no run in
between stores another one under its key. -/
theorem read_after_insert {pairs : List String} {insertion reading : Invocation}
    {insertedAt readAt : UInt64} {expected : Nat} (resting : Resting path home files writes)
    (few : writes.length + visits.length + 2 < wordMax)
    (inserts : insertion.command = .insert key pairs ∨ insertion.command = .update key pairs)
    (assign : ∀ pair ∈ pairs, '=' ∈ pair.toList)
    (short : 32 + ((Utf8.encode key).length + total pairSize pairs) < Bytes.fieldRange 4)
    (insertOpens : insertion.Opens files path expected)
    (spare : Spare path key (run insertion files insertedAt).2 visits)
    (reads : reading.command = .read key none)
    (readOpens : reading.Opens (visitAll (run insertion files insertedAt).2 visits) path
      pairs.length) :
    (run insertion files insertedAt).1.output = "Ok\n" ∧
      (run reading (visitAll (run insertion files insertedAt).2 visits) readAt).1.output =
        "Ok\n" ++ (key ++ ": " ++ " ".intercalate pairs ++ "\n") := by
  obtain ⟨row, stores, shown, fits⟩ := stored?_of_assignments inserts assign short
  obtain ⟨first, host, inserted, alone, _, printed, rests, isInserted⟩ :=
    run_of_opens resting insertOpens insertedAt (by omega)
  have one : inserted.length = 1 := by
    simpa [stores] using congrArg List.length isInserted
  obtain ⟨added, restsAfter, fewer, kept⟩ :=
    resting_visitAll rests spare (by rw [List.length_append]; omega)
  obtain ⟨second, secondHost, _, secondAlone, many, secondPrinted, _⟩ :=
    run_of_opens restsAfter readOpens readAt (by simp only [List.length_append]; omega)
  constructor
  · obtain ⟨_, _, _, succeeds⟩ := execute_alone alone insertion.command insertedAt (by omega)
    rw [printed, succeeds (by rw [stores]; rfl)]
  · have last : lastValue ((writes ++ inserted ++ added).map Write.pair) (Utf8.encode key) =
        some row.bytes := by
      rw [List.map_append, lastValue_append, kept, List.map_append, lastValue_append, isInserted,
        stores, Option.toList_some, List.map_singleton, stored, lastValue_singleton, if_pos rfl]
      rfl
    have length : row.length = second.fieldCount := by
      rw [many, ← shown, List.length_map]
    rw [secondPrinted, reads, execute_read secondAlone fits length last, showRow, shown]

def onDb (overrides : List String) (command : Command) : Invocation where
  properties := none
  overrides := "btree.dbname=db" :: overrides
  database := "btreedb"
  command

/-- A row with two signs in one field and nothing but the sign in the other. -/
def storing : Invocation :=
  onDb [] (.insert "k" ["a=1=2", "="])

def sparing : List Visit :=
  [⟨onDb ["btree.pool_size=4096", "btree.wal_sync=7"] (.update "x" ["b=3"]), 1⟩,
    ⟨onDb [] (.delete "k"), 2⟩]

theorem spare_sparing (files : FileSystem) : Spare "db" "k" files sparing where
  concern before visit within := by
    have member : visit ∈ sparing := within.subset (by simp)
    simp only [sparing, List.mem_cons, List.not_mem_nil, or_false] at member
    rcases member with rfl | rfl
    · exact Invocation.Opens.concerns ⟨⟨_, _, _, _, rfl, rfl, rfl, rfl, rfl, rfl⟩, rfl⟩
    · exact Invocation.Opens.concerns ⟨⟨_, _, _, _, rfl, rfl, rfl, rfl, rfl, rfl⟩, rfl⟩
  others visit member := by
    simp only [sparing, List.mem_cons, List.not_mem_nil, or_false] at member
    rcases member with rfl | rfl <;> decide

theorem read_after_insert_signs :
    Resting "db" ["db"] empty [] ∧
      (run storing empty 0).1.output = "Ok\n" ∧
      (run (onDb ["fieldcount=2"] (.read "k" none))
        (visitAll (run storing empty 0).2 sparing) 3).1.output = "Ok\nk: a=1=2 =\n" := by
  have resting := resting_of_vacant Clients.makeDirectories_db Clients.dbDirectory_emptyDirectory
  have stores : storing.Opens empty "db" 10 := ⟨⟨_, _, _, _, rfl, rfl, rfl, rfl, rfl, rfl⟩, rfl⟩
  have shows : ∀ files, (onDb ["fieldcount=2"] (.read "k" none)).Opens files "db" 2 :=
    fun _ => ⟨⟨_, _, _, _, rfl, rfl, rfl, rfl, rfl, rfl⟩, rfl⟩
  obtain ⟨inserted, shown⟩ := read_after_insert resting (by decide) (Or.inl rfl) (by decide)
    (by decide) stores (spare_sparing _) rfl (shows _)
  exact ⟨resting, inserted, shown⟩

end RowStore.CommandLine
