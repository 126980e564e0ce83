import Mathlib.Data.Set.List
import RowStore.Proofs.Connection.Reads

namespace RowStore

open FileSystem Records

/-- Leaving off the entries before one of them is to begin with its key. -/
theorem OrderedMap.entriesFrom_drop {map : OrderedMap} {start : Bytes} {passed : Nat}
    {entry : Bytes × Bytes} (here : (map.entriesFrom start)[passed]? = some entry) :
    map.entriesFrom entry.1 = (map.entriesFrom start).drop passed := by
  let isBefore : Bytes × Bytes → Bool := fun other => decide (other.1 < entry.1)
  have split : map.entries =
      (map.entries.takeWhile (fun other => decide (other.1 < start)) ++
        (map.entriesFrom start).take passed) ++ (map.entriesFrom start).drop passed := by
    rw [List.append_assoc, List.take_append_drop]
    exact List.takeWhile_append_dropWhile.symm
  have ascending := map.ascending
  have first : (map.entriesFrom start).drop passed =
      entry :: (map.entriesFrom start).drop (passed + 1) := by
    obtain ⟨inside, rfl⟩ := List.getElem?_eq_some_iff.mp here
    exact List.drop_eq_getElem_cons inside
  rw [first] at split ⊢
  rw [split] at ascending
  obtain ⟨_, _, apart⟩ := List.pairwise_append.mp ascending
  have before : ∀ other ∈ _, isBefore other = true := fun other member =>
    decide_eq_true (apart other member entry List.mem_cons_self)
  have notBefore : isBefore entry = false := decide_eq_false (Bytes.lt_irrefl _)
  rw [entriesFrom, split, List.dropWhile_append_of_pos before, List.dropWhile_cons_of_neg]
  simp [notBefore]

namespace Table

/-- Every key of the table is that of a text. -/
def KeyedByTexts (table : Table) : Prop :=
  ∀ key value, table.find? key = some value → ∃ text : String, Utf8.encode text = key

/-- The texts that are keys of the table, from one on and in the order of their bytes. -/
structure KeysFrom (table : Table) (start : String) (keys : List String) : Prop where
  ascending : keys.Pairwise fun earlier later => Utf8.encode earlier < Utf8.encode later
  mem_iff : ∀ key, key ∈ keys ↔
    ¬ Utf8.encode key < Utf8.encode start ∧ table.find? (Utf8.encode key) ≠ none

variable {table : Table} {start : String} {keys : List String}

theorem find?_of_mem_entriesFrom {start : Bytes} {entry : Bytes × Bytes}
    (member : entry ∈ table.entriesFrom start) : table.find? entry.1 = some entry.2 :=
  OrderedMap.find?_eq_some_iff.mpr (OrderedMap.mem_entriesFrom_iff.mp member).2

theorem exists_keys (texts : table.KeyedByTexts) (start : Bytes) :
    ∃ keys : List String, keys.map Utf8.encode = (table.entriesFrom start).map Prod.fst := by
  have encoded : (table.entriesFrom start).map Prod.fst ∈ Set.range (List.map Utf8.encode) := by
    rw [Set.range_list_map]
    intro key member
    obtain ⟨entry, isEntry, rfl⟩ := List.mem_map.mp member
    exact texts entry.1 entry.2 (find?_of_mem_entriesFrom isEntry)
  exact encoded

theorem keysFrom (named : keys.map Utf8.encode =
    (table.entriesFrom (Utf8.encode start)).map Prod.fst) : table.KeysFrom start keys where
  ascending := by
    have ascending := OrderedMap.ascending_entriesFrom table.contents.map (Utf8.encode start)
    rw [Ascending, ← List.pairwise_map (f := Prod.fst) (R := (· < ·))] at ascending
    rw [← List.pairwise_map (f := Utf8.encode) (R := (· < ·)), named]
    exact ascending
  mem_iff key := by
    rw [← List.mem_map_of_injective fun _ _ same => Utf8.encode_injective same, named, List.mem_map]
    constructor
    · rintro ⟨entry, member, same⟩
      rw [← same, find?_of_mem_entriesFrom member]
      exact ⟨(OrderedMap.mem_entriesFrom_iff.mp member).1, Option.some_ne_none _⟩
    · rintro ⟨notBefore, present⟩
      obtain ⟨value, found⟩ := Option.ne_none_iff_exists'.mp present
      exact ⟨(Utf8.encode key, value), OrderedMap.mem_entriesFrom_iff.mpr
        ⟨notBefore, OrderedMap.find?_eq_some_iff.mp found⟩, rfl⟩

theorem KeysFrom.unique {others : List String} (keysFrom : table.KeysFrom start keys)
    (otherwise : table.KeysFrom start others) : keys = others := by
  have distinct : ∀ {keys}, table.KeysFrom start keys → keys.Nodup := fun keysFrom =>
    keysFrom.ascending.imp fun {earlier later} before same => by
      subst same
      exact Bytes.lt_irrefl _ before
  have permutation : keys.Perm others :=
    (List.perm_ext_iff_of_nodup (distinct keysFrom) (distinct otherwise)).mpr fun key =>
      (keysFrom.mem_iff key).trans (otherwise.mem_iff key).symm
  exact permutation.eq_of_pairwise
    (fun earlier later _ _ before after =>
      absurd (List.lt_trans before after) (Bytes.lt_irrefl _))
    keysFrom.ascending otherwise.ascending

end Table

namespace Records

variable {fieldCount : Nat} {fields : Option (List Bytes)} {contents : Contents} {cursor : Cursor}
  {table : Table} {keys : List String} {entries : List (Bytes × Bytes)}

theorem collect_eq (yields : Cursor.Yields contents cursor entries) (wanted : Nat) :
    collect fieldCount fields contents wanted cursor =
      (entries.take wanted).mapM fun entry => decode fieldCount fields entry.2 := by
  induction yields generalizing wanted with
  | @done cursor nothing =>
      cases wanted with
      | zero => rfl
      | succ wanted =>
          rw [collect, List.take_nil]
          split
          · rfl
          · rename_i step
            rw [step] at nothing
            cases nothing
  | @more cursor entry rest found later ih =>
      cases wanted with
      | zero => rfl
      | succ wanted =>
          rw [collect, List.take_succ_cons, List.mapM_cons]
          split
          · rename_i step
            rw [step] at found
            cases found
          · rename_i step
            rw [step] at found ih
            cases found
            rw [← ih]

theorem scan_eq (fieldCount : Nat) (table : Table) (start : String) (count : Nat)
    (fields : Option (List Bytes)) :
    scan fieldCount table start count fields =
      ((table.entriesFrom (Utf8.encode start)).take count).mapM
        fun entry => decode fieldCount fields entry.2 :=
  collect_eq (Cursor.yields_entriesFrom table.contents (Utf8.encode start)) count

/-- What reading keys one after the other comes to: their rows or, when one of them cannot be read,
what is wrong with the first such key. -/
inductive InTurn (read : String → Except Fault (Option Row)) :
    List String → Except Fault (List Row) → Prop
  | done : InTurn read [] (.ok [])
  | more {key : String} {row : Row} {rest : List String} {outcome : Except Fault (List Row)}
      (found : read key = .ok (some row)) (later : InTurn read rest outcome) :
      InTurn read (key :: rest) (outcome.map (row :: ·))
  | refused {key : String} {rest : List String} {fault : Fault}
      (refused : read key = .error fault) : InTurn read (key :: rest) (.error fault)

theorem InTurn.unique {read : String → Except Fault (Option Row)}
    {outcome other : Except Fault (List Row)} (inTurn : InTurn read keys outcome)
    (otherwise : InTurn read keys other) : outcome = other := by
  induction inTurn generalizing other with
  | done =>
      cases otherwise
      rfl
  | more found _ ih =>
      cases otherwise with
      | more sameFound later =>
          cases found.symm.trans sameFound
          rw [ih later]
      | refused refused => cases found.symm.trans refused
  | refused refused =>
      cases otherwise with
      | more found _ => cases refused.symm.trans found
      | refused sameRefused =>
          cases refused.symm.trans sameRefused
          rfl

theorem latest_ne_none_iff {rows : List (String × Row)} {key : String} :
    latest rows key ≠ none ↔ key ∈ rows.map Prod.fst := by
  simp [latest]

theorem read_entries (inside : ∀ entry ∈ entries, table.find? entry.1 = some entry.2)
    (named : keys.map Utf8.encode = entries.map Prod.fst) :
    List.Forall₂ (fun key entry => read fieldCount table key fields =
      (decode fieldCount fields entry.2).map some) keys entries := by
  induction entries generalizing keys with
  | nil =>
      cases List.map_eq_nil_iff.mp named
      exact .nil
  | cons entry rest ih =>
      obtain ⟨key, others, rfl, same, later⟩ := List.map_eq_cons_iff.mp named
      refine .cons ?_ (ih (fun other member => inside other (List.mem_cons_of_mem _ member)) later)
      simp only [read, same, inside entry List.mem_cons_self]

theorem inTurn_mapM {read : String → Except Fault (Option Row)}
    {row : Bytes × Bytes → Except Fault Row}
    (reads : List.Forall₂ (fun key entry => read key = (row entry).map some) keys entries) :
    InTurn read keys (entries.mapM row) := by
  induction reads with
  | nil => exact .done
  | @cons key entry _ rest reads _ ih =>
      rw [List.mapM_cons]
      cases decoded : row entry with
      | error fault =>
          rw [decoded] at reads
          exact .refused reads
      | ok found =>
          rw [decoded] at reads
          have more := InTurn.more reads ih
          cases later : rest.mapM row <;> rwa [later] at more

end Records

namespace Clients

variable {path : String} {home : Location} {files : FileSystem} {events : List ClientEvent}
  {client : Nat} {connection : Connection}

/-- Whatever clients have come and gone, the table that a client is on has texts for keys, those
under which rows have been stored. -/
theorem run_keyedByTexts (history : IsHistory path home files events)
    (found : (run files events).connections.find? client = some connection) :
    ∃ table, (run files events).host.engine? connection.engine = some table ∧
      table.KeyedByTexts ∧ ∀ key, table.find? (Utf8.encode key) =
        (latest (ClientOutline.ofEvents events).rows key).map Row.bytes := by
  obtain ⟨life, inStep⟩ := run_inStep history
  obtain ⟨table, isOpen, _, serves, _⟩ := inStep.inUse found
  have holds := inStep.find?_eq isOpen
  refine ⟨table, serves.engine?, fun key value present => ?_, fun key => ?_⟩
  · rw [holds] at present
    obtain ⟨pair, _, same⟩ := List.mem_map.mp (mem_of_lastValue present)
    exact ⟨pair.1, congrArg Prod.fst same⟩
  · rw [holds, lastValue_stored]

end Clients

namespace Connection

variable {connection : Connection} {host : TableHost} {table : Table} {start : String}
  {keys : List String} {fields : Option (List Bytes)}

/-- The scans from a key on go with the reads of the keys from it on, and each goes on where a
shorter one has ended. -/
structure ScansInTurn (connection : Connection) (host : TableHost)
    (fields : Option (List Bytes)) (start : String) (keys : List String) : Prop where
  inTurn : ∃ read, (∀ key timestamp, connection.answer host (.read key fields) timestamp =
      (some (.record (read key)), host)) ∧
    ∀ count timestamp, ∃ outcome, connection.answer host (.scan start count fields) timestamp =
        (some (.records outcome), host) ∧
      InTurn read (keys.take count) outcome
  ends : ∀ size more timestamp, keys.length ≤ size →
    connection.answer host (.scan start (size + more) fields) timestamp =
      connection.answer host (.scan start size fields) timestamp
  goesOn : ∀ size more next timestamp first second, keys[size]? = some next →
    connection.answer host (.scan start size fields) timestamp =
      (some (.records (.ok first)), host) →
    connection.answer host (.scan next more fields) timestamp =
      (some (.records (.ok second)), host) →
    connection.answer host (.scan start (size + more) fields) timestamp =
      (some (.records (.ok (first ++ second))), host)

theorem scansInTurn (serving : host.engine? connection.engine = some table)
    (named : keys.map Utf8.encode = (table.entriesFrom (Utf8.encode start)).map Prod.fst) :
    connection.ScansInTurn host fields start keys where
  inTurn := by
    refine ⟨_, fun key timestamp => answer_read serving key fields timestamp,
      fun count timestamp => ⟨_, answer_scan serving start count fields timestamp, ?_⟩⟩
    rw [scan_eq]
    refine inTurn_mapM (read_entries (fun entry member => ?_) ?_)
    · exact Table.find?_of_mem_entriesFrom (List.mem_of_mem_take member)
    · rw [List.map_take, named, ← List.map_take]
  ends size more timestamp all := by
    have length := congrArg List.length named
    rw [List.length_map, List.length_map] at length
    rw [answer_scan serving, answer_scan serving, scan_eq, scan_eq, List.take_of_length_le,
      List.take_of_length_le] <;> omega
  goesOn size more next timestamp first second here isFirst isSecond := by
    have located : (table.entriesFrom (Utf8.encode start))[size]?.map Prod.fst =
        some (Utf8.encode next) := by
      rw [← List.getElem?_map, ← named, List.getElem?_map, here, Option.map_some]
    obtain ⟨entry, isEntry, sameKey⟩ := Option.map_eq_some_iff.mp located
    rw [answer_scan serving, scan_eq] at isFirst isSecond
    rw [← sameKey, Table.entriesFrom, OrderedMap.entriesFrom_drop isEntry] at isSecond
    simp only [Prod.mk.injEq, Option.some.injEq, Response.records.injEq, and_true]
      at isFirst isSecond
    rw [answer_scan serving, scan_eq, List.take_add, List.mapM_append, isFirst]
    simp only [bind, Except.bind]
    rw [Table.entriesFrom, isSecond]
    rfl

/-- On a table whose keys are texts, a scan answers what reading the keys from its start on answers
in turn, and nothing behind the last of them makes a difference to it. -/
theorem scan_reads_in_turn (serving : host.engine? connection.engine = some table)
    (texts : table.KeyedByTexts) (start : String) :
    ∃ keys, table.KeysFrom start keys ∧
      (∀ fields, connection.ScansInTurn host fields start keys) ∧
      ∀ (other : TableHost) (changed : Table) count fields timestamp,
        other.engine? connection.engine = some changed →
        (changed.entriesFrom (Utf8.encode start)).take count =
          (table.entriesFrom (Utf8.encode start)).take count →
        (connection.answer other (.scan start count fields) timestamp).1 =
          (connection.answer host (.scan start count fields) timestamp).1 := by
  obtain ⟨keys, named⟩ := Table.exists_keys texts (Utf8.encode start)
  refine ⟨keys, Table.keysFrom named, fun fields => scansInTurn serving named, ?_⟩
  intro other changed count fields timestamp otherServing alike
  rw [answer_scan serving, answer_scan otherServing, scan_eq, scan_eq, alike]

/-- Three rows, the last of which in the order of keys has a field more than is expected. -/
def unevenRows : List ClientEvent :=
  [.establish 1 { path := some "db", poolSize := 4096, fieldCount := 1 },
    .call 1 (.insert "b" [⟨[120], [3]⟩, ⟨[121], []⟩]) 0, .call 1 (.insert "ab" [⟨[120], [2]⟩]) 1,
    .call 1 (.update "a" [⟨[120], [1]⟩]) 2]

theorem unevenRows_isHistory : Clients.IsHistory "db" ["db"] empty unevenRows where
  vacant := ⟨Clients.dbDirectory, Clients.makeDirectories_db, Clients.dbDirectory_emptyDirectory⟩
  valid client settings member := by
    simp only [unevenRows, List.mem_cons, List.not_mem_nil, reduceCtorEq, or_false,
      ClientEvent.establish.injEq] at member
    obtain ⟨-, rfl⟩ := member
    decide
  few := by decide

theorem scan_reads_in_turn_uneven :
    ∃ (connection : Connection) (table : Table) (host : TableHost),
      host = (Clients.run empty unevenRows).host ∧
      host.engine? connection.engine = some table ∧ table.KeyedByTexts ∧
      connection.answer host (.scan "" 2 none) 0 =
        (some (.records (.ok [[⟨[120], [1]⟩], [⟨[120], [2]⟩]])), host) ∧
      connection.answer host (.scan "" 3 none) 0 =
        (some (.records (.error (.fieldCount 1 2))), host) := by
  have history := unevenRows_isHistory
  obtain ⟨life, inStep⟩ := Clients.run_inStep history
  have expected := inStep.expected 1
  have counted : (ClientOutline.ofEvents unevenRows).expected.find? 1 = some 1 := by decide
  rw [counted] at expected
  obtain ⟨connection, found, expectsOne⟩ := Option.map_eq_some_iff.mp expected.symm
  have reads := (inStep.reflects found).read
  rw [expectsOne] at reads
  obtain ⟨table, serving, texts, stored⟩ := Clients.run_keyedByTexts history found
  obtain ⟨keys, isKeys, scans, -⟩ := scan_reads_in_turn serving texts ""
  have three : table.KeysFrom "" ["a", "ab", "b"] := by
    refine ⟨by decide, fun key => ?_⟩
    have rows : (ClientOutline.ofEvents unevenRows).rows.map Prod.fst = ["b", "ab", "a"] := by
      decide
    have notBefore : ¬ Utf8.encode key < Utf8.encode "" := List.not_lt_nil _
    rw [stored, Ne, Option.map_eq_none_iff, ← Ne, latest_ne_none_iff, rows,
      and_iff_right notBefore]
    exact (List.reverse_perm ["b", "ab", "a"]).mem_iff
  obtain rfl := isKeys.unique three
  obtain ⟨read, isRead, turns⟩ := (scans none).inTurn
  have inFullRead : ∀ key, read key =
      inFull 1 (latest (ClientOutline.ofEvents unevenRows).rows key) := by
    intro key
    have same := (isRead key 0).symm.trans (reads key 0)
    simpa only [Prod.mk.injEq, Option.some.injEq, Response.record.injEq, and_true] using same
  have first : read "a" = .ok (some [⟨[120], [1]⟩]) := by rw [inFullRead]; rfl
  have second : read "ab" = .ok (some [⟨[120], [2]⟩]) := by rw [inFullRead]; rfl
  have third : read "b" = .error (.fieldCount 1 2) := by rw [inFullRead]; rfl
  obtain ⟨two, answersTwo, turnsTwo⟩ := turns 2 0
  obtain ⟨all, answersAll, turnsAll⟩ := turns 3 0
  refine ⟨connection, table, _, rfl, serving, texts, ?_, ?_⟩
  · rw [answersTwo, turnsTwo.unique (.more first (.more second .done))]
    rfl
  · rw [answersAll, turnsAll.unique (.more first (.more second (.refused third)))]
    rfl

end Connection

end RowStore
