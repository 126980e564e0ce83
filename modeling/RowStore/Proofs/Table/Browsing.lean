import RowStore.Proofs.Table.Contents
import RowStore.Proofs.Table.Directory
import RowStore.Proofs.Table.Steps

namespace RowStore

namespace OrderedMap

variable {map : OrderedMap} {bound : Bound} {entry : Bytes × Bytes}

theorem next?_eq_some (found : map.next? bound = some entry) :
    map.find? entry.1 = some entry.2 ∧ bound.admits entry.1 = true ∧
      ∀ key, map.find? key ≠ none → bound.admits key = true → ¬ key < entry.1 := by
  obtain ⟨within, passed, rest, split, outside⟩ := List.find?_eq_some_iff_append.mp found
  have ascending := map.ascending
  rw [split] at ascending
  obtain ⟨_, onward, _⟩ := List.pairwise_append.mp ascending
  have member : entry ∈ map.entries := by simp [split]
  refine ⟨find?_eq_some_iff.mpr member, within, fun key present admitted before => ?_⟩
  obtain ⟨value, located⟩ := Option.ne_none_iff_exists'.mp present
  have isEntry := find?_eq_some_iff.mp located
  rw [split] at isEntry
  rcases List.mem_append.mp isEntry with early | late
  · have refused := outside (key, value) early
    simp [admitted] at refused
  · rcases List.mem_cons.mp late with same | later
    · rw [← same] at before
      exact Bytes.lt_irrefl _ before
    · exact Bytes.lt_irrefl _
        (List.lt_trans before ((List.pairwise_cons.mp onward).1 (key, value) later))

theorem next?_eq_none (nothing : map.next? bound = none) {key : Bytes}
    (present : map.find? key ≠ none) : bound.admits key = false := by
  obtain ⟨value, located⟩ := Option.ne_none_iff_exists'.mp present
  have refused := List.find?_eq_none.mp nothing (key, value) (find?_eq_some_iff.mp located)
  simpa using refused

theorem find?_insert_ne_none {key value sought : Bytes} (present : map.find? sought ≠ none) :
    (map.insert key value).find? sought ≠ none := by
  rw [find?_insert]
  split
  · exact Option.some_ne_none _
  · exact present

end OrderedMap

/-- What is done while a cursor is on a table: a step of the cursor, or a write to the table. -/
inductive BrowsingEvent
  | next
  | put (write : Write)
  | checkpoint

/-- A cursor on a table, with the entries that it has yielded. -/
structure Browsing where
  files : FileSystem
  table : Table
  cursor : Cursor
  yielded : List (Bytes × Bytes) := []

namespace Browsing

def start (files : FileSystem) (table : Table) (key : Bytes) : Browsing where
  files
  table
  cursor := Cursor.startingAt key

/-- What the next step of the cursor finds. -/
def found (browsing : Browsing) : Option (Bytes × Bytes) :=
  (browsing.cursor.next browsing.table.contents).1

def advance (browsing : Browsing) : Browsing :=
  { browsing with
    cursor := (browsing.cursor.next browsing.table.contents).2
    yielded := browsing.yielded ++ browsing.found.toList }

def put (browsing : Browsing) (write : Write) : Browsing :=
  match (browsing.table.put write.key write.value write.timestamp).perform browsing.files with
  | (.ok table, files) => { browsing with files, table }
  | (.error _, files) => { browsing with files }

def checkpoint (browsing : Browsing) : Browsing :=
  match browsing.table.checkpoint.perform browsing.files with
  | (.ok (_, table), files) => { browsing with files, table }
  | (.error _, files) => { browsing with files }

def step (browsing : Browsing) : BrowsingEvent → Browsing
  | .next => browsing.advance
  | .put write => browsing.put write
  | .checkpoint => browsing.checkpoint

def run (browsing : Browsing) (events : List BrowsingEvent) : Browsing :=
  events.foldl step browsing

/-- The key is still before a cursor that began at a key and has yielded some entries since: it is
behind the last of them or, if there is none, not before the first key. -/
def Ahead (start : Bytes) (yielded : List (Bytes × Bytes)) (key : Bytes) : Prop :=
  match yielded.getLast? with
  | none => ¬ key < start
  | some last => last.1 < key

variable {browsing : Browsing} {files : FileSystem} {table next : Table} {begin key : Bytes}
  {entry : Bytes × Bytes} {events : List BrowsingEvent} {event : BrowsingEvent}

theorem run_append (browsing : Browsing) (earlier later : List BrowsingEvent) :
    browsing.run (earlier ++ later) = (browsing.run earlier).run later :=
  List.foldl_append

theorem run_concat (browsing : Browsing) (events : List BrowsingEvent) (event : BrowsingEvent) :
    browsing.run (events ++ [event]) = (browsing.run events).step event :=
  run_append browsing events [event]

theorem found_eq (browsing : Browsing) :
    browsing.found = browsing.table.contents.map.next? browsing.cursor.bound := by
  rw [found, Cursor.next]
  cases browsing.table.contents.map.next? browsing.cursor.bound <;> rfl

theorem advance_found (isFound : browsing.found = some entry) :
    browsing.advance.cursor.bound = .after entry.1 ∧
      browsing.advance.yielded = browsing.yielded ++ [entry] := by
  refine ⟨?_, by rw [advance, isFound]; rfl⟩
  rw [found_eq] at isFound
  simp only [advance, Cursor.next, isFound]

theorem advance_nothing (nothing : browsing.found = none) : browsing.advance = browsing := by
  have unmoved : (browsing.cursor.next browsing.table.contents).2 = browsing.cursor := by
    rw [found_eq] at nothing
    simp only [Cursor.next, nothing]
  rw [advance, nothing, unmoved, Option.toList_none, List.append_nil]

theorem step_put_ok {write : Write} {after : FileSystem}
    (putting : (browsing.table.put write.key write.value write.timestamp).perform browsing.files =
      (.ok next, after)) :
    browsing.step (.put write) = { browsing with files := after, table := next } := by
  change browsing.put write = _
  unfold put
  rw [putting]

/-- Only a step of the cursor moves it or yields anything. -/
theorem step_write (isWrite : event ≠ .next) :
    (browsing.step event).cursor = browsing.cursor ∧
      (browsing.step event).yielded = browsing.yielded := by
  cases event with
  | next => exact absurd rfl isWrite
  | put write =>
      change (browsing.put write).cursor = _ ∧ (browsing.put write).yielded = _
      unfold put
      split <;> exact ⟨rfl, rfl⟩
  | checkpoint =>
      change browsing.checkpoint.cursor = _ ∧ browsing.checkpoint.yielded = _
      unfold checkpoint
      split <;> exact ⟨rfl, rfl⟩

/-- What is in the table stays in it. -/
theorem step_present (present : browsing.table.find? key ≠ none) (event : BrowsingEvent) :
    (browsing.step event).table.find? key ≠ none := by
  cases event with
  | next => exact present
  | put write =>
      change (browsing.put write).table.find? key ≠ none
      unfold put
      split
      · rename_i putting
        rw [Table.find?, Table.contents_put putting]
        exact OrderedMap.find?_insert_ne_none present
      · exact present
  | checkpoint =>
      change browsing.checkpoint.table.find? key ≠ none
      unfold checkpoint
      split
      · rename_i checkpointing
        rw [Table.find?, Table.contents_checkpoint checkpointing]
        exact present
      · exact present

/-- The cursor admits what is neither before its first key nor passed, and has yielded keys in
ascending order. -/
structure Keeps (begin : Bytes) (browsing : Browsing) : Prop where
  admits_iff : ∀ key, browsing.cursor.bound.admits key = true ↔ Ahead begin browsing.yielded key
  ascending : Ascending browsing.yielded
  within : ∀ entry ∈ browsing.yielded, ¬ entry.1 < begin

theorem keeps_start (files : FileSystem) (table : Table) (begin : Bytes) :
    Keeps begin (start files table begin) where
  admits_iff key := by simp [start, Cursor.startingAt, OrderedMap.Bound.admits, Ahead]
  ascending := List.Pairwise.nil
  within entry member := by cases member

theorem ahead_concat (yielded : List (Bytes × Bytes)) (entry : Bytes × Bytes) (key : Bytes) :
    Ahead begin (yielded ++ [entry]) key ↔ entry.1 < key := by
  rw [Ahead, List.getLast?_concat]

/-- The key is behind all that has been yielded, as this has come in order. -/
theorem Keeps.ahead_iff (keeps : Keeps begin browsing) (key : Bytes) :
    Ahead begin browsing.yielded key ↔
      ¬ key < begin ∧ ∀ entry ∈ browsing.yielded, entry.1 < key := by
  obtain none | ⟨earlier, last, split⟩ := List.eq_nil_or_concat browsing.yielded
  · simp [none, Ahead]
  · rw [List.concat_eq_append] at split
    have ascending := keeps.ascending
    have within := keeps.within last (by simp [split])
    rw [split] at ascending ⊢
    obtain ⟨_, _, apart⟩ := List.pairwise_append.mp ascending
    rw [ahead_concat]
    constructor
    · intro behind
      refine ⟨fun before => within (List.lt_trans behind before), fun entry member => ?_⟩
      rcases List.mem_append.mp member with early | isLast
      · exact List.lt_trans (apart entry early last List.mem_cons_self) behind
      · exact List.mem_singleton.mp isLast ▸ behind
    · rintro ⟨_, behind⟩
      exact behind last (by simp)

theorem Keeps.step (keeps : Keeps begin browsing) (event : BrowsingEvent) :
    Keeps begin (browsing.step event) := by
  by_cases isNext : event = .next
  · subst isNext
    cases isFound : browsing.found with
    | none =>
        rw [Browsing.step, advance_nothing isFound]
        exact keeps
    | some entry =>
        obtain ⟨bound, yielded⟩ := advance_found isFound
        rw [found_eq] at isFound
        obtain ⟨_, admitted, _⟩ := OrderedMap.next?_eq_some isFound
        obtain ⟨notBefore, behind⟩ :=
          (keeps.ahead_iff entry.1).mp ((keeps.admits_iff entry.1).mp admitted)
        refine ⟨fun key => ?_, ?_, ?_⟩
        · rw [Browsing.step, bound, yielded, ahead_concat]
          exact decide_eq_true_iff
        · rw [Browsing.step, yielded]
          refine List.pairwise_append.mpr ⟨keeps.ascending, List.pairwise_singleton _ _, ?_⟩
          intro earlier member other isEntry
          exact List.mem_singleton.mp isEntry ▸ behind earlier member
        · rw [Browsing.step, yielded]
          intro other member
          rcases List.mem_append.mp member with earlier | isEntry
          · exact keeps.within other earlier
          · exact List.mem_singleton.mp isEntry ▸ notBefore
  · obtain ⟨cursor, yielded⟩ := step_write isNext
    refine ⟨fun key => ?_, ?_, ?_⟩
    · rw [cursor, yielded]
      exact keeps.admits_iff key
    · rw [yielded]
      exact keeps.ascending
    · rw [yielded]
      exact keeps.within

theorem Keeps.run (keeps : Keeps begin browsing) (events : List BrowsingEvent) :
    Keeps begin (browsing.run events) := by
  induction events using List.reverseRecOn with
  | nil => exact keeps
  | append_singleton earlier event ih =>
      rw [run_concat]
      exact ih.step event

/-- What a step finds is the first key of the moment that is ahead. -/
theorem Keeps.found_least (keeps : Keeps begin browsing) (isFound : browsing.found = some entry) :
    browsing.table.find? entry.1 = some entry.2 ∧ Ahead begin browsing.yielded entry.1 ∧
      ∀ key, browsing.table.find? key ≠ none → Ahead begin browsing.yielded key →
        ¬ key < entry.1 := by
  rw [found_eq] at isFound
  obtain ⟨present, admitted, least⟩ := OrderedMap.next?_eq_some isFound
  exact ⟨present, (keeps.admits_iff entry.1).mp admitted,
    fun key other ahead => least key other ((keeps.admits_iff key).mpr ahead)⟩

theorem Keeps.nothing_ahead (keeps : Keeps begin browsing) (nothing : browsing.found = none)
    (present : browsing.table.find? key ≠ none) : ¬ Ahead begin browsing.yielded key := by
  rw [found_eq] at nothing
  intro ahead
  have refused := OrderedMap.next?_eq_none nothing present
  cases refused.symm.trans ((keeps.admits_iff key).mpr ahead)

/-- A key in the table that the cursor has yielded or has yet to come to. -/
structure Awaits (begin key : Bytes) (browsing : Browsing) : Prop where
  present : browsing.table.find? key ≠ none
  reached : key ∈ browsing.yielded.map Prod.fst ∨ Ahead begin browsing.yielded key

theorem Awaits.step (awaits : Awaits begin key browsing) (keeps : Keeps begin browsing)
    (event : BrowsingEvent) : Awaits begin key (browsing.step event) where
  present := step_present awaits.present event
  reached := by
    by_cases isNext : event = .next
    · subst isNext
      cases isFound : browsing.found with
      | none =>
          rw [Browsing.step, advance_nothing isFound]
          exact awaits.reached
      | some entry =>
          obtain ⟨_, yielded⟩ := advance_found isFound
          obtain ⟨_, _, least⟩ := keeps.found_least isFound
          rw [Browsing.step, yielded, ahead_concat, List.map_append, List.mem_append]
          rcases awaits.reached with earlier | ahead
          · exact Or.inl (Or.inl earlier)
          · have notBefore := least key awaits.present ahead
            by_cases same : key = entry.1
            · exact Or.inl (Or.inr (by simp [same]))
            · exact Or.inr (Bytes.lt_or_eq_of_not_lt notBefore same)
    · obtain ⟨_, yielded⟩ := step_write isNext
      rw [yielded]
      exact awaits.reached

theorem Awaits.run (awaits : Awaits begin key browsing) (keeps : Keeps begin browsing)
    (events : List BrowsingEvent) : Awaits begin key (browsing.run events) := by
  induction events using List.reverseRecOn with
  | nil => exact awaits
  | append_singleton earlier event ih =>
      rw [run_concat]
      exact ih.step (keeps.run earlier) event

/-- A key that has not been passed is one that the cursor has yielded last or has yet to come to. -/
theorem Keeps.awaits (keeps : Keeps begin browsing) (present : browsing.table.find? key ≠ none)
    (notBefore : ¬ key < begin) (notPassed : ∀ entry ∈ browsing.yielded, ¬ key < entry.1) :
    Awaits begin key browsing := by
  refine ⟨present, ?_⟩
  by_cases earlier : key ∈ browsing.yielded.map Prod.fst
  · exact Or.inl earlier
  · refine Or.inr ((keeps.ahead_iff key).mpr ⟨notBefore, fun entry member => ?_⟩)
    have different : key ≠ entry.1 := by
      rintro rfl
      exact earlier (List.mem_map_of_mem member)
    exact Bytes.lt_or_eq_of_not_lt (notPassed entry member) different

theorem Keeps.awaits_put {write : Write} {after : FileSystem} (keeps : Keeps begin browsing)
    (putting : (browsing.table.put write.key write.value write.timestamp).perform browsing.files =
      (.ok next, after))
    (notBefore : ¬ write.key < begin)
    (notPassed : ∀ entry ∈ browsing.yielded, ¬ write.key < entry.1) :
    Awaits begin write.key (browsing.step (.put write)) := by
  have written := step_put_ok putting
  refine (keeps.step (.put write)).awaits ?_ notBefore (by rw [written]; exact notPassed)
  rw [written, Table.find?, Contents.find?, Table.contents_put putting, Contents.put,
    OrderedMap.find?_insert, if_pos rfl]
  exact Option.some_ne_none _

/-- Once nothing more is found, what has been waited for has been yielded, and once only. -/
theorem Awaits.count_eq_one (awaits : Awaits begin key browsing) (keeps : Keeps begin browsing)
    (nothing : browsing.found = none) : (browsing.yielded.map Prod.fst).count key = 1 := by
  have distinct : (browsing.yielded.map Prod.fst).Nodup := by
    rw [List.nodup_iff_pairwise_ne, List.pairwise_map]
    refine keeps.ascending.imp fun {earlier later} before same => ?_
    rw [same] at before
    exact Bytes.lt_irrefl _ before
  have yielded := awaits.reached.resolve_right (keeps.nothing_ahead nothing awaits.present)
  exact List.count_eq_one_of_mem distinct yielded

theorem mem_yielded (files : FileSystem) (table : Table) (begin : Bytes)
    (events : List BrowsingEvent) {entry : Bytes × Bytes}
    (member : entry ∈ ((start files table begin).run events).yielded) :
    ∃ earlier later, events = earlier ++ .next :: later ∧
      ((start files table begin).run earlier).found = some entry := by
  induction events using List.reverseRecOn with
  | nil => cases member
  | append_singleton before event ih =>
      rw [run_concat] at member
      by_cases isNext : event = .next
      · subst isNext
        rw [Browsing.step, advance, List.mem_append, Option.mem_toList] at member
        rcases member with already | isFound
        · obtain ⟨earlier, later, rfl, isFound⟩ := ih already
          exact ⟨earlier, later ++ [.next], by simp, isFound⟩
        · exact ⟨before, [], rfl, isFound⟩
      · rw [(step_write isNext).2] at member
        obtain ⟨earlier, later, rfl, isFound⟩ := ih member
        exact ⟨earlier, later ++ [event], by simp, isFound⟩

/-- However the steps of a cursor and writes to the table take turns, each step finds the first key
of that moment that is still ahead, with its value, so that the keys ascend from the first one on.
When a step finds nothing, every key that was there at the beginning, or has been put there before
the cursor had passed it, has been yielded exactly once. -/
theorem run_yields_in_order (files : FileSystem) (table : Table) (begin : Bytes)
    (events : List BrowsingEvent) :
    let browsing := (start files table begin).run events
    Ascending browsing.yielded ∧
      (∀ entry ∈ browsing.yielded, ¬ entry.1 < begin ∧
        ∃ earlier later, events = earlier ++ .next :: later ∧
          ((start files table begin).run earlier).found = some entry) ∧
      (∀ entry, browsing.found = some entry →
        browsing.table.find? entry.1 = some entry.2 ∧ Ahead begin browsing.yielded entry.1 ∧
        ∀ key, browsing.table.find? key ≠ none → Ahead begin browsing.yielded key →
          ¬ key < entry.1) ∧
      (browsing.found = none →
        (∀ key, browsing.table.find? key ≠ none → ¬ Ahead begin browsing.yielded key) ∧
        (∀ key, table.find? key ≠ none → ¬ key < begin →
          (browsing.yielded.map Prod.fst).count key = 1) ∧
        ∀ earlier write later next after, events = earlier ++ .put write :: later →
          let before := (start files table begin).run earlier
          (before.table.put write.key write.value write.timestamp).perform before.files =
            (.ok next, after) →
          ¬ write.key < begin → (∀ entry ∈ before.yielded, ¬ write.key < entry.1) →
          (browsing.yielded.map Prod.fst).count write.key = 1) := by
  intro browsing
  have keepsStart := keeps_start files table begin
  have keeps : Keeps begin browsing := keepsStart.run events
  refine ⟨keeps.ascending, fun entry member => ⟨keeps.within entry member, ?_⟩,
    fun entry isFound => keeps.found_least isFound, fun nothing => ⟨?_, ?_, ?_⟩⟩
  · exact mem_yielded files table begin events member
  · exact fun key present => keeps.nothing_ahead nothing present
  · intro key present notBefore
    have awaits := keepsStart.awaits present notBefore (by simp [start])
    exact (awaits.run keepsStart events).count_eq_one keeps nothing
  · intro earlier write later next after split before putting notBefore notPassed
    subst split
    have keepsBefore : Keeps begin before := keepsStart.run earlier
    have awaits := keepsBefore.awaits_put putting notBefore notPassed
    have onward : browsing = (before.step (.put write)).run later := by
      rw [← run_concat, ← run_append, List.append_assoc, List.singleton_append]
    have finished := awaits.run (keepsBefore.step (.put write)) later
    rw [← onward] at finished
    exact finished.count_eq_one keeps nothing

def browsedTable : Table where
  options := { path := "", pages := 1 }
  contents := Contents.empty.putAll [([97], [1]), ([99], [3])]
  log := { path := TableOptions.logName, file := 0, nextLsn := 1, strategy := .everyWrite }
  dirty := 0
  checkpointAt := pageSize

/-- Writes between the two keys, before the cursor, and to the key that it has yet to come to. -/
def browsedEvents : List BrowsingEvent :=
  [.next, .put ⟨[98], [2], 0⟩, .put ⟨[48], [0], 0⟩, .next, .put ⟨[99], [4], 0⟩, .next]

theorem run_yields_in_order_browsed :
    ((start .empty browsedTable []).run browsedEvents).yielded =
        [([97], [1]), ([98], [2]), ([99], [4])] ∧
      ((start .empty browsedTable []).run browsedEvents).found = none ∧
      (((start .empty browsedTable []).run browsedEvents).yielded.map Prod.fst).count [98] = 1 := by
  have nothing : ((start .empty browsedTable []).run browsedEvents).found = none := rfl
  obtain ⟨_, _, _, finishes⟩ := run_yields_in_order .empty browsedTable [] browsedEvents
  obtain ⟨_, _, written⟩ := finishes nothing
  refine ⟨rfl, nothing, ?_⟩
  exact written [.next] ⟨[98], [2], 0⟩ (browsedEvents.drop 2) _ _ rfl rfl (List.not_lt_nil _)
    (by decide)

end Browsing

end RowStore
