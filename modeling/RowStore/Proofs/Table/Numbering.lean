import RowStore.Proofs.Table.Steps
import RowStore.Proofs.Table.Switch

namespace RowStore

open FileSystem

theorem LogWriter.append_eq_ok {writer appended : LogWriter} {key value : Bytes}
    {timestamp lsn : UInt64} {files after : FileSystem}
    (appending : (writer.append key value timestamp).perform files = (.ok (lsn, appended), after)) :
    lsn = writer.nextLsn ∧ appended.nextLsn = writer.nextLsn + 1 := by
  cases framing : ({ lsn := writer.nextLsn, key, value, timestamp } : LogEntry).frame with
  | error fault =>
      simp only [append, framing, Disk.perform_fail] at appending
      cases appending
  | ok frame =>
      simp only [append, framing, Disk.perform_bind, Disk.perform_modify] at appending
      split at appending <;> cases appending <;> exact ⟨rfl, rfl⟩

namespace Table

variable {table next : Table} {write : Write} {files after : FileSystem}

/-- A checkpoint leaves the numbering alone. -/
theorem nextLsn_checkpoint {info : SnapshotInfo}
    (checkpointing : table.checkpoint.perform files = (.ok (info, next), after)) :
    next.log.nextLsn = table.log.nextLsn := by
  rw [checkpoint_eq_ok checkpointing]
  rfl

theorem nextLsn_put
    (putting : (table.put write.key write.value write.timestamp).perform files =
      (.ok next, after)) : next.log.nextLsn = table.log.nextLsn + 1 := by
  obtain ⟨_, log, logged, outcome, appending, checkpointing⟩ := put_eq_ok putting
  rw [← (LogWriter.append_eq_ok appending).2]
  rcases checkpointIfDue_eq_ok checkpointing with
    ⟨_, _, rfl, _⟩ | ⟨_, ⟨info, made, _⟩ | ⟨_, _, _, rfl⟩⟩
  · rfl
  · exact nextLsn_checkpoint made
  · rfl

end Table

theorem Coupled.lastLsn_eq {table : Table} {files : FileSystem} {home : Location}
    {settled : List Write} {flushed held : List LogEntry}
    (coupled : Coupled table files home settled flushed held) (nonempty : flushed ++ held ≠ []) :
    (lastLsn (flushed ++ held)).toNat + 1 = table.log.nextLsn.toNat := by
  obtain ⟨_, _, _, consecutive, next⟩ := coupled.numbered
  rw [consecutive.toNat_lastLsn nonempty, next]

/-- The number that an event logs a write under, if it logs one. -/
def Lifetime.assigned (life : Lifetime) : Event → Option UInt64
  | .put write =>
    match life.table with
    | none => none
    | some table =>
      match ((table.log.append write.key write.value write.timestamp).perform life.files).1 with
      | .ok (lsn, _) => some lsn
      | .error _ => none
  | .openTable _ _ | .checkpoint | .close | .abandon | .obstruct | .clear => none

/-- Whether an event opens a table on an empty log. -/
def Lifetime.beginsAnew (life : Lifetime) : Event → Bool
  | .openTable _ _ => life.table.isNone && life.recent.isEmpty
  | .put _ | .checkpoint | .close | .abandon | .obstruct | .clear => false

/-- The directory of a table with the numbers that its writes have got: those since a table was last
opened on an empty log, and those before. -/
structure Numbering where
  life : Lifetime
  earlier : List UInt64 := []
  since : List UInt64 := []

namespace Numbering

def numbers (numbering : Numbering) : List UInt64 :=
  numbering.earlier ++ numbering.since

def step (path : String) (numbering : Numbering) (event : Event) : Numbering :=
  if numbering.life.beginsAnew event then
    { life := numbering.life.step path event, earlier := numbering.numbers }
  else
    { numbering with
      life := numbering.life.step path event
      since := numbering.since ++ (numbering.life.assigned event).toList }

def run (path : String) (files : FileSystem) (events : List Event) : Numbering :=
  events.foldl (step path) { life := { files } }

theorem run_concat (path : String) (files : FileSystem) (events : List Event) (event : Event) :
    run path files (events ++ [event]) = (run path files events).step path event := by
  rw [run, List.foldl_append]
  rfl

theorem life_step (path : String) (numbering : Numbering) (event : Event) :
    (numbering.step path event).life = numbering.life.step path event := by
  unfold step
  split <;> rfl

theorem life_run (path : String) (files : FileSystem) (events : List Event) :
    (run path files events).life = Lifetime.run path files events := by
  induction events using List.reverseRecOn with
  | nil => rfl
  | append_singleton earlier event ih =>
      rw [run_concat, Lifetime.run_concat, ← ih, life_step]

end Numbering

/-- A table has been opened on an empty log although there had been writes. -/
def Lifetime.Reopened (path : String) (files : FileSystem) (events : List Event) : Prop :=
  ∃ before event, before ++ [event] <+: events ∧
    (run path files before).beginsAnew event = true ∧ (run path files before).writes ≠ []

/-- A table has been written to after such an opening. -/
def Lifetime.WritesAnew (path : String) (files : FileSystem) (events : List Event) : Prop :=
  ∃ before write, before ++ [.put write] <+: events ∧
    (run path files before).table.isSome = true ∧ Reopened path files before

theorem Lifetime.IsHistory.of_prefix {path : String} {home : Location} {files : FileSystem}
    {events before : List Event} (history : IsHistory path home files events)
    (within : before <+: events) : IsHistory path home files before := by
  obtain ⟨after, rfl⟩ := within
  induction after using List.reverseRecOn with
  | nil => rwa [List.append_nil] at history
  | append_singleton earlier event ih =>
      rw [← List.append_assoc] at history
      have few := history.few
      rw [Outline.ofEvents_concat] at few
      exact ih {
        vacant := history.vacant
        fit := fun write member => history.fit write (List.mem_append_left _ member)
        few := Nat.lt_of_le_of_lt (Outline.length_writes_le_step _ event) few }

/-- The next number is that behind the writes since the last opening on an empty log. A log that is
not empty keeps the last of them while no table is open. -/
inductive Lifetime.Counts (path : String) (home : Location) (life : Lifetime) (count : Nat) : Prop
  | atRest (logged : List LogEntry) (closed : life.table = none)
      (recent : logged.map LogEntry.write = life.recent)
      (rests : AtRest life.files path home life.settled logged)
      (last : logged ≠ [] → (lastLsn logged).toNat = count)
  | inUse (table : Table) (isOpen : life.table = some table)
      (next : table.log.nextLsn.toNat = count + 1)

namespace Lifetime

variable {path : String} {home : Location} {life : Lifetime} {outline : Outline} {table : Table}
  {write : Write} {files : FileSystem} {events : List Event} {event : Event} {count : Nat}

theorem Counts.next (counts : Counts path home life count) (isOpen : life.table = some table) :
    table.log.nextLsn.toNat = count + 1 := by
  cases counts with
  | atRest _ closed _ _ _ => cases isOpen.symm.trans closed
  | inUse other otherOpen next =>
      cases isOpen.symm.trans otherOpen
      exact next

theorem Counts.atRest' (counts : Counts path home life count) (closed : life.table = none) :
    ∃ logged, logged.map LogEntry.write = life.recent ∧
      AtRest life.files path home life.settled logged ∧
      (logged ≠ [] → (lastLsn logged).toNat = count) := by
  cases counts with
  | atRest logged _ recent rests last => exact ⟨logged, recent, rests, last⟩
  | inUse _ isOpen _ => cases isOpen.symm.trans closed

theorem Counts.openTable (counts : Counts path home life count) (closed : life.table = none)
    (pages : Nat) (strategy : SyncStrategy) :
    Counts path home (life.openTable { path, pages, strategy })
      (if life.recent = [] then 0 else count) := by
  obtain ⟨logged, recent, rests, last⟩ := counts.atRest' closed
  obtain ⟨table, opened, opening, on, coupled⟩ :=
    AtRest.openAt_perform { path, pages, strategy } rests
  rw [Lifetime.openTable, opening]
  refine .inUse table rfl ?_
  by_cases empty : logged = []
  · have nothing : life.recent = [] := by rw [← recent, empty, List.map_nil]
    rw [if_pos nothing, on.nextLsn, empty]
    rfl
  · have written : life.recent ≠ [] := by
      rw [← recent]
      simpa using empty
    have next := coupled.lastLsn_eq (by simpa using empty)
    rw [if_neg written, ← next, List.append_nil, last empty]

theorem Counts.checkpoint (counts : Counts path home life count)
    (follows : Follows path home life outline) (isOpen : life.table = some table) :
    Counts path home (life.checkpoint table) count := by
  obtain ⟨flushed, held, _, _, coupled⟩ := follows.inUse isOpen
  by_cases blocked : life.files.node? (home ++ [TableOptions.temporaryName]) = some .directory
  · rw [checkpoint_refused (coupled.checkpoint_refused blocked)]
    exact counts
  · obtain ⟨info, saved, after, checkpointing, _⟩ := coupled.checkpoint_perform blocked
    rw [checkpoint_saved checkpointing]
    refine .inUse saved rfl ?_
    rw [Table.nextLsn_checkpoint checkpointing, counts.next isOpen]

/-- Once a table has been given up, the last number is in the log. -/
theorem Counts.givenUp (counts : Counts path home life count) (isOpen : life.table = some table)
    {flushed held : List LogEntry} {after : FileSystem}
    (recent : (flushed ++ held).map LogEntry.write = life.recent)
    (coupled : Coupled table life.files home life.settled flushed held)
    (rests : AtRest after path home life.settled (flushed ++ held)) :
    Counts path home { life with files := after, table := none } count := by
  refine .atRest (flushed ++ held) rfl recent rests fun nonempty => ?_
  have next := counts.next isOpen
  have last := coupled.lastLsn_eq nonempty
  omega

theorem Counts.close (counts : Counts path home life count)
    (follows : Follows path home life outline) (isOpen : life.table = some table) :
    Counts path home (life.close table) count := by
  obtain ⟨flushed, held, located, recent, coupled⟩ := follows.inUse isOpen
  obtain ⟨outcome, after, closing, ends⟩ := coupled.close_perform
  rw [recent, located] at ends
  rcases ends with ⟨rfl, dirty, rests⟩ | ⟨notSettled, rests⟩
  · rw [Lifetime.close, closing]
    simp only [if_neg dirty]
    exact .atRest [] rfl rfl rests fun nonempty => absurd rfl nonempty
  · have stays := counts.givenUp isOpen recent coupled rests
    rw [Lifetime.close, closing]
    cases outcome with
    | error fault => exact stays
    | ok =>
        have clean : table.dirty = 0 := Classical.not_not.mp fun dirty => notSettled ⟨rfl, dirty⟩
        simp only [if_pos clean]
        exact stays

theorem Counts.abandon (counts : Counts path home life count)
    (follows : Follows path home life outline) (isOpen : life.table = some table) :
    Counts path home (life.abandon table) count := by
  obtain ⟨flushed, held, located, recent, coupled⟩ := follows.inUse isOpen
  exact counts.givenUp isOpen recent coupled (located ▸ coupled.abandoned)

theorem Counts.of_changesOnly {after : FileSystem} (counts : Counts path home life count)
    (changes : ChangesOnly home TableOptions.temporaryName life.files after) :
    Counts path home { life with files := after } count := by
  cases counts with
  | atRest logged closed recent rests last =>
      exact .atRest logged closed recent (rests.of_changesOnly changes) last
  | inUse table isOpen next => exact .inUse table isOpen next

theorem Counts.obstruct (counts : Counts path home life count)
    (follows : Follows path home life outline) : Counts path home (life.obstruct path) count :=
  counts.of_changesOnly
    (follows.inStep.directoryAt.changesOnly_makeDirectory TableOptions.temporaryName_isName)

theorem Counts.clear (counts : Counts path home life count)
    (follows : Follows path home life outline) : Counts path home (life.clear path) count :=
  counts.of_changesOnly
    (follows.inStep.directoryAt.changesOnly_removeDirectory TableOptions.temporaryName_isName)

theorem Counts.put (counts : Counts path home life count) (follows : Follows path home life outline)
    (isOpen : life.table = some table) (fits : write.Fits)
    (few : outline.writes.length + 1 < wordMax) :
    Counts path home (life.put table write) (count + 1) ∧
      ∃ lsn, life.assigned (.put write) = some lsn ∧ lsn.toNat = count + 1 := by
  obtain ⟨flushed, held, _, recent, coupled⟩ := follows.inUse isOpen
  have next := counts.next isOpen
  have room : life.settled.length + (flushed ++ held).length + 1 < wordMax := by
    rw [follows.length_eq recent]
    exact few
  have limit : table.log.nextLsn.toNat + 1 < 2 ^ 64 := by
    obtain ⟨first, _, early, _, isNext⟩ := coupled.numbered
    have wide : wordMax < 2 ^ 64 := by decide
    omega
  obtain ⟨written, after, _, _, putting, _⟩ := coupled.put_perform fits room
  obtain ⟨log, _, _, _, appending, _⟩ :=
    LogWriter.append_perform coupled.directory coupled.log rfl (Write.fits_entry fits _)
  refine ⟨.inUse written ?_ ?_, table.log.nextLsn, ?_, next⟩
  · rw [Lifetime.put, putting]
    split <;> rfl
  · rw [Table.nextLsn_put putting, UInt64.toNat_add, UInt64.toNat_one, Nat.mod_eq_of_lt limit, next]
  · simp only [assigned, isOpen, appending]

/-- What an event does to the numbering: the number that it assigns, and those that count after
it. -/
structure Assigns (path : String) (home : Location) (life : Lifetime) (outline : Outline)
    (count : Nat) (event : Event) : Prop where
  counts : Counts path home (life.step path event)
    (if life.beginsAnew event then 0 else count + (life.assigned event).toList.length)
  isNext : ∀ lsn ∈ life.assigned event, lsn.toNat = count + 1
  isWrite : (life.assigned event).isSome = true ↔
    life.table.isSome = true ∧ ∃ write, event = .put write
  length : (outline.step event).writes.length =
    outline.writes.length + (life.assigned event).toList.length

theorem Counts.assigns (counts : Counts path home (life.step path event) count)
    (notAnew : life.beginsAnew event = false) (notWrite : ∀ write, event ≠ .put write) :
    Assigns path home life outline count event := by
  have nothing : life.assigned event = none := by
    cases event with
    | put write => exact absurd rfl (notWrite write)
    | openTable | checkpoint | close | abandon | obstruct | clear => rfl
  have same : (outline.step event).writes = outline.writes := by
    cases event with
    | put write => exact absurd rfl (notWrite write)
    | openTable | checkpoint | close | abandon | obstruct | clear => rfl
  exact {
    counts := by
      rw [notAnew, nothing]
      exact counts
    isNext := by simp [nothing]
    isWrite := by
      rw [nothing]
      exact ⟨nofun, fun ⟨_, write, isPut⟩ => absurd isPut (notWrite write)⟩
    length := by
      rw [nothing, same]
      rfl }

theorem Counts.stepClosed (counts : Counts path home life count)
    (follows : Follows path home life outline) (closed : life.table = none) (event : Event) :
    Assigns path home life outline count event := by
  have stepped := step_closed closed path event
  cases event with
  | openTable pages strategy =>
      have opened := counts.openTable closed pages strategy
      refine ⟨?_, by simp [assigned], by simp [assigned], rfl⟩
      simp only [stepped, beginsAnew, closed, Option.isNone_none, Bool.true_and, List.isEmpty_iff]
      exact opened
  | put write =>
      have nothing : life.assigned (.put write) = none := by simp only [assigned, closed]
      have notOpen : outline.isOpen = false := by rw [← follows.isOpen, closed]; rfl
      refine ⟨?_, by simp [nothing], by simp [nothing, closed], ?_⟩
      · rw [stepped, nothing]
        exact counts
      · simp [Outline.step, notOpen, nothing]
  | checkpoint | close | abandon => exact Counts.assigns (stepped ▸ counts) rfl (by simp)
  | obstruct => exact Counts.assigns (stepped ▸ counts.obstruct follows) rfl (by simp)
  | clear => exact Counts.assigns (stepped ▸ counts.clear follows) rfl (by simp)

theorem Counts.stepOpen (counts : Counts path home life count)
    (follows : Follows path home life outline) (isOpen : life.table = some table) (event : Event)
    (fit : ∀ write, event = .put write → write.Fits)
    (few : (outline.step event).writes.length < wordMax) :
    Assigns path home life outline count event := by
  have stepped := step_open isOpen path event
  cases event with
  | openTable pages strategy =>
      have notAnew : life.beginsAnew (.openTable pages strategy) = false := by
        simp only [beginsAnew, isOpen, Option.isNone_some, Bool.false_and]
      exact Counts.assigns (stepped ▸ counts) notAnew (by simp)
  | put write =>
      have already : outline.isOpen = true := by rw [← follows.isOpen, isOpen]; rfl
      simp only [Outline.step, already, if_true, List.length_append, List.length_singleton] at few
      obtain ⟨written, lsn, isAssigned, isNumber⟩ := counts.put follows isOpen (fit write rfl) few
      refine ⟨?_, ?_, ?_, ?_⟩
      · rw [stepped, isAssigned]
        exact written
      · simpa [isAssigned] using isNumber
      · simp [isAssigned, isOpen]
      · simp [Outline.step, already, isAssigned]
  -- Said before it is used: unifying the two lives would run the operation.
  | checkpoint =>
      have saved := counts.checkpoint follows isOpen
      exact Counts.assigns (stepped ▸ saved) rfl (by simp)
  | close =>
      have closed := counts.close follows isOpen
      exact Counts.assigns (stepped ▸ closed) rfl (by simp)
  | abandon =>
      have givenUp := counts.abandon follows isOpen
      exact Counts.assigns (stepped ▸ givenUp) rfl (by simp)
  | obstruct => exact Counts.assigns (stepped ▸ counts.obstruct follows) rfl (by simp)
  | clear => exact Counts.assigns (stepped ▸ counts.clear follows) rfl (by simp)

theorem Counts.step (counts : Counts path home life count)
    (follows : Follows path home life outline) (event : Event)
    (fit : ∀ write, event = .put write → write.Fits)
    (few : (outline.step event).writes.length < wordMax) :
    Assigns path home life outline count event := by
  cases found : life.table with
  | none => exact counts.stepClosed follows found event
  | some table => exact counts.stepOpen follows found event fit few

theorem reopened_concat :
    Reopened path files (events ++ [event]) ↔
      Reopened path files events ∨
        (run path files events).beginsAnew event = true ∧ (run path files events).writes ≠ [] := by
  constructor
  · rintro ⟨before, opening, within, anew, written⟩
    rcases List.prefix_concat_iff.mp within with whole | earlier
    · obtain ⟨rfl, isEvent⟩ := List.append_inj' whole rfl
      cases isEvent
      exact Or.inr ⟨anew, written⟩
    · exact Or.inl ⟨before, opening, earlier, anew, written⟩
  · rintro (⟨before, opening, within, anew, written⟩ | ⟨anew, written⟩)
    · exact ⟨before, opening, within.trans (List.prefix_append _ _), anew, written⟩
    · exact ⟨events, event, List.prefix_rfl, anew, written⟩

theorem writesAnew_concat :
    WritesAnew path files (events ++ [event]) ↔
      WritesAnew path files events ∨
        ((run path files events).table.isSome = true ∧ ∃ write, event = .put write) ∧
          Reopened path files events := by
  constructor
  · rintro ⟨before, write, within, isOpen, reopened⟩
    rcases List.prefix_concat_iff.mp within with whole | earlier
    · obtain ⟨rfl, isEvent⟩ := List.append_inj' whole rfl
      cases isEvent
      exact Or.inr ⟨⟨isOpen, write, rfl⟩, reopened⟩
    · exact Or.inl ⟨before, write, earlier, isOpen, reopened⟩
  · rintro (⟨before, write, within, isOpen, reopened⟩ | ⟨⟨isOpen, write, rfl⟩, reopened⟩)
    · exact ⟨before, write, within.trans (List.prefix_append _ _), isOpen, reopened⟩
    · exact ⟨events, write, List.prefix_rfl, isOpen, reopened⟩

theorem WritesAnew.reopened (writesAnew : WritesAnew path files events) :
    Reopened path files events := by
  obtain ⟨before, write, within, _, earlier, opening, early, anew, written⟩ := writesAnew
  exact ⟨earlier, opening, early.trans ((List.prefix_append _ _).trans within), anew, written⟩

end Lifetime

namespace Numbering

variable {path : String} {home : Location} {numbering : Numbering} {outline : Outline}
  {files : FileSystem} {events : List Event}

/-- The numbers of a history: those since the last opening on an empty log count from one on, and
there are others exactly if such an opening had writes before it. -/
structure Numbers (path : String) (home : Location) (files : FileSystem) (events : List Event)
    (numbering : Numbering) : Prop where
  counts : numbering.life.Counts path home numbering.since.length
  consecutive : numbering.since.map UInt64.toNat = List.range' 1 numbering.since.length
  positive : ∀ lsn ∈ numbering.earlier, 0 < lsn.toNat
  early : numbering.earlier ≠ [] ↔ Lifetime.Reopened path files events
  length : numbering.numbers.length = (Outline.ofEvents events).writes.length
  increases : numbering.numbers.Pairwise (· < ·) ↔ ¬ Lifetime.WritesAnew path files events

theorem positive_numbers (consecutive :
    numbering.since.map UInt64.toNat = List.range' 1 numbering.since.length)
    (positive : ∀ lsn ∈ numbering.earlier, 0 < lsn.toNat) :
    ∀ lsn ∈ numbering.numbers, 0 < lsn.toNat := by
  intro lsn member
  rcases List.mem_append.mp member with old | new
  · exact positive lsn old
  · have inRange := List.mem_map_of_mem (f := UInt64.toNat) new
    rw [consecutive, List.mem_range'_1] at inRange
    exact inRange.1

/-- Numbers that begin at one again increase only if nothing is before them. -/
theorem pairwise_numbers_iff {earlier since : List UInt64} (nonempty : since ≠ [])
    (consecutive : since.map UInt64.toNat = List.range' 1 since.length)
    (positive : ∀ lsn ∈ earlier, 0 < lsn.toNat) :
    (earlier ++ since).Pairwise (· < ·) ↔ earlier = [] := by
  constructor
  · intro increases
    obtain ⟨first, rest, rfl⟩ := List.exists_cons_of_ne_nil nonempty
    have isOne : first.toNat = 1 := by
      rw [List.map_cons, List.length_cons, List.range'_succ] at consecutive
      exact (List.cons.inj consecutive).1
    refine List.eq_nil_iff_forall_not_mem.mpr fun lsn member => ?_
    have below := (List.pairwise_append.mp increases).2.2 lsn member first List.mem_cons_self
    have above := positive lsn member
    rw [UInt64.lt_iff_toNat_lt] at below
    omega
  · rintro rfl
    have range : (since.map UInt64.toNat).Pairwise (· < ·) := by
      rw [consecutive]
      exact List.pairwise_lt_range' 1
    rw [List.pairwise_map] at range
    exact range.imp UInt64.lt_iff_toNat_lt.mpr

theorem Numbers.beginAnew (numbers : Numbers path home files events numbering)
    (life : numbering.life = Lifetime.run path files events) {event : Event}
    (assigns : numbering.life.Assigns path home (Outline.ofEvents events) numbering.since.length
      event)
    (follows : (Lifetime.run path files events).Follows path home (Outline.ofEvents events))
    (anew : numbering.life.beginsAnew event = true) :
    Numbers path home files (events ++ [event]) (numbering.step path event) := by
  have stepped : numbering.step path event =
      { life := numbering.life.step path event, earlier := numbering.numbers } := if_pos anew
  have notWrite : ∀ write, event ≠ .put write := by
    rintro write rfl
    cases anew
  have unassigned : numbering.life.assigned event = none := by
    rw [← Option.not_isSome_iff_eq_none, assigns.isWrite]
    exact fun ⟨_, write, isPut⟩ => notWrite write isPut
  have counts := assigns.counts
  rw [if_pos anew] at counts
  rw [stepped]
  exact {
    counts := counts
    consecutive := rfl
    positive := positive_numbers numbers.consecutive numbers.positive
    early := by
      have written : numbering.numbers ≠ [] ↔ (Lifetime.run path files events).writes ≠ [] := by
        rw [← List.length_pos_iff, numbers.length, ← follows.writes, List.length_pos_iff]
      rw [Lifetime.reopened_concat, ← life, anew, life, ← written,
        ← numbers.early]
      simp only [true_and]
      exact ⟨Or.inr, fun either => either.elim
        (fun early => by simp [Numbering.numbers, early]) id⟩
    length := by
      rw [Outline.ofEvents_concat, assigns.length, unassigned]
      simpa [Numbering.numbers] using numbers.length
    increases := by
      have same : ¬ ∃ write, event = .put write := fun ⟨write, isPut⟩ => notWrite write isPut
      rw [Lifetime.writesAnew_concat, ← life]
      simpa [Numbering.numbers, same] using numbers.increases }

theorem Numbers.goOn (numbers : Numbers path home files events numbering)
    (life : numbering.life = Lifetime.run path files events) {event : Event}
    (assigns : numbering.life.Assigns path home (Outline.ofEvents events) numbering.since.length
      event)
    (goesOn : numbering.life.beginsAnew event = false) :
    Numbers path home files (events ++ [event]) (numbering.step path event) := by
  let since := numbering.since ++ (numbering.life.assigned event).toList
  have stepped : numbering.step path event =
      { numbering with life := numbering.life.step path event, since } :=
    if_neg (goesOn ▸ Bool.false_ne_true)
  have consecutive : since.map UInt64.toNat = List.range' 1 since.length := by
    cases next : numbering.life.assigned event with
    | none => simpa [since, next] using numbers.consecutive
    | some lsn =>
        have isNext := assigns.isNext lsn next
        simp only [since, next, Option.toList_some, List.map_append, List.map_singleton,
          numbers.consecutive, List.length_append, List.length_singleton, isNext,
          List.range'_concat, Nat.one_mul, Nat.add_comm]
  have counts := assigns.counts
  rw [if_neg (goesOn ▸ Bool.false_ne_true)] at counts
  have reopens : Lifetime.Reopened path files (events ++ [event]) ↔
      Lifetime.Reopened path files events := by
    rw [Lifetime.reopened_concat, ← life, goesOn]
    simp
  rw [stepped]
  exact {
    counts := by
      rw [List.length_append]
      exact counts
    consecutive := consecutive
    positive := numbers.positive
    early := by rw [reopens, ← numbers.early]
    length := by
      rw [Outline.ofEvents_concat, assigns.length, ← numbers.length]
      simp [Numbering.numbers, since, Nat.add_assoc]
    increases := by
      rw [Lifetime.writesAnew_concat, ← life, ← assigns.isWrite]
      cases next : numbering.life.assigned event with
      | none => simpa [Numbering.numbers, since, next] using numbers.increases
      | some lsn =>
          have nonempty : since ≠ [] := by simp [since, next]
          have increases := pairwise_numbers_iff nonempty consecutive numbers.positive
          rw [Numbering.numbers, increases, ← not_iff_not, not_not]
          refine numbers.early.trans ⟨fun reopened => Or.inr ⟨rfl, reopened⟩, ?_⟩
          exact fun either => either.elim Lifetime.WritesAnew.reopened And.right }

theorem run_numbers (history : Lifetime.IsHistory path home files events) :
    Numbers path home files events (run path files events) := by
  induction events using List.reverseRecOn with
  | nil =>
      obtain ⟨vacant, _, _⟩ := history
      have notReopened : ¬ Lifetime.Reopened path files [] := by
        rintro ⟨before, event, within, _⟩
        simp at within
      have counts : Lifetime.Counts path home { files } 0 :=
        .atRest [] rfl rfl vacant.atRest fun nonempty => absurd rfl nonempty
      exact ⟨counts, rfl, nofun, by simpa [run] using notReopened, rfl,
        iff_of_true .nil fun writesAnew => notReopened writesAnew.reopened⟩
  | append_singleton earlier event ih =>
      have before := history.of_prefix (List.prefix_append _ _)
      have follows := Lifetime.run_follows before
      have numbers := ih before
      have few := history.few
      rw [Outline.ofEvents_concat] at few
      have life := life_run path files earlier
      have assigns := numbers.counts.step (life ▸ follows) event
        (fun write same => history.fit write (by simp [same])) few
      rw [run_concat]
      cases anew : (run path files earlier).life.beginsAnew event with
      | true => exact numbers.beginAnew life assigns follows anew
      | false => exact numbers.goOn life assigns anew

end Numbering

/-- Every write of a history gets a number. Since the last opening on an empty log they count from
one on, and together they increase strictly exactly if no write follows an opening on an empty log
that had writes before it. -/
theorem Lifetime.numbers_increase_iff {path : String} {home : Location} {files : FileSystem}
    {events : List Event} (history : IsHistory path home files events) :
    (Numbering.run path files events).numbers.length =
        (Outline.ofEvents events).writes.length ∧
      (Numbering.run path files events).since.map UInt64.toNat =
        List.range' 1 (Numbering.run path files events).since.length ∧
      ((Numbering.run path files events).numbers.Pairwise (· < ·) ↔
        ¬ WritesAnew path files events) :=
  have numbers := Numbering.run_numbers history
  ⟨numbers.length, numbers.consecutive, numbers.increases⟩

theorem Unsaved.recent_checkpoint {strategy : SyncStrategy} {life : Lifetime} {home : Location}
    {sent kept : List Write} {counted : Nat}
    (unsaved : Unsaved strategy life home sent kept counted) (path : String) :
    (life.step path .checkpoint).recent = [] := by
  obtain ⟨table, flushed, held, isOpen, free, _, _, _, _, coupled, _⟩ := unsaved
  obtain ⟨info, saved, after, checkpointing, _⟩ := coupled.checkpoint_perform free
  rw [Lifetime.step_open isOpen, Lifetime.stepOpen, Lifetime.checkpoint_saved checkpointing,
    Lifetime.settle]

theorem Lifetime.recent_abandon (life : Lifetime) (path : String) :
    (life.step path .abandon).recent = life.recent := by
  unfold Lifetime.step
  split <;> rfl

/-- A table is written to once before and once after it is opened on a log that a checkpoint has
emptied. -/
def renumberedHistory : List Event :=
  [.openTable 4 .everyWrite, .put smallWrite, .checkpoint, .abandon, .openTable 4 .everyWrite,
    .put smallWrite]

/-- The second write does not get a number above that of the first. -/
theorem renumberedHistory_not_increasing :
    Lifetime.IsHistory "" [] empty renumberedHistory ∧
      ¬ (Numbering.run "" empty renumberedHistory).numbers.Pairwise (· < ·) := by
  have fit : ∀ write, Event.put write ∈ renumberedHistory → write.Fits := by
    intro write member
    simp only [renumberedHistory, List.mem_cons, List.not_mem_nil, reduceCtorEq, false_or, or_false,
      Event.put.injEq, or_self] at member
    subst member
    decide
  have history : Lifetime.IsHistory "" [] empty renumberedHistory :=
    ⟨emptyDirectory_empty, fit, by decide⟩
  refine ⟨history, fun increases => ?_⟩
  refine (Lifetime.numbers_increase_iff history).2.2.mp increases
    ⟨renumberedHistory.take 5, smallWrite, List.prefix_rfl, ?_, renumberedHistory.take 4,
      .openTable 4 .everyWrite, List.prefix_rfl, ?_, ?_⟩
  · exact (Lifetime.run_follows (history.of_prefix (List.take_prefix 5 _))).isOpen
  · have follows := Lifetime.run_follows (history.of_prefix (List.take_prefix 4 _))
    have written := (unsaved_open emptyDirectory_empty .everyWrite).put_due ""
      (by decide : smallWrite.Fits) (by decide) (by decide) rfl
    have recent : (Lifetime.run "" empty (renumberedHistory.take 4)).recent = [] := by
      have settled := written.recent_checkpoint ""
      rw [← Lifetime.recent_abandon _ ""] at settled
      exact settled
    have closed : (Lifetime.run "" empty (renumberedHistory.take 4)).table.isNone = true := by
      rw [← Option.not_isSome, follows.isOpen]
      rfl
    simp only [Lifetime.beginsAnew, closed, recent, List.isEmpty_nil, Bool.and_self]
  · rw [(Lifetime.run_follows (history.of_prefix (List.take_prefix 4 _))).writes]
    decide

end RowStore
