import RowStore.Proofs.Table.Crash

/-!
What is left when everything held in memory is lost after a snapshot has taken its name and before
the log is emptied. The part of the log that is in its file is read over the snapshot once more. If
two writes or more can be held back, that can undo one write and keep a later one.
-/

namespace RowStore

open FileSystem

variable {path : String} {home : Location} {files before switched : FileSystem}
  {events : List Event} {life : Lifetime} {table : Table} {settled : List Write}
  {flushed held : List LogEntry} {write : Write} {strategy : SyncStrategy}

theorem Coupled.durable_switched (coupled : Coupled table before home settled flushed held)
    {info : SnapshotInfo}
    (storing : (Snapshot.store table.options.snapshotPath table.contents.map.entries).perform
      before = (.ok info, switched)) :
    Durable switched table.options.path home
        (settled ++ (flushed ++ held).map LogEntry.write) flushed ∧
      switched.HoldsFile home TableOptions.logName (LogEntry.frames flushed) := by
  by_cases blocked : before.node? (home ++ [TableOptions.temporaryName]) = some .directory
  · have refused :=
      coupled.directory.openFile_obstructed TableOptions.temporaryName_isName blocked
    rw [← table.options.temporaryName_snapshotPath] at refused
    cases storing.symm.trans (Snapshot.store_refused refused table.contents.map.entries)
  · obtain ⟨_, after, performed, directory, saved, log⟩ := coupled.store_perform blocked
    cases storing.symm.trans performed
    exact ⟨{
      directory
      saved
      log := Or.inl log.holdsFile
      settledFit := coupled.writesFit
      loggedFit := coupled.durable.loggedFit
      few := coupled.fewWrites }, log.holdsFile⟩

/-- Writes read over themselves with at most one write between them. -/
theorem mapAfter_repeated (settled sent kept : List Write) (few : kept.length ≤ 1) :
    ∃ count, mapAfter (settled ++ (sent ++ kept) ++ sent) =
      mapAfter ((settled ++ (sent ++ kept)).take count) := by
  rcases kept with _ | ⟨last, _ | ⟨_, _⟩⟩
  · refine ⟨(settled ++ (sent ++ [])).length, OrderedMap.ext_find? fun key => ?_⟩
    rw [List.take_length, find?_mapAfter, find?_mapAfter]
    simp only [List.append_nil, List.map_append, lastValue_append]
    cases lastValue (sent.map Write.pair) key <;> rfl
  · by_cases overwritten : last.key ∈ (sent.map Write.pair).map Prod.fst
    · -- The last write is undone, and all before it stand.
      refine ⟨(settled ++ sent).length, OrderedMap.ext_find? fun key => ?_⟩
      have earlier :
          (settled ++ (sent ++ [last])).take (settled ++ sent).length = settled ++ sent := by
        rw [← List.append_assoc, List.take_left]
      rw [earlier, find?_mapAfter, find?_mapAfter]
      simp only [List.map_append, List.map_singleton, lastValue_append, lastValue_singleton]
      by_cases same : key = last.key
      · have present := mt lastValue_eq_none_iff.mp (not_not_intro overwritten)
        obtain ⟨value, found⟩ := Option.ne_none_iff_exists'.mp present
        rw [same, found]
        rfl
      · rw [Write.pair, if_neg same]
        cases lastValue (sent.map Write.pair) key <;> rfl
    · refine ⟨(settled ++ (sent ++ [last])).length, OrderedMap.ext_find? fun key => ?_⟩
      rw [List.take_length, find?_mapAfter, find?_mapAfter]
      simp only [List.map_append, List.map_singleton, lastValue_append, lastValue_singleton]
      by_cases same : key = last.key
      · rw [same, lastValue_eq_none_iff.mpr overwritten]
        rfl
      · rw [Write.pair, if_neg same]
        cases lastValue (sent.map Write.pair) key <;> rfl
  · simp at few

theorem lastValue_concat (writes : List Write) (last : Write) (key : Bytes) :
    lastValue ((writes ++ [last]).map Write.pair) key =
      if key = last.key then some last.value else lastValue (writes.map Write.pair) key := by
  rw [List.map_append, lastValue_append, List.map_singleton, lastValue_singleton, Write.pair]
  split <;> rfl

theorem exists_write_of_lastValue {writes : List Write} {key value : Bytes}
    (last : lastValue (writes.map Write.pair) key = some value) :
    ∃ write ∈ writes, write.key = key ∧ write.value = value := by
  obtain ⟨write, isWrite, isPair⟩ := List.mem_map.mp (mem_of_lastValue last)
  exact ⟨write, isWrite, Prod.mk.inj isPair⟩

/-- A write that is undone while a later one stands leaves no first part of the writes. -/
theorem mapAfter_take_ne {first : List Write} {undone later : Write} (nonempty : first ≠ [])
    (oneKey : ∀ write ∈ first, write.key = undone.key ∧ write.value ≠ undone.value)
    (otherKey : later.key ≠ undone.key) (count : Nat) :
    mapAfter (first ++ [undone] ++ [later] ++ first) ≠
      mapAfter ((first ++ [undone] ++ [later]).take count) := by
  intro same
  have alike : ∀ key, (lastValue (first.map Write.pair) key).or
        (lastValue ((first ++ [undone] ++ [later]).map Write.pair) key) =
      lastValue (((first ++ [undone] ++ [later]).take count).map Write.pair) key := by
    intro key
    rw [← lastValue_append, ← List.map_append, ← find?_mapAfter, same, find?_mapAfter]
  by_cases whole : (first ++ [undone] ++ [later]).length ≤ count
  · -- All writes stand, but their first key has gone back to an earlier value.
    obtain ⟨value, found⟩ : ∃ value, lastValue (first.map Write.pair) undone.key = some value := by
      obtain ⟨write, rest, rfl⟩ := List.exists_cons_of_ne_nil nonempty
      apply Option.ne_none_iff_exists'.mp
      rw [Ne, lastValue_eq_none_iff, Classical.not_not, ← (oneKey write List.mem_cons_self).1]
      simp [Write.pair]
    have atUndone := alike undone.key
    rw [List.take_of_length_le whole, lastValue_concat, if_neg otherKey.symm, lastValue_concat,
      if_pos rfl, found] at atUndone
    obtain ⟨write, isWrite, _, isValue⟩ := exists_write_of_lastValue found
    cases atUndone
    exact (oneKey write isWrite).2 isValue
  · -- The later write is missing.
    have atLater := alike later.key
    rw [lastValue_concat, if_pos rfl] at atLater
    have found : ∃ value,
        lastValue (((first ++ [undone] ++ [later]).take count).map Write.pair) later.key =
          some value := by
      rw [← atLater]
      cases lastValue (first.map Write.pair) later.key with
      | none => exact ⟨later.value, rfl⟩
      | some value => exact ⟨value, rfl⟩
    obtain ⟨value, found⟩ := found
    obtain ⟨write, isWrite, isKey, _⟩ := exists_write_of_lastValue found
    have short : count ≤ (first ++ [undone]).length := by
      rw [List.length_append, List.length_singleton] at whole
      omega
    rw [List.take_append_of_le_length short] at isWrite
    rcases List.mem_append.mp (List.mem_of_mem_take isWrite) with old | new
    · exact otherKey (isKey.symm.trans (oneKey write old).1)
    · rw [List.mem_singleton.mp new] at isKey
      exact otherKey isKey.symm

/-- A write that does not use up the budget is recorded and nothing more. -/
theorem Lifetime.put_recorded {recorded : Table} {after : FileSystem}
    (recording : (table.record write.key write.value write.timestamp).perform life.files =
      (.ok recorded, after)) (early : recorded.dirty < recorded.checkpointAt) :
    life.put table write =
      { life with files := after, table := some recorded, recent := life.recent ++ [write] } := by
  have notDue : recorded.checkpointIfDue.perform after = (.ok (none, recorded), after) := by
    simp only [Table.checkpointIfDue, early, if_true, Disk.perform_pure]
  have putting : (table.put write.key write.value write.timestamp).perform life.files =
      (.ok recorded, after) := by
    simp only [Table.put, Disk.perform_bind, recording, notDue, Disk.perform_pure]
  have stays : table.putSettles write life.files = false := by
    simp only [Table.putSettles, Disk.perform_bind, recording, notDue, Table.isMade]
  unfold Lifetime.put
  simp only [putting, stays, Bool.false_eq_true, if_false]

/-- A table with a budget of four pages that has made no checkpoint and is free to make one: its
writes that are in the file of the log, those held back, and the number counted since the last
synchronisation. -/
def Unsaved (strategy : SyncStrategy) (life : Lifetime) (home : Location) (sent kept : List Write)
    (counted : Nat) : Prop :=
  ∃ table flushed held, life.table = some table ∧
    life.files.node? (home ++ [TableOptions.temporaryName]) ≠ some .directory ∧
    table.options.strategy = strategy ∧ table.checkpointAt = 4 * pageSize ∧ life.settled = [] ∧
    life.recent = sent ++ kept ∧ Coupled table life.files home [] flushed held ∧
    flushed.map LogEntry.write = sent ∧ held.map LogEntry.write = kept ∧
    table.log.unsynced = counted

def Write.frameLength (write : Write) : Nat :=
  LogEntry.headerWidth + 32 + write.weight

theorem length_frames_write (entries : List LogEntry) :
    (LogEntry.frames entries).length = total Write.frameLength (entries.map LogEntry.write) := by
  rw [LogEntry.length_frames, total_map]
  rfl

variable {sent kept : List Write} {counted : Nat}

theorem unsaved_open (vacant : files.EmptyDirectory path home) (strategy : SyncStrategy) :
    Unsaved strategy (Lifetime.run path files [.openTable 4 strategy]) home [] [] 0 := by
  obtain ⟨table, opened, opening, on, coupled⟩ :=
    AtRest.openAt_perform { path, pages := 4, strategy } vacant.atRest
  have opens : Lifetime.run path files [.openTable 4 strategy] =
      { files := opened, table := some table } := by
    change Lifetime.openTable { files } { path, pages := 4, strategy } = _
    unfold Lifetime.openTable
    rw [opening]
  have budget : table.checkpointAt = 4 * pageSize := by
    have whole : saturated (4 * pageSize) = 4 * pageSize := by decide
    exact on.checkpointAt.trans whole
  have free : opened.node? (home ++ [TableOptions.temporaryName]) ≠ some .directory := by
    rw [on.changes.node?_other TableOptions.logName_ne_temporaryName.symm, vacant.empty]
    exact Option.some_ne_none _ |>.symm
  rw [opens]
  exact ⟨table, [], [], rfl, free, by rw [on.options_eq], budget, rfl, rfl, coupled, rfl, rfl,
    on.unsynced⟩

theorem Unsaved.put (unsaved : Unsaved strategy life home sent kept counted) (path : String)
    (fits : write.Fits) (room : (sent ++ kept).length + 1 < wordMax)
    (below : total Write.weight (sent ++ kept ++ [write]) < 4 * pageSize) :
    ∃ sent' kept' counted',
      Unsaved strategy (life.step path (.put write)) home sent' kept' counted' ∧
      sent' ++ kept' = sent ++ kept ++ [write] ∧
      (strategy.isDue (counted + 1) = true → kept' = [] ∧ counted' = 0) ∧
      (strategy.isDue (counted + 1) = false → counted' = counted + 1) ∧
      (strategy.isDue (counted + 1) = false →
        total Write.frameLength (kept ++ [write]) < OutputBuffer.capacity →
        sent' = sent ∧ kept' = kept ++ [write]) ∧
      (OutputBuffer.capacity ≤ write.frameLength → kept' = []) := by
  obtain ⟨table, flushed, held, isOpen, free, isStrategy, budget, settled, recent, coupled, rfl,
    rfl, rfl⟩ := unsaved
  have length : (flushed ++ held).length + 1 < wordMax := by
    simpa using room
  obtain ⟨recorded, after, flushed', held', recording, changes, recordedCoupled, same, sameBudget,
    divides⟩ := coupled.record_perform fits (by simpa using length)
  have writes := Coupled.writes_divided divides
  have logStrategy : table.log.strategy = strategy := coupled.strategy.trans isStrategy
  have dirty : recorded.dirty =
      total Write.weight (flushed.map LogEntry.write ++ held.map LogEntry.write ++ [write]) := by
    rw [recordedCoupled.dirty, ← total_weight_write, writes, List.map_append]
  have early : recorded.dirty < recorded.checkpointAt := by
    rw [dirty, sameBudget, budget]
    exact below
  have stepped : life.step path (.put write) =
      { life with files := after, table := some recorded, recent := life.recent ++ [write] } := by
    rw [← Lifetime.put_recorded recording early, Lifetime.step_open isOpen]
    rfl
  have frame : (LogEntry.frames [write.entry table.log.nextLsn]).length = write.frameLength := by
    rw [length_frames_write]
    simp
  rw [stepped]
  refine ⟨flushed'.map LogEntry.write, held'.map LogEntry.write, recorded.log.unsynced,
    ⟨recorded, flushed', held', rfl, ?_, same ▸ isStrategy, sameBudget.trans budget, settled, ?_,
      recordedCoupled, rfl, rfl, rfl⟩, ?_, ?_, ?_, ?_, ?_⟩
  · rw [changes.node?_other TableOptions.logName_ne_temporaryName.symm]
    exact free
  · rw [← List.map_append, writes, recent, List.map_append]
  · rw [← List.map_append, writes, List.map_append]
  · intro due
    obtain ⟨nothing, none⟩ := divides.due (logStrategy ▸ due)
    exact ⟨by rw [nothing]; rfl, none⟩
  · exact fun notDue => divides.counts (logStrategy ▸ notDue)
  · intro notDue small
    have fitsBuffer : table.log.buffer.held.length +
        (LogEntry.frames [write.entry table.log.nextLsn]).length < OutputBuffer.capacity := by
      rw [frame, coupled.log.buffer, length_frames_write]
      simpa using small
    obtain ⟨sameFlushed, all⟩ := divides.waits (logStrategy ▸ notDue) fitsBuffer
    exact ⟨by rw [sameFlushed], by rw [all, List.map_append]; rfl⟩
  · intro large
    rw [divides.passes (frame ▸ large)]
    rfl

theorem Unsaved.put_due (unsaved : Unsaved strategy life home sent kept counted) (path : String)
    (fits : write.Fits) (room : (sent ++ kept).length + 1 < wordMax)
    (below : total Write.weight (sent ++ kept ++ [write]) < 4 * pageSize)
    (due : strategy.isDue (counted + 1) = true) :
    Unsaved strategy (life.step path (.put write)) home (sent ++ kept ++ [write]) [] 0 := by
  obtain ⟨sent', kept', counted', next, order, synced, _⟩ := unsaved.put path fits room below
  obtain ⟨rfl, rfl⟩ := synced due
  rw [List.append_nil] at order
  exact order ▸ next

theorem Unsaved.put_waits (unsaved : Unsaved strategy life home sent kept counted) (path : String)
    (fits : write.Fits) (room : (sent ++ kept).length + 1 < wordMax)
    (below : total Write.weight (sent ++ kept ++ [write]) < 4 * pageSize)
    (notDue : strategy.isDue (counted + 1) = false)
    (small : total Write.frameLength (kept ++ [write]) < OutputBuffer.capacity) :
    Unsaved strategy (life.step path (.put write)) home sent (kept ++ [write]) (counted + 1) := by
  obtain ⟨sent', kept', counted', next, _, _, counts, waits, _⟩ := unsaved.put path fits room below
  obtain ⟨rfl, rfl⟩ := waits notDue small
  exact counts notDue ▸ next

theorem Unsaved.put_passes (unsaved : Unsaved strategy life home sent kept counted) (path : String)
    (fits : write.Fits) (room : (sent ++ kept).length + 1 < wordMax)
    (below : total Write.weight (sent ++ kept ++ [write]) < 4 * pageSize)
    (notDue : strategy.isDue (counted + 1) = false)
    (large : OutputBuffer.capacity ≤ write.frameLength) :
    Unsaved strategy (life.step path (.put write)) home (sent ++ kept ++ [write]) []
      (counted + 1) := by
  obtain ⟨sent', kept', counted', next, order, _, counts, _, passes⟩ :=
    unsaved.put path fits room below
  obtain rfl := passes large
  rw [List.append_nil] at order
  exact counts notDue ▸ order ▸ next

/-- A write that is so large that its frame is not held back. -/
def largeWrite : Write := ⟨[107], List.replicate OutputBuffer.capacity 49, 0⟩

def smallWrite : Write := ⟨[107], [49], 0⟩

def undoneWrite : Write := ⟨[107], [50], 0⟩

def laterWrite : Write := ⟨[106], [49], 0⟩

theorem unsaved_of_three :
    Unsaved (.everyEntries 3)
      (Lifetime.run "" empty [.openTable 4 (.everyEntries 3), .put smallWrite, .put smallWrite,
        .put smallWrite, .put undoneWrite, .put laterWrite])
      [] [smallWrite, smallWrite, smallWrite] [undoneWrite, laterWrite] 2 := by
  have opened := unsaved_open emptyDirectory_empty (.everyEntries 3)
  have first := opened.put_waits "" (by decide : smallWrite.Fits) (by decide) (by decide)
    (by decide) (by decide)
  have second := first.put_waits "" (by decide : smallWrite.Fits) (by decide) (by decide)
    (by decide) (by decide)
  have third := second.put_due "" (by decide : smallWrite.Fits) (by decide) (by decide) (by decide)
  have undone := third.put_waits "" (by decide : undoneWrite.Fits) (by decide) (by decide)
    (by decide) (by decide)
  exact undone.put_waits "" (by decide : laterWrite.Fits) (by decide) (by decide) (by decide)
    (by decide)

theorem weight_largeWrite : largeWrite.weight = 8193 := by
  rw [Write.weight, largeWrite, List.length_replicate]
  rfl

theorem largeWrite_fits : largeWrite.Fits := by
  rw [Write.fits_iff, weight_largeWrite]
  decide

theorem unsaved_of_large {count : Nat} (several : 3 < count) :
    Unsaved (.everyEntries count)
      (Lifetime.run "" empty [.openTable 4 (.everyEntries count), .put largeWrite,
        .put undoneWrite, .put laterWrite])
      [] [largeWrite] [undoneWrite, laterWrite] 3 := by
  have opened := unsaved_open emptyDirectory_empty (.everyEntries count)
  have notDue : ∀ counted, counted < 3 →
      (SyncStrategy.everyEntries count).isDue (counted + 1) = false :=
    fun counted early => decide_eq_false (by omega)
  have undoneWeight : undoneWrite.weight = 2 := rfl
  have laterWeight : laterWrite.weight = 2 := rfl
  have large := opened.put_passes "" largeWrite_fits (by decide)
    (by simp [weight_largeWrite, pageSize]) (notDue 0 (by omega))
    (by simp [Write.frameLength, weight_largeWrite, OutputBuffer.capacity])
  have undone := large.put_waits "" (by decide : undoneWrite.Fits) (by simp [wordMax])
    (by simp [weight_largeWrite, undoneWeight, pageSize]) (notDue 1 (by omega))
    (by decide)
  exact undone.put_waits "" (by decide : laterWrite.Fits) (by simp [wordMax])
    (by simp [weight_largeWrite, undoneWeight, laterWeight, pageSize])
    (notDue 2 (by omega)) (by decide)

/-- What is left of a history if everything in memory is lost after a snapshot has taken its name
and before the log is emptied. -/
inductive Lifetime.Switched (life : Lifetime) : Table → FileSystem → List Write → Prop
  | named {table : Table} {before switched : FileSystem} {writes : List Write} {info : SnapshotInfo}
      (saves : MaySave life table before writes)
      (storing : (Snapshot.store table.options.snapshotPath table.contents.map.entries).perform
        before = (.ok info, switched)) :
      Switched life table switched writes

/-- Whether in all histories of tables with a strategy the directory then opens to the map after a
first part of the writes. -/
def SwitchKeepsPrefix (strategy : SyncStrategy) : Prop :=
  ∀ path home files events, Lifetime.IsHistory path home files events →
    ∀ table switched writes, (Lifetime.run path files events).Switched table switched writes →
      table.options.strategy = strategy →
        ∃ count, Reopens path switched (mapAfter (writes.take count))

/-- After a switch the writes that are in the file of the log are made once more. -/
theorem switched_reopens (history : Lifetime.IsHistory path home files events)
    {writes : List Write} (dies : (Lifetime.run path files events).Switched table switched writes) :
    ∃ settled kept logged, settled ++ (logged.map LogEntry.write ++ kept) = writes ∧
      kept.length ≤ table.options.strategy.window ∧
      switched.read (Path.join path TableOptions.logName) = .ok (LogEntry.frames logged) ∧
      Reopens path switched (mapAfter (writes ++ logged.map LogEntry.write)) := by
  obtain ⟨saves, storing⟩ := dies
  obtain ⟨settled, flushed, held, located, isWrites, coupled⟩ :=
    (Lifetime.run_follows history).maySave saves
  obtain ⟨durable, id, found, content⟩ := coupled.durable_switched storing
  have reopens := durable.reopens
  have reading := durable.directory.read_join TableOptions.logName_isName found
  rw [located, isWrites] at reopens
  rw [located, content] at reading
  refine ⟨settled, held.map LogEntry.write, flushed, ?_, ?_, reading, reopens⟩
  · rw [← List.map_append, isWrites]
  · rw [List.length_map]
    exact coupled.length_held_le

/-- A table with two writes held back, the first of a key to which all writes in the file of the log
have given other values. -/
theorem Unsaved.not_switchKeepsPrefix
    (unsaved : Unsaved strategy (Lifetime.run path files events) home sent
      [undoneWrite, laterWrite] counted)
    (history : Lifetime.IsHistory path home files events) (nonempty : sent ≠ [])
    (oneKey : ∀ write ∈ sent, write.key = undoneWrite.key ∧ write.value ≠ undoneWrite.value) :
    ¬ SwitchKeepsPrefix strategy := by
  intro keeps
  obtain ⟨table, flushed, held, isOpen, free, isStrategy, _, settled, recent, coupled, isSent,
    isKept, _⟩ := unsaved
  obtain ⟨info, switched, storing, _⟩ := coupled.store_perform free
  obtain ⟨count, opensPrefix⟩ := keeps path home files events history table switched _
    (.named (.asked isOpen) storing) isStrategy
  obtain ⟨_, _, located, _, _⟩ := (Lifetime.run_follows history).inUse isOpen
  have repeats := (coupled.durable_switched storing).1.reopens
  rw [located] at repeats
  have same := repeats.unique opensPrefix
  have isWrites : (Lifetime.run path files events).writes =
      sent ++ [undoneWrite] ++ [laterWrite] := by
    rw [Lifetime.writes, settled, recent]
    simp
  rw [isWrites, List.nil_append, List.map_append, isSent, isKept] at same
  have otherKey : laterWrite.key ≠ undoneWrite.key := by decide
  apply mapAfter_take_ne nonempty oneKey otherKey count
  rw [← same]
  simp

theorem not_switchKeepsPrefix_of_several {count : Nat} (several : 3 ≤ count) :
    ¬ SwitchKeepsPrefix (.everyEntries count) := by
  rcases Nat.lt_or_eq_of_le several with many | rfl
  · refine (unsaved_of_large many).not_switchKeepsPrefix ⟨emptyDirectory_empty, ?_, ?_⟩ (by simp) ?_
    · have fit : ∀ write ∈ [largeWrite, undoneWrite, laterWrite], write.Fits :=
        List.forall_mem_cons.mpr ⟨largeWrite_fits, by decide⟩
      exact Event.fit_of_writes fit
    · change [largeWrite, undoneWrite, laterWrite].length < wordMax
      decide
    · intro write member
      rw [List.mem_singleton.mp member]
      have longer : largeWrite.value ≠ undoneWrite.value := fun same => by
        have lengths := congrArg List.length same
        rw [largeWrite, List.length_replicate] at lengths
        cases lengths
      exact ⟨rfl, longer⟩
  · refine unsaved_of_three.not_switchKeepsPrefix ⟨emptyDirectory_empty, ?_, by decide⟩ (by simp) ?_
    · exact Event.fit_of_writes (by decide)
    · intro write member
      simp only [List.mem_cons, List.not_mem_nil, or_false, or_self] at member
      rw [member]
      decide

/-- Losing everything in memory at a switch makes the writes in the file of the log once more over
all writes. That is a first part of the writes in all histories if and only if the sync strategy
never lets two writes wait. -/
theorem switch_keeps_prefix_iff (strategy : SyncStrategy) :
    (∀ path home files events, Lifetime.IsHistory path home files events →
      ∀ table switched writes, (Lifetime.run path files events).Switched table switched writes →
        table.options.strategy = strategy →
          ∃ settled kept logged, settled ++ (logged.map LogEntry.write ++ kept) = writes ∧
            kept.length ≤ strategy.window ∧
            switched.read (Path.join path TableOptions.logName) = .ok (LogEntry.frames logged) ∧
            Reopens path switched (mapAfter (writes ++ logged.map LogEntry.write))) ∧
    (SwitchKeepsPrefix strategy ↔ strategy.window ≤ 1) := by
  refine ⟨fun path home files events history table switched writes dies isStrategy => ?_, ?_, ?_⟩
  · exact isStrategy ▸ switched_reopens history dies
  · intro keeps
    apply Classical.byContradiction
    intro several
    cases strategy with
    | everyWrite => exact several (Nat.zero_le 1)
    | everyEntries count =>
        rw [SyncStrategy.window] at several
        exact not_switchKeepsPrefix_of_several (by omega) keeps
  · intro short path home files events history table switched writes dies isStrategy
    obtain ⟨settled, kept, logged, rfl, few, _, reopens⟩ := switched_reopens history dies
    obtain ⟨count, same⟩ := mapAfter_repeated settled (logged.map LogEntry.write) kept
      (Nat.le_trans (isStrategy ▸ few) short)
    exact ⟨count, same ▸ reopens⟩

end RowStore
