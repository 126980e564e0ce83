import RowStore.Proofs.Table.Operations

/-!
Histories of a directory that starts out empty, with one table open on it at a time. Every event
keeps the directory in step with the writes made so far, and so by induction does every history,
whatever checkpoints were made or failed and however often the table was reopened.
-/

namespace RowStore

open FileSystem

/-- What is done to the directory of a table. An event that does not apply, such as a write while no
table is open, is passed over. -/
inductive Event
  | openTable (pages : Nat) (strategy : SyncStrategy)
  | put (write : Write)
  | checkpoint
  | close
  /-- Give the table up without closing it. -/
  | abandon
  /-- Make a directory under the temporary name, in the way of every snapshot. -/
  | obstruct
  /-- Remove that directory. -/
  | clear

namespace Event

def write? : Event → Option Write
  | put write => some write
  | openTable _ _ | checkpoint | close | abandon | obstruct | clear => none

/-- To check the writes that are listed is to check all. -/
theorem fit_of_writes {events : List Event}
    (fit : ∀ write ∈ events.filterMap write?, write.Fits) (write : Write)
    (member : put write ∈ events) : write.Fits :=
  fit write (List.mem_filterMap.mpr ⟨put write, member, rfl⟩)

end Event

/-- What the events alone determine: whether a table is open, and the writes made so far. -/
structure Outline where
  isOpen : Bool := false
  writes : List Write := []

namespace Outline

def step (outline : Outline) : Event → Outline
  | .openTable _ _ => { outline with isOpen := true }
  | .put write =>
    if outline.isOpen then { outline with writes := outline.writes ++ [write] } else outline
  | .close | .abandon => { outline with isOpen := false }
  | .checkpoint | .obstruct | .clear => outline

def ofEvents (events : List Event) : Outline :=
  events.foldl step {}

theorem ofEvents_concat (events : List Event) (event : Event) :
    ofEvents (events ++ [event]) = (ofEvents events).step event := by
  rw [ofEvents, List.foldl_append]
  rfl

theorem length_writes_le_step (outline : Outline) (event : Event) :
    outline.writes.length ≤ (outline.step event).writes.length := by
  cases event with
  | put write =>
      simp only [step]
      split
      · simp
      · exact Nat.le_refl _
  | openTable | checkpoint | close | abandon | obstruct | clear => exact Nat.le_refl _

end Outline

/-- The directory of a table in the course of time. -/
structure Lifetime where
  files : FileSystem
  table : Option Table := none
  /-- The writes up to the last checkpoint. -/
  settled : List Write := []
  /-- The writes since the last checkpoint. -/
  recent : List Write := []

namespace Lifetime

def writes (life : Lifetime) : List Write :=
  life.settled ++ life.recent

/-- What a checkpoint does to the record of the writes. -/
def settle (life : Lifetime) : Lifetime :=
  { life with settled := life.writes, recent := [] }

def openTable (life : Lifetime) (options : TableOptions) : Lifetime :=
  match (Table.openAt options).perform life.files with
  | (.ok table, files) => { life with files, table := some table }
  | (.error _, files) => { life with files }

def put (life : Lifetime) (table : Table) (write : Write) : Lifetime :=
  let written : Lifetime :=
    match (table.put write.key write.value write.timestamp).perform life.files with
    | (.ok next, files) =>
      { life with files, table := some next, recent := life.recent ++ [write] }
    | (.error _, files) => { life with files }
  if table.putSettles write life.files then written.settle else written

def checkpoint (life : Lifetime) (table : Table) : Lifetime :=
  match table.checkpoint.perform life.files with
  | (.ok (_, saved), files) => { life with files, table := some saved }.settle
  | (.error _, files) => { life with files }

/-- A closing that succeeds has made a checkpoint if the log counted for any bytes. -/
def close (life : Lifetime) (table : Table) : Lifetime :=
  match table.close.perform life.files with
  | (.ok (), files) =>
    let closed : Lifetime := { life with files, table := none }
    if table.dirty = 0 then closed else closed.settle
  | (.error _, files) => { life with files, table := none }

def abandon (life : Lifetime) (table : Table) : Lifetime :=
  { life with files := table.abandoned life.files, table := none }

def obstruct (life : Lifetime) (path : String) : Lifetime :=
  let steps := Path.steps (Path.join path TableOptions.temporaryName)
  { life with files := (life.files.makeDirectorySteps steps).toOption.getD life.files }

def clear (life : Lifetime) (path : String) : Lifetime :=
  let temporaryPath := Path.join path TableOptions.temporaryName
  { life with files := (life.files.removeDirectory temporaryPath).toOption.getD life.files }

def stepClosed (path : String) (life : Lifetime) : Event → Lifetime
  | .openTable pages strategy => life.openTable { path, pages, strategy }
  | .obstruct => life.obstruct path
  | .clear => life.clear path
  | .put _ | .checkpoint | .close | .abandon => life

def stepOpen (path : String) (life : Lifetime) (table : Table) : Event → Lifetime
  | .put write => life.put table write
  | .checkpoint => life.checkpoint table
  | .close => life.close table
  | .abandon => life.abandon table
  | .obstruct => life.obstruct path
  | .clear => life.clear path
  | .openTable _ _ => life

def step (path : String) (life : Lifetime) (event : Event) : Lifetime :=
  match life.table with
  | none => life.stepClosed path event
  | some table => life.stepOpen path table event

def run (path : String) (files : FileSystem) (events : List Event) : Lifetime :=
  events.foldl (step path) { files }

theorem run_concat (path : String) (files : FileSystem) (events : List Event) (event : Event) :
    run path files (events ++ [event]) = (run path files events).step path event := by
  rw [run, List.foldl_append]
  rfl

section

variable {life : Lifetime} {table : Table}

theorem step_closed (closed : life.table = none) (path : String) (event : Event) :
    life.step path event = life.stepClosed path event := by
  unfold step
  rw [closed]

theorem step_open (isOpen : life.table = some table) (path : String) (event : Event) :
    life.step path event = life.stepOpen path table event := by
  unfold step
  rw [isOpen]

theorem checkpoint_saved {info : SnapshotInfo} {saved : Table} {after : FileSystem}
    (saves : table.checkpoint.perform life.files = (.ok (info, saved), after)) :
    life.checkpoint table =
      ({ life with files := after, table := some saved } : Lifetime).settle := by
  unfold checkpoint
  rw [saves]

theorem checkpoint_refused {fault : Fault}
    (refused : table.checkpoint.perform life.files = (.error fault, life.files)) :
    life.checkpoint table = life := by
  unfold checkpoint
  rw [refused]

end

/-- Events in a directory that starts out empty, with writes that fit their frames and are few
enough to be numbered. -/
structure IsHistory (path : String) (home : Location) (files : FileSystem) (events : List Event) :
    Prop where
  vacant : files.EmptyDirectory path home
  fit : ∀ write, Event.put write ∈ events → write.Fits
  few : (Outline.ofEvents events).writes.length < wordMax

/-- A directory in step with the writes made so far, at rest or with a table open on it. -/
inductive InStep (path : String) (home : Location) (life : Lifetime) : Prop
  | atRest (logged : List LogEntry) (closed : life.table = none)
      (recent : logged.map LogEntry.write = life.recent)
      (rests : AtRest life.files path home life.settled logged)
  | inUse (table : Table) (flushed held : List LogEntry) (isOpen : life.table = some table)
      (located : table.options.path = path)
      (recent : (flushed ++ held).map LogEntry.write = life.recent)
      (coupled : Coupled table life.files home life.settled flushed held)

/-- A directory in step with the writes, and the writes those of the events. -/
structure Follows (path : String) (home : Location) (life : Lifetime) (outline : Outline) :
    Prop where
  inStep : InStep path home life
  writes : life.writes = outline.writes
  isOpen : life.table.isSome = outline.isOpen

variable {path : String} {home : Location} {life : Lifetime} {outline : Outline} {table : Table}
  {write : Write} {files : FileSystem} {events : List Event}

theorem Follows.atRest (follows : Follows path home life outline) (closed : life.table = none) :
    ∃ logged, logged.map LogEntry.write = life.recent ∧
      AtRest life.files path home life.settled logged := by
  cases follows.inStep with
  | atRest logged _ recent rests => exact ⟨logged, recent, rests⟩
  | inUse table flushed held isOpen _ _ _ => cases isOpen.symm.trans closed

theorem Follows.inUse (follows : Follows path home life outline)
    (isOpen : life.table = some table) :
    ∃ flushed held, table.options.path = path ∧
      (flushed ++ held).map LogEntry.write = life.recent ∧
      Coupled table life.files home life.settled flushed held := by
  cases follows.inStep with
  | atRest logged closed _ _ => cases isOpen.symm.trans closed
  | inUse other flushed held otherOpen located recent coupled =>
      cases isOpen.symm.trans otherOpen
      exact ⟨flushed, held, located, recent, coupled⟩

theorem Follows.length_eq (follows : Follows path home life outline) {logged : List LogEntry}
    (recent : logged.map LogEntry.write = life.recent) :
    life.settled.length + logged.length = outline.writes.length := by
  rw [← follows.writes, Lifetime.writes, List.length_append, ← recent, List.length_map]

theorem Follows.openTable (follows : Follows path home life outline) (closed : life.table = none)
    (pages : Nat) (strategy : SyncStrategy) :
    Follows path home (life.openTable { path, pages, strategy })
      { outline with isOpen := true } := by
  obtain ⟨logged, recent, rests⟩ := follows.atRest closed
  obtain ⟨table, opened, opening, on, coupled⟩ :=
    AtRest.openAt_perform { path, pages, strategy } rests
  rw [Lifetime.openTable, opening]
  exact {
    inStep := .inUse table logged [] rfl (by rw [on.options_eq]) (by rw [List.append_nil, recent])
      coupled
    writes := follows.writes
    isOpen := rfl }

theorem Follows.put (follows : Follows path home life outline) (isOpen : life.table = some table)
    (fits : write.Fits) (few : outline.writes.length + 1 < wordMax) :
    Follows path home (life.put table write)
      { outline with writes := outline.writes ++ [write] } := by
  obtain ⟨flushed, held, located, recent, coupled⟩ := follows.inUse isOpen
  have openOutline : outline.isOpen = true := by rw [← follows.isOpen, isOpen]; rfl
  have room : life.settled.length + (flushed ++ held).length + 1 < wordMax := by
    rw [follows.length_eq recent]
    exact few
  have written : life.writes ++ [write] = outline.writes ++ [write] := by rw [follows.writes]
  obtain ⟨next, after, flushed', held', putting, same, ends⟩ := coupled.put_perform fits room
  rw [recent] at ends
  rcases ends with ⟨settles, empty, nextCoupled⟩ | ⟨stays, nextRecent, nextCoupled⟩
  · rw [Lifetime.put, putting, settles, if_pos rfl]
    rw [← List.append_assoc] at nextCoupled
    exact {
      inStep := .inUse next flushed' held' rfl (same ▸ located) (by rw [empty]; rfl)
        (by simpa [settle, Lifetime.writes] using nextCoupled)
      writes := by simpa [settle, Lifetime.writes] using written
      isOpen := openOutline.symm }
  · rw [Lifetime.put, putting, stays, if_neg Bool.false_ne_true]
    exact {
      inStep := .inUse next flushed' held' rfl (same ▸ located) nextRecent nextCoupled
      writes := by simpa [Lifetime.writes] using written
      isOpen := openOutline.symm }

theorem Follows.checkpoint (follows : Follows path home life outline)
    (isOpen : life.table = some table) : Follows path home (life.checkpoint table) outline := by
  obtain ⟨flushed, held, located, recent, coupled⟩ := follows.inUse isOpen
  by_cases blocked : life.files.node? (home ++ [TableOptions.temporaryName]) = some .directory
  · rw [checkpoint_refused (coupled.checkpoint_refused blocked)]
    exact follows
  · obtain ⟨info, saved, after, checkpointing, same, savedCoupled⟩ :=
      coupled.checkpoint_perform blocked
    rw [recent] at savedCoupled
    rw [checkpoint_saved checkpointing]
    exact {
      inStep := .inUse saved [] [] rfl (by rw [same, located]) rfl savedCoupled
      writes := by simpa [settle, Lifetime.writes] using follows.writes
      isOpen := by rw [← follows.isOpen, isOpen]; rfl }

theorem Follows.close (follows : Follows path home life outline)
    (isOpen : life.table = some table) :
    Follows path home (life.close table) { outline with isOpen := false } := by
  obtain ⟨flushed, held, located, recent, coupled⟩ := follows.inUse isOpen
  obtain ⟨outcome, after, closing, ends⟩ := coupled.close_perform
  rw [recent, located] at ends
  rcases ends with ⟨rfl, dirty, rests⟩ | ⟨notSettled, rests⟩
  · rw [Lifetime.close, closing]
    simp only [if_neg dirty]
    exact {
      inStep := .atRest [] rfl rfl rests
      writes := by simpa [settle, Lifetime.writes] using follows.writes
      isOpen := rfl }
  · have stays : Follows path home { life with files := after, table := none }
        { outline with isOpen := false } :=
      { inStep := .atRest (flushed ++ held) rfl recent rests
        writes := follows.writes
        isOpen := rfl }
    rw [Lifetime.close, closing]
    cases outcome with
    | error fault => exact stays
    | ok =>
        have clean : table.dirty = 0 := Classical.not_not.mp fun dirty => notSettled ⟨rfl, dirty⟩
        simp only [if_pos clean]
        exact stays

theorem Follows.abandon (follows : Follows path home life outline)
    (isOpen : life.table = some table) :
    Follows path home (life.abandon table) { outline with isOpen := false } := by
  obtain ⟨flushed, held, located, recent, coupled⟩ := follows.inUse isOpen
  exact {
    inStep := .atRest (flushed ++ held) rfl recent (located ▸ coupled.abandoned)
    writes := follows.writes
    isOpen := rfl }

theorem Follows.of_changesOnly {after : FileSystem} (follows : Follows path home life outline)
    (changes : ChangesOnly home TableOptions.temporaryName life.files after) :
    Follows path home { life with files := after } outline where
  inStep := by
    cases follows.inStep with
    | atRest logged closed recent rests =>
        exact .atRest logged closed recent (rests.of_changesOnly changes)
    | inUse table flushed held isOpen located recent coupled =>
        exact .inUse table flushed held isOpen located recent (coupled.of_changesOnly changes)
  writes := follows.writes
  isOpen := follows.isOpen

theorem InStep.directoryAt (inStep : InStep path home life) : life.files.DirectoryAt path home := by
  cases inStep with
  | atRest _ _ _ rests => exact rests.directory
  | inUse _ _ _ _ located _ coupled => exact located ▸ coupled.directory

theorem Follows.obstruct (follows : Follows path home life outline) :
    Follows path home (life.obstruct path) outline :=
  follows.of_changesOnly
    (follows.inStep.directoryAt.changesOnly_makeDirectory TableOptions.temporaryName_isName)

theorem Follows.clear (follows : Follows path home life outline) :
    Follows path home (life.clear path) outline :=
  follows.of_changesOnly
    (follows.inStep.directoryAt.changesOnly_removeDirectory TableOptions.temporaryName_isName)

theorem InStep.follows (inStep : InStep path home life) :
    Follows path home life { isOpen := life.table.isSome, writes := life.writes } :=
  ⟨inStep, rfl, rfl⟩

theorem InStep.opening (inStep : InStep path home life) (closed : life.table = none)
    (pages : Nat) (strategy : SyncStrategy) :
    ∃ table after, (Table.openAt { path, pages, strategy }).perform life.files =
        (.ok table, after.files) ∧
      after.table = some table ∧ InStep path home after ∧ after.writes = life.writes := by
  have next := inStep.follows.openTable closed pages strategy
  obtain ⟨logged, _, rests⟩ := inStep.follows.atRest closed
  obtain ⟨table, opened, opening, _⟩ := AtRest.openAt_perform { path, pages, strategy } rests
  rw [Lifetime.openTable, opening] at next
  exact ⟨table, _, opening, rfl, next.inStep, next.writes⟩

theorem InStep.putting (inStep : InStep path home life) (isOpen : life.table = some table)
    (fits : write.Fits) (few : life.writes.length + 1 < wordMax) :
    ∃ next after, (table.put write.key write.value write.timestamp).perform life.files =
        (.ok next, after.files) ∧
      after.table = some next ∧ InStep path home after ∧
      after.writes = life.writes ++ [write] := by
  have follows := inStep.follows.put isOpen fits few
  obtain ⟨flushed, held, _, recent, coupled⟩ := inStep.follows.inUse isOpen
  rw [← inStep.follows.length_eq recent] at few
  obtain ⟨next, files, _, _, putting, _⟩ := coupled.put_perform fits few
  rw [Lifetime.put, putting] at follows
  refine ⟨next, _, ?_, ?_, follows.inStep, follows.writes⟩
  · rw [putting]
    split <;> rfl
  · split <;> rfl

theorem InStep.closing (inStep : InStep path home life) (isOpen : life.table = some table) :
    ∃ outcome after, table.close.perform life.files = (outcome, after.files) ∧
      after.table = none ∧ InStep path home after ∧ after.writes = life.writes := by
  have follows := inStep.follows.close isOpen
  cases closing : table.close.perform life.files with
  | mk outcome files =>
      rw [Lifetime.close, closing] at follows
      refine ⟨outcome, _, ?_, ?_, follows.inStep, follows.writes⟩
      · cases outcome with
        | error fault => rfl
        | ok =>
            dsimp only
            split <;> rfl
      · cases outcome with
        | error fault => rfl
        | ok =>
            dsimp only
            split <;> rfl

theorem Follows.stepClosed (follows : Follows path home life outline) (closed : life.table = none)
    (event : Event) : Follows path home (life.stepClosed path event) (outline.step event) := by
  have notOpen : outline.isOpen = false := by rw [← follows.isOpen, closed]; rfl
  cases event with
  | openTable pages strategy => exact follows.openTable closed pages strategy
  | put write =>
      simp only [Outline.step, notOpen, Bool.false_eq_true, if_false]
      exact follows
  | close | abandon =>
      simp only [Outline.step, ← notOpen]
      exact follows
  | checkpoint => exact follows
  | obstruct => exact follows.obstruct
  | clear => exact follows.clear

theorem Follows.stepOpen (follows : Follows path home life outline)
    (isOpen : life.table = some table) (event : Event)
    (fit : ∀ write, event = .put write → write.Fits)
    (few : (outline.step event).writes.length < wordMax) :
    Follows path home (life.stepOpen path table event) (outline.step event) := by
  have already : outline.isOpen = true := by rw [← follows.isOpen, isOpen]; rfl
  cases event with
  | openTable pages strategy =>
      simp only [Outline.step, ← already]
      exact follows
  | put write =>
      simp only [Outline.step, already, if_true] at few ⊢
      rw [List.length_append, List.length_singleton] at few
      have written := follows.put isOpen (fit write rfl) few
      rwa [already] at written
  -- Said before it is used: unifying the two lives would run the operation.
  | checkpoint =>
      have saved := follows.checkpoint isOpen
      exact saved
  | close =>
      have closed := follows.close isOpen
      exact closed
  | abandon => exact follows.abandon isOpen
  | obstruct => exact follows.obstruct
  | clear => exact follows.clear

theorem Follows.step (follows : Follows path home life outline) (event : Event)
    (fit : ∀ write, event = .put write → write.Fits)
    (few : (outline.step event).writes.length < wordMax) :
    Follows path home (life.step path event) (outline.step event) := by
  cases found : life.table with
  | none =>
      rw [step_closed found]
      exact follows.stepClosed found event
  | some table =>
      rw [step_open found]
      exact follows.stepOpen found event fit few

/-- Every history from an empty directory keeps the directory in step with its events. -/
theorem run_follows (history : IsHistory path home files events) :
    Follows path home (run path files events) (Outline.ofEvents events) := by
  obtain ⟨vacant, fit, few⟩ := history
  induction events using List.reverseRecOn with
  | nil => exact ⟨.atRest [] rfl rfl vacant.atRest, rfl, rfl⟩
  | append_singleton earlier event ih =>
      rw [run_concat, Outline.ofEvents_concat] at *
      have fewEarlier := Nat.lt_of_le_of_lt (Outline.length_writes_le_step _ event) few
      have before := ih (fun write member => fit write (List.mem_append_left _ member)) fewEarlier
      exact before.step event (fun write same => fit write (by simp [same])) few

end Lifetime

end RowStore
