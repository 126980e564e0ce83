import RowStore.Proofs.Table.Coupling
import RowStore.Proofs.Table.Steps

namespace RowStore

/-- What is done to an open table, with the files that it finds. Nothing is said of what others do
to the files in between, so that any checkpoint may be made or may fail. -/
inductive TableUse
  | put (write : Write) (found : FileSystem)
  | checkpoint (found : FileSystem)

/-- What has become of a use. -/
inductive UseOutcome
  /-- The write has not been made. -/
  | refused
  /-- A write of so many bytes, and whether the checkpoint that was due by then has been made. -/
  | written (bytes : Nat) (checkpoint : Option Bool)
  /-- A checkpoint that was asked for has been made or has failed. -/
  | asked (made : Bool)
  deriving DecidableEq

namespace UseOutcome

/-- The bytes of keys and values that have been logged. -/
def bytes : UseOutcome → Nat
  | written bytes _ => bytes
  | refused | asked _ => 0

def isWritten : UseOutcome → Bool
  | written _ _ => true
  | refused | asked _ => false

/-- A write has tried a checkpoint. -/
def tries : UseOutcome → Bool
  | written _ (some _) => true
  | written _ none | refused | asked _ => false

/-- A checkpoint has been made, by a write or on request. -/
def saves : UseOutcome → Bool
  | written _ (some made) | asked made => made
  | written _ none | refused => false

/-- A checkpoint has been tried, by a write or on request, and has failed. -/
def fails : UseOutcome → Bool
  | written _ (some made) | asked made => !made
  | written _ none | refused => false

/-- The bytes logged since the last checkpoint that has been made, when so many had been logged
before the first of the outcomes. -/
def since (before : Nat) (outcomes : List UseOutcome) : Nat :=
  outcomes.foldl (fun bytes outcome => if outcome.saves then 0 else bytes + outcome.bytes) before

theorem since_concat (before : Nat) (outcomes : List UseOutcome) (outcome : UseOutcome) :
    since before (outcomes ++ [outcome]) =
      if outcome.saves then 0 else since before outcomes + outcome.bytes := by
  rw [since, List.foldl_append]
  rfl

end UseOutcome

namespace Table

/-- A write together with the outcome of the checkpoint, if one was tried. -/
def putReporting (table : Table) (write : Write) :
    Disk (Option (Except Fault SnapshotInfo) × Table) := do
  let recorded ← table.record write.key write.value write.timestamp
  recorded.checkpointIfDue

def usePut (table : Table) (write : Write) (found : FileSystem) : UseOutcome × Table :=
  match (table.putReporting write).perform found with
  | (.ok (tried, next), _) => (.written write.weight (tried.map Except.isOk), next)
  | (.error _, _) => (.refused, table)

def useCheckpoint (table : Table) (found : FileSystem) : UseOutcome × Table :=
  match table.checkpoint.perform found with
  | (.ok (_, saved), _) => (.asked true, saved)
  | (.error _, _) => (.asked false, table)

def use (table : Table) : TableUse → UseOutcome × Table
  | .put write found => table.usePut write found
  | .checkpoint found => table.useCheckpoint found

/-- The table after several uses in turn. -/
def after (table : Table) (uses : List TableUse) : Table :=
  uses.foldl (fun table use => (table.use use).2) table

/-- What becomes of several uses in turn. -/
def outcomes (table : Table) : List TableUse → List UseOutcome
  | [] => []
  | use :: rest => (table.use use).1 :: (table.use use).2.outcomes rest

variable {table recorded next : Table} {write : Write} {found logged left : FileSystem}
  {options : TableOptions} {outcome : UseOutcome} {uses earlier later : List TableUse}

theorem after_append (table : Table) (earlier later : List TableUse) :
    table.after (earlier ++ later) = (table.after earlier).after later :=
  List.foldl_append

theorem after_concat (table : Table) (earlier : List TableUse) (use : TableUse) :
    table.after (earlier ++ [use]) = ((table.after earlier).use use).2 :=
  table.after_append earlier [use]

theorem outcomes_append (table : Table) (earlier later : List TableUse) :
    table.outcomes (earlier ++ later) =
      table.outcomes earlier ++ (table.after earlier).outcomes later := by
  induction earlier generalizing table with
  | nil => rfl
  | cons use rest ih =>
      rw [List.cons_append, outcomes, ih, outcomes, List.cons_append]
      rfl

theorem outcomes_concat (table : Table) (earlier : List TableUse) (use : TableUse) :
    table.outcomes (earlier ++ [use]) =
      table.outcomes earlier ++ [((table.after earlier).use use).1] :=
  table.outcomes_append earlier [use]

theorem record_refused (table : Table) (found : FileSystem) (unfit : ¬ write.Fits) :
    ∃ fault, (table.record write.key write.value write.timestamp).perform found =
      (.error fault, found) := by
  have refused : (table.log.append write.key write.value write.timestamp).perform found =
      (.error .frameTooLarge, found) :=
    LogWriter.append_refused found
      fun fits => unfit (write.fits_iff.mpr ((LogEntry.fits_iff _).mp fits))
  exact ⟨.frameTooLarge, by simp only [record, Disk.perform_bind, refused]⟩

theorem record_fits (table : Table) (found : FileSystem) (fits : write.Fits) :
    ∃ log logged, (table.record write.key write.value write.timestamp).perform found =
        (.ok (table.recorded write.key write.value log), logged) ∧
      table.log.Appends (LogEntry.framed (write.entry table.log.nextLsn).payload) found log
        logged := by
  obtain ⟨log, logged, appending, appends⟩ := LogWriter.append_appends found
    (rfl : write.entry table.log.nextLsn = _) (Write.fits_entry fits _)
  refine ⟨log, logged, ?_, appends⟩
  simp only [record, Disk.perform_bind, appending]
  rfl

/-- How a write ends that has been recorded: no checkpoint is due, or one has been made, or one has
failed. -/
inductive Ends (recorded : Table) (logged : FileSystem) :
    Option Bool → Table → FileSystem → Prop
  | early (below : recorded.dirty < recorded.checkpointAt) : Ends recorded logged none recorded logged
  | saved {info : SnapshotInfo} {left : FileSystem}
      (isDue : recorded.checkpointAt ≤ recorded.dirty)
      (made : recorded.checkpoint.perform logged = (.ok (info, recorded.checkpointed), left)) :
      Ends recorded logged (some true) recorded.checkpointed left
  | postponed {fault : Fault} {left : FileSystem}
      (isDue : recorded.checkpointAt ≤ recorded.dirty)
      (failed : recorded.checkpoint.perform logged = (.error fault, left)) :
      Ends recorded logged (some false) recorded.postponed left

theorem checkpointIfDue_ends (recorded : Table) (logged : FileSystem) :
    ∃ tried next left, recorded.checkpointIfDue.perform logged = (.ok (tried, next), left) ∧
      recorded.Ends logged (tried.map Except.isOk) next left := by
  by_cases below : recorded.dirty < recorded.checkpointAt
  · refine ⟨none, recorded, logged, ?_, .early below⟩
    simp only [checkpointIfDue, below, if_true, Disk.perform_pure]
  · have isDue := Nat.not_lt.mp below
    cases checkpointing : recorded.checkpoint.perform logged with
    | mk outcome left =>
        cases outcome with
        | ok saved =>
            obtain ⟨info, next⟩ := saved
            obtain rfl := checkpoint_eq_ok checkpointing
            refine ⟨some (.ok info), _, left, ?_, .saved isDue checkpointing⟩
            simp only [checkpointIfDue, below, if_false, Disk.perform_bind, Disk.perform_attempt,
              checkpointing, Disk.perform_pure]
        | error fault =>
            refine ⟨some (.error fault), _, left, ?_, .postponed isDue checkpointing⟩
            simp only [checkpointIfDue, below, if_false, Disk.perform_bind, Disk.perform_attempt,
              checkpointing, Disk.perform_pure]

theorem put_ends
    (recording : (table.record write.key write.value write.timestamp).perform found =
      (.ok recorded, logged)) :
    ∃ tried next left, table.usePut write found = (.written write.weight tried, next) ∧
      (table.put write.key write.value write.timestamp).perform found = (.ok next, left) ∧
      recorded.Ends logged tried next left := by
  obtain ⟨tried, next, left, checkpointing, ends⟩ := checkpointIfDue_ends recorded logged
  refine ⟨_, next, left, ?_, ?_, ends⟩
  · simp only [usePut, putReporting, Disk.perform_bind, recording, checkpointing]
  · simp only [put, Disk.perform_bind, recording, checkpointing, Disk.perform_pure]

theorem written_of_fits (table : Table) (found : FileSystem) (fits : write.Fits) :
    ∃ tried next, table.use (.put write found) = (.written write.weight tried, next) := by
  obtain ⟨log, logged, recording, _⟩ := table.record_fits found fits
  obtain ⟨tried, next, _, written, _, _⟩ := put_ends recording
  exact ⟨tried, next, written⟩

theorem usePut_refused (table : Table) (found : FileSystem) (unfit : ¬ write.Fits) :
    table.usePut write found = (.refused, table) := by
  obtain ⟨fault, refused⟩ := table.record_refused found unfit
  simp only [usePut, putReporting, Disk.perform_bind, refused]

/-- What a use does to the bytes that count as dirty and to the threshold. -/
inductive Turns (table : Table) : UseOutcome → Table → Prop
  | refused : Turns table .refused table
  | early {bytes : Nat} {next : Table} (below : table.dirty + bytes < table.checkpointAt)
      (options : next.options = table.options) (dirty : next.dirty = table.dirty + bytes)
      (checkpointAt : next.checkpointAt = table.checkpointAt) :
      Turns table (.written bytes none) next
  | saved {bytes : Nat} {next : Table} (isDue : table.checkpointAt ≤ table.dirty + bytes)
      (options : next.options = table.options) (dirty : next.dirty = 0)
      (checkpointAt : next.checkpointAt = table.options.poolBytes) :
      Turns table (.written bytes (some true)) next
  | postponed {bytes : Nat} {next : Table} (isDue : table.checkpointAt ≤ table.dirty + bytes)
      (options : next.options = table.options) (dirty : next.dirty = table.dirty + bytes)
      (checkpointAt : next.checkpointAt =
        saturated (table.dirty + bytes + table.options.poolBytes)) :
      Turns table (.written bytes (some false)) next
  | asked {next : Table} (options : next.options = table.options) (dirty : next.dirty = 0)
      (checkpointAt : next.checkpointAt = table.options.poolBytes) :
      Turns table (.asked true) next
  | denied : Turns table (.asked false) table

theorem turns_usePut (table : Table) (write : Write) (found : FileSystem) :
    table.Turns (table.usePut write found).1 (table.usePut write found).2 := by
  by_cases fits : write.Fits
  · obtain ⟨log, logged, recording, _⟩ := table.record_fits found fits
    obtain ⟨tried, next, left, written, _, ends⟩ := put_ends recording
    rw [written]
    cases ends with
    | early below => exact .early below rfl rfl rfl
    | saved isDue => exact .saved isDue rfl rfl rfl
    | postponed isDue => exact .postponed isDue rfl rfl rfl
  · rw [table.usePut_refused found fits]
    exact .refused

theorem useCheckpoint_cases (table : Table) (found : FileSystem) :
    (∃ info left, table.checkpoint.perform found = (.ok (info, table.checkpointed), left) ∧
      table.useCheckpoint found = (.asked true, table.checkpointed)) ∨
    ∃ fault left, table.checkpoint.perform found = (.error fault, left) ∧
      table.useCheckpoint found = (.asked false, table) := by
  unfold useCheckpoint
  split
  · rename_i checkpointing
    obtain rfl := checkpoint_eq_ok checkpointing
    exact Or.inl ⟨_, _, checkpointing, rfl⟩
  · rename_i checkpointing
    exact Or.inr ⟨_, _, checkpointing, rfl⟩

theorem useCheckpoint_failed {fault : Fault}
    (failing : table.checkpoint.perform found = (.error fault, left)) :
    table.useCheckpoint found = (.asked false, table) := by
  rcases table.useCheckpoint_cases found with ⟨_, _, made, _⟩ | ⟨_, _, _, denied⟩
  · cases made.symm.trans failing
  · exact denied

theorem turns_useCheckpoint (table : Table) (found : FileSystem) :
    table.Turns (table.useCheckpoint found).1 (table.useCheckpoint found).2 := by
  rcases table.useCheckpoint_cases found with ⟨_, _, _, asked⟩ | ⟨_, _, _, denied⟩
  · rw [asked]
    exact .asked rfl rfl rfl
  · rw [denied]
    exact .denied

theorem turns_use (table : Table) (use : TableUse) :
    table.Turns (table.use use).1 (table.use use).2 := by
  cases use with
  | put write found => exact table.turns_usePut write found
  | checkpoint found => exact table.turns_useCheckpoint found

namespace Turns

theorem options_eq (turns : table.Turns outcome next) : next.options = table.options := by
  cases turns <;> first | rfl | assumption

theorem dirty_eq (turns : table.Turns outcome next) :
    next.dirty = if outcome.saves then 0 else table.dirty + outcome.bytes := by
  cases turns <;> first | rfl | assumption

theorem checkpointAt_cases (turns : table.Turns outcome next) (unfailed : outcome.fails = false) :
    next.checkpointAt = table.checkpointAt ∨ next.checkpointAt = table.options.poolBytes := by
  cases turns with
  | refused => exact Or.inl rfl
  | early _ _ _ same => exact Or.inl same
  | saved _ _ _ pool => exact Or.inr pool
  | postponed => cases unfailed
  | asked _ _ pool => exact Or.inr pool
  | denied => cases unfailed

/-- The dirty bytes are below the threshold after every write, and stay there. -/
theorem below (turns : table.Turns outcome next) (positive : 0 < table.options.poolBytes)
    (bounded : table.dirty + outcome.bytes + table.options.poolBytes < wordLimit)
    (started : outcome.isWritten = true ∨ table.dirty < table.checkpointAt) :
    next.dirty < next.checkpointAt := by
  cases turns with
  | refused => exact started.resolve_left Bool.false_ne_true
  | early under _ dirty same => rw [dirty, same]; exact under
  | saved _ _ dirty pool => rw [dirty, pool]; exact positive
  | postponed _ _ dirty later =>
      have enough := saturated_of_lt bounded
      rw [UseOutcome.bytes] at enough
      rw [dirty, later, enough]
      exact Nat.lt_add_of_pos_right positive
  | asked _ dirty pool => rw [dirty, pool]; exact positive
  | denied => exact started.resolve_left Bool.false_ne_true

end Turns

/-- A table that began with so many dirty bytes and has been used with these outcomes since. -/
structure OnTime (options : TableOptions) (before : Nat) (table : Table)
    (outcomes : List UseOutcome) : Prop where
  options_eq : table.options = options
  dirty : table.dirty = UseOutcome.since before outcomes
  within : table.dirty ≤ before + total UseOutcome.bytes outcomes
  unfailed : (∀ outcome ∈ outcomes, outcome.fails = false) →
    table.checkpointAt = options.poolBytes
  below : (∃ outcome ∈ outcomes, outcome.isWritten = true) → table.dirty < table.checkpointAt

theorem openAt_onTime {files opened : FileSystem}
    (opening : (openAt options).perform files = (.ok table, opened)) :
    OnTime options table.dirty table [] := by
  obtain ⟨_, _, _, _, _, _, _, _, _, _, rfl⟩ := exists_of_openAt opening
  exact ⟨rfl, rfl, Nat.le_refl _, fun _ => rfl, by simp⟩

theorem poolBytes_pos (paged : 1 ≤ options.pages) : 0 < options.poolBytes := by
  simp only [TableOptions.poolBytes, saturated, pageSize, wordMax]
  omega

theorem OnTime.step {before : Nat} {outcomes : List UseOutcome}
    (onTime : OnTime options before table outcomes) (turns : table.Turns outcome next)
    (positive : 0 < options.poolBytes)
    (bounded : options.poolBytes + before +
      total UseOutcome.bytes (outcomes ++ [outcome]) < wordLimit) :
    OnTime options before next (outcomes ++ [outcome]) := by
  obtain ⟨rfl, dirty, within, unfailed, below⟩ := onTime
  have nextDirty := turns.dirty_eq
  rw [total_append, total_cons, total_nil] at bounded
  refine ⟨turns.options_eq, ?_, ?_, fun unfailedNext => ?_, fun written => ?_⟩
  · rw [UseOutcome.since_concat, ← dirty, nextDirty]
  · rw [total_append, total_cons, total_nil, nextDirty]
    split <;> omega
  · obtain ⟨unfailedBefore, unfailedNow⟩ := List.forall_mem_append.mp unfailedNext
    rcases turns.checkpointAt_cases (unfailedNow outcome List.mem_cons_self) with same | pool
    · rw [same, unfailed unfailedBefore]
    · exact pool
  · refine turns.below positive (by omega) ?_
    obtain ⟨other, member, isWritten⟩ := written
    rcases List.mem_append.mp member with early | now
    · exact Or.inr (below ⟨other, early, isWritten⟩)
    · exact Or.inl (List.mem_singleton.mp now ▸ isWritten)

/-- A table keeps its times however it is used. -/
theorem OnTime.after {before : Nat} (onTime : OnTime options before table [])
    (positive : 0 < options.poolBytes) (uses : List TableUse)
    (bounded : options.poolBytes + before +
      total UseOutcome.bytes (table.outcomes uses) < wordLimit) :
    OnTime options before (table.after uses) (table.outcomes uses) := by
  induction uses using List.reverseRecOn with
  | nil => exact onTime
  | append_singleton earlier use ih =>
      rw [outcomes_concat] at bounded ⊢
      rw [after_concat]
      have fewer := bounded
      rw [total_append] at fewer
      exact (ih (by omega)).step (turns_use _ use) positive bounded

/-- The bound on a whole run bounds it up to each use. -/
theorem OnTime.during {before : Nat} (onTime : OnTime options before table [])
    (positive : 0 < options.poolBytes) {use : TableUse}
    (bounded : options.poolBytes + before +
      total UseOutcome.bytes (table.outcomes (earlier ++ use :: later)) < wordLimit) :
    OnTime options before (table.after earlier) (table.outcomes earlier) ∧
      options.poolBytes + before + total UseOutcome.bytes
        (table.outcomes earlier ++ [((table.after earlier).use use).1]) < wordLimit := by
  rw [outcomes_append, outcomes, total_append, total_cons] at bounded
  rw [total_append, total_cons, total_nil]
  exact ⟨onTime.after positive earlier (by omega), by omega⟩

/-- A table whose checkpoint has failed at so many dirty bytes, with these outcomes since. -/
structure Waits (pool failedAt : Nat) (table : Table) (outcomes : List UseOutcome) : Prop where
  dirty : table.dirty = failedAt + total UseOutcome.bytes outcomes
  checkpointAt : table.checkpointAt = failedAt + pool
  untried : ∀ outcome ∈ outcomes, outcome.tries = false

/-- The next try is made by the write that fills the budget. -/
theorem Turns.tries_iff {bytes : Nat} {tried : Option Bool}
    (turns : table.Turns (.written bytes tried) next) :
    tried ≠ none ↔ table.checkpointAt ≤ table.dirty + bytes := by
  cases turns with
  | early below => simpa using below
  | saved isDue => simpa using isDue
  | postponed isDue => simpa using isDue

theorem Waits.step {pool failedAt : Nat} {outcomes : List UseOutcome}
    (waits : Waits pool failedAt table outcomes) (turns : table.Turns outcome next)
    (unsaved : outcome ≠ .asked true)
    (few : total UseOutcome.bytes (outcomes ++ [outcome]) < pool) :
    Waits pool failedAt next (outcomes ++ [outcome]) := by
  obtain ⟨dirty, checkpointAt, untried⟩ := waits
  rw [total_append, total_cons, total_nil] at few
  have kept (now : outcome.tries = false) :
      ∀ other ∈ outcomes ++ [outcome], other.tries = false :=
    List.forall_mem_append.mpr ⟨untried, List.forall_mem_singleton.mpr now⟩
  cases turns with
  | refused => exact ⟨by simpa [UseOutcome.bytes] using dirty, checkpointAt, kept rfl⟩
  | early _ _ nextDirty same =>
      refine ⟨?_, same.trans checkpointAt, kept rfl⟩
      rw [nextDirty, dirty, total_append, total_cons, total_nil, UseOutcome.bytes]
      omega
  | saved isDue => simp only [UseOutcome.bytes] at few; omega
  | postponed isDue => simp only [UseOutcome.bytes] at few; omega
  | asked => exact absurd rfl unsaved
  | denied => exact ⟨by simpa [UseOutcome.bytes] using dirty, checkpointAt, kept rfl⟩

theorem Waits.after {pool failedAt : Nat} (waits : Waits pool failedAt table [])
    (uses : List TableUse) (unsaved : .asked true ∉ table.outcomes uses)
    (few : total UseOutcome.bytes (table.outcomes uses) < pool) :
    Waits pool failedAt (table.after uses) (table.outcomes uses) := by
  induction uses using List.reverseRecOn with
  | nil => exact waits
  | append_singleton earlier use ih =>
      rw [outcomes_concat] at unsaved few ⊢
      rw [after_concat]
      simp only [List.mem_append, List.mem_singleton, not_or] at unsaved
      have fewer := few
      rw [total_append] at fewer
      exact (ih unsaved.1 (by omega)).step (turns_use _ use) (Ne.symm unsaved.2) few

theorem Turns.waits {pool bytes : Nat} (turns : table.Turns (.written bytes (some false)) next)
    (isPool : table.options.poolBytes = pool) (bounded : table.dirty + bytes + pool < wordLimit) :
    Waits pool next.dirty next [] := by
  cases turns with
  | postponed _ _ dirty later =>
      rw [isPool, saturated_of_lt bounded, ← dirty] at later
      exact ⟨rfl, later, by simp⟩

theorem Waits.tries_iff {pool failedAt : Nat} {outcomes : List UseOutcome}
    (waits : Waits pool failedAt table outcomes) (found : FileSystem) (fits : write.Fits) :
    (table.use (.put write found)).1.tries = true ↔
      pool ≤ total UseOutcome.bytes outcomes + write.weight := by
  obtain ⟨tried, next, written⟩ := table.written_of_fits found fits
  have turns := table.turns_use (.put write found)
  rw [written] at turns
  have isTried : (UseOutcome.written write.weight tried).tries = true ↔ tried ≠ none := by
    cases tried <;> simp [UseOutcome.tries]
  rw [written, isTried, turns.tries_iff, waits.dirty, waits.checkpointAt, Nat.add_assoc,
    Nat.add_le_add_iff_left]

/-- A write on a table with so many bytes logged since its last checkpoint. It tries a checkpoint if
the bytes with its own reach the threshold, and only then, and leaves them below the threshold. -/
structure PutsOnTime (pool since : Nat) (table : Table) (write : Write) (found : FileSystem) :
    Prop where
  refused : ¬ write.Fits → table.use (.put write found) = (.refused, table)
  written : write.Fits → ∃ recorded logged tried next left,
    (table.record write.key write.value write.timestamp).perform found = (.ok recorded, logged) ∧
    (table.put write.key write.value write.timestamp).perform found = (.ok next, left) ∧
    table.use (.put write found) = (.written write.weight tried, next) ∧
    recorded.Ends logged tried next left ∧
    (tried ≠ none ↔ table.checkpointAt ≤ since + write.weight) ∧
    next.dirty < next.checkpointAt ∧
    (tried = some true → next.dirty = 0 ∧ next.checkpointAt = pool)

theorem OnTime.putsOnTime {before : Nat} {outcomes : List UseOutcome}
    (onTime : OnTime options before table outcomes) (positive : 0 < options.poolBytes)
    (write : Write) (found : FileSystem)
    (bounded : options.poolBytes + before + total UseOutcome.bytes
      (outcomes ++ [(table.use (.put write found)).1]) < wordLimit) :
    PutsOnTime options.poolBytes (UseOutcome.since before outcomes) table write found where
  refused := table.usePut_refused found
  written fits := by
    obtain ⟨log, logged, recording, _⟩ := table.record_fits found fits
    obtain ⟨tried, next, left, written, putting, ends⟩ := put_ends recording
    have turns := table.turns_usePut write found
    rw [use, written] at bounded
    rw [written] at turns
    have nextOnTime := onTime.step turns positive bounded
    refine ⟨_, logged, tried, next, left, recording, putting, written, ends, ?_,
      nextOnTime.below ⟨_, List.mem_concat_self, rfl⟩, ?_⟩
    · rw [← onTime.dirty]
      exact turns.tries_iff
    · rintro rfl
      cases turns with
      | saved _ _ dirty pool => exact ⟨dirty, by rw [pool, onTime.options_eq]⟩

/-- However a table is used and whichever of its checkpoints fail, a write tries one exactly if the
bytes logged since the last one reach the threshold, and they are below it after every write. A
checkpoint that is made takes both back to their beginning. After a write whose checkpoint has
failed, and until one is made on request, the next try comes with the write that fills another
budget. Without a failure the bytes stay below one budget. -/
theorem uses_space_checkpoints {files opened : FileSystem}
    (opening : (openAt options).perform files = (.ok table, opened)) (paged : 1 ≤ options.pages)
    (uses : List TableUse)
    (bounded : options.poolBytes + table.dirty +
      total UseOutcome.bytes (table.outcomes uses) < wordLimit) :
    (table.after uses).dirty = UseOutcome.since table.dirty (table.outcomes uses) ∧
    (∀ earlier write found later, uses = earlier ++ .put write found :: later →
      PutsOnTime options.poolBytes (UseOutcome.since table.dirty (table.outcomes earlier))
        (table.after earlier) write found) ∧
    (∀ earlier found later, uses = earlier ++ .checkpoint found :: later →
      let before := table.after earlier
      (∃ info saved left, before.checkpoint.perform found = (.ok (info, saved), left) ∧
        before.use (.checkpoint found) = (.asked true, saved) ∧
        saved.dirty = 0 ∧ saved.checkpointAt = options.poolBytes) ∨
      ∃ fault left, before.checkpoint.perform found = (.error fault, left) ∧
        before.use (.checkpoint found) = (.asked false, before)) ∧
    (∀ earlier write found middle later, uses = earlier ++ .put write found :: (middle ++ later) →
      let failed := (table.after earlier).use (.put write found)
      failed.1 = .written write.weight (some false) →
      .asked true ∉ failed.2.outcomes middle →
      total UseOutcome.bytes (failed.2.outcomes middle) < options.poolBytes →
      (∀ outcome ∈ failed.2.outcomes middle, outcome.tries = false) ∧
      ∀ next nextFound rest, later = .put next nextFound :: rest → next.Fits →
        (((failed.2.after middle).use (.put next nextFound)).1.tries = true ↔
          options.poolBytes ≤ total UseOutcome.bytes (failed.2.outcomes middle) + next.weight)) ∧
    ((∀ outcome ∈ table.outcomes uses, outcome.fails = false) →
      (∃ outcome ∈ table.outcomes uses, outcome.isWritten = true) →
      (table.after uses).dirty < options.poolBytes) := by
  have positive := poolBytes_pos paged
  have onTime := openAt_onTime opening
  have whole := onTime.after positive uses bounded
  refine ⟨whole.dirty, ?_, ?_, ?_, fun unfailed written => ?_⟩
  · rintro earlier write found later rfl
    obtain ⟨onTimeBefore, boundedBefore⟩ := onTime.during positive bounded
    exact onTimeBefore.putsOnTime positive write found boundedBefore
  · rintro earlier found later rfl before
    obtain ⟨onTimeBefore, _⟩ := onTime.during positive bounded
    rcases before.useCheckpoint_cases found with ⟨info, left, made, asked⟩ | refused
    · exact Or.inl ⟨info, _, left, made, asked, rfl,
        congrArg TableOptions.poolBytes onTimeBefore.options_eq⟩
    · exact Or.inr refused
  · rintro earlier write found middle later rfl failed isFailed unsaved few
    obtain ⟨onTimeBefore, boundedBefore⟩ := onTime.during positive bounded
    have turns := turns_use (table.after earlier) (.put write found)
    rw [isFailed] at turns
    rw [isFailed, total_append, total_cons, total_nil] at boundedBefore
    have within := onTimeBefore.within
    simp only [UseOutcome.bytes] at boundedBefore
    have waits := turns.waits (congrArg TableOptions.poolBytes onTimeBefore.options_eq) (by omega)
    have waitsAfter := waits.after middle unsaved few
    refine ⟨waitsAfter.untried, ?_⟩
    rintro next nextFound rest - fits
    exact waitsAfter.tries_iff nextFound fits
  · rw [← whole.unfailed unfailed]
    exact whole.below written

def crampedOptions : TableOptions where
  path := ""
  pages := 1

/-- A directory in which the temporary name belongs to a directory. -/
def blockedFiles : FileSystem where
  nodes := Dictionary.empty.set [TableOptions.temporaryName] .directory

def bulkyWrite (length : Nat) : Write :=
  ⟨[97], List.replicate length 0, 0⟩

theorem bulkyWrite_weight (length : Nat) : (bulkyWrite length).weight = length + 1 := by
  simp [bulkyWrite, Write.weight, Nat.add_comm]

theorem bulkyWrite_fits {length : Nat} (short : length < 10000) : (bulkyWrite length).Fits := by
  have range : Bytes.fieldRange 4 = 4294967296 := rfl
  rw [Write.fits_iff, bulkyWrite_weight, range]
  omega

/-- No checkpoint can be made there, whatever has been written to the log. -/
theorem checkpoint_blocked {id : FileId} {info : SnapshotInfo} (path : table.options.path = "")
    (writes : FileSystem.WritesOnly id blockedFiles logged) :
    table.checkpoint.perform logged ≠ (.ok (info, next), left) := by
  have leads : logged.LeadsTo table.options.path [] := by
    rw [path]
    rfl
  have blocked : logged.node? ([] ++ [TableOptions.temporaryName]) = some .directory :=
    (writes.node? _).trans rfl
  have refused := leads.openFile_obstructed TableOptions.temporaryName_isName blocked
  rw [← TableOptions.temporaryName_snapshotPath] at refused
  rw [checkpoint_eq_error_iff.mpr (Snapshot.store_refused refused _)]
  nofun

theorem put_blocked (path : table.options.path = "") (fits : write.Fits)
    (isDue : table.checkpointAt ≤ table.dirty + write.weight) :
    ∃ next, table.use (.put write blockedFiles) = (.written write.weight (some false), next) := by
  obtain ⟨log, logged, recording, appends⟩ := table.record_fits blockedFiles fits
  obtain ⟨tried, next, left, written, _, ends⟩ := put_ends recording
  cases ends with
  | early below => exact absurd isDue (Nat.not_le.mpr below)
  | saved _ made => exact absurd made (checkpoint_blocked path appends.writes)
  | postponed => exact ⟨_, written⟩

def crampedUses : List TableUse :=
  [.put (bulkyWrite 4999) blockedFiles, .put (bulkyWrite 3999) blockedFiles,
    .put (bulkyWrite 95) blockedFiles]

/-- The first write is beyond the budget of 4096 bytes and its checkpoint fails. The second is 96
bytes short of another budget and the third fills it. -/
theorem uses_space_checkpoints_cramped :
    ∃ table opened, (openAt crampedOptions).perform FileSystem.empty = (.ok table, opened) ∧
      1 ≤ crampedOptions.pages ∧
      crampedOptions.poolBytes + table.dirty +
        total UseOutcome.bytes (table.outcomes crampedUses) < wordLimit ∧
      (table.outcomes crampedUses).map UseOutcome.tries = [true, false, true] := by
  have durable := (FileSystem.emptyDirectory_empty.atRest).toDurable
  obtain ⟨table, opened, opening, on⟩ := @openAt_perform _ _ crampedOptions _ _ durable
  have first := @bulkyWrite_fits 4999 (by omega)
  have second := @bulkyWrite_fits 3999 (by omega)
  have third := @bulkyWrite_fits 95 (by omega)
  have pool : crampedOptions.poolBytes = 4096 := by decide
  have clean : table.dirty = 0 := on.dirty
  have isDue : table.checkpointAt ≤ table.dirty + (bulkyWrite 4999).weight := by
    rw [on.checkpointAt, pool, bulkyWrite_weight]
    omega
  obtain ⟨failed, firstUse⟩ :=
    put_blocked (congrArg TableOptions.path on.options_eq) first isDue
  obtain ⟨early, waiting, secondUse⟩ := failed.written_of_fits blockedFiles second
  obtain ⟨late, last, thirdUse⟩ := waiting.written_of_fits blockedFiles third
  have outcomes : table.outcomes crampedUses = [.written (bulkyWrite 4999).weight (some false),
      .written (bulkyWrite 3999).weight early, .written (bulkyWrite 95).weight late] := by
    simp only [crampedUses, Table.outcomes, firstUse, secondUse, thirdUse]
  have bounded : crampedOptions.poolBytes + table.dirty +
      total UseOutcome.bytes (table.outcomes crampedUses) < wordLimit := by
    rw [outcomes, clean, pool]
    simp [total_cons, total_nil, UseOutcome.bytes, bulkyWrite_weight, wordLimit]
  have unsaved : UseOutcome.asked true ∉ failed.outcomes [.put (bulkyWrite 3999) blockedFiles] := by
    simp [Table.outcomes, secondUse]
  have few : total UseOutcome.bytes (failed.outcomes [.put (bulkyWrite 3999) blockedFiles]) =
      4000 := by
    simp [Table.outcomes, secondUse, total_cons, total_nil, UseOutcome.bytes, bulkyWrite_weight]
  obtain ⟨-, -, -, waits, -⟩ := uses_space_checkpoints opening (by decide) crampedUses bounded
  have waited := waits [] (bulkyWrite 4999) blockedFiles
    [.put (bulkyWrite 3999) blockedFiles] [.put (bulkyWrite 95) blockedFiles] rfl
  simp only [Table.after, List.foldl_nil, List.foldl_cons, firstUse, secondUse] at waited
  obtain ⟨untried, tries⟩ := waited trivial unsaved (by rw [few, pool]; omega)
  have secondTries : (UseOutcome.written (bulkyWrite 3999).weight early).tries = false :=
    untried _ (by simp [Table.outcomes, secondUse])
  have thirdTries : (UseOutcome.written (bulkyWrite 95).weight late).tries = true := by
    have fills := (tries (bulkyWrite 95) blockedFiles [] rfl third).mpr
      (by rw [few, pool, bulkyWrite_weight])
    rwa [thirdUse] at fills
  refine ⟨table, opened, opening, by decide, bounded, ?_⟩
  rw [outcomes, List.map_cons, List.map_cons, List.map_singleton, secondTries, thirdTries]
  rfl

end Table

end RowStore
