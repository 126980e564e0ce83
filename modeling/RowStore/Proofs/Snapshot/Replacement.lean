import RowStore.Proofs.FileSystem.Extension
import RowStore.Proofs.FileSystem.Links
import RowStore.Proofs.Snapshot.Damage

/-!
Replacing the file at a path by a snapshot. All that is written goes to a file beside it, under a
name that is another one whatever the path looks like, until one change of name puts the snapshot in
the place of what was there. What fails or breaks off before that leaves the path as it was.
-/

namespace RowStore.Snapshot

open FileSystem SnapshotWriter

variable {files opened left full saved : FileSystem} {path : String} {id : FileId} {bytes : Bytes}

/-- The path is read as before, and nothing but the temporary file has changed. -/
structure Unreplaced (path : String) (files left : FileSystem) : Prop where
  read : left.read path = files.read path
  others : ∀ location, files.locate (temporaryName path) ≠ .ok location →
    SameAt location files left
  single : files.SinglyNamed → left.SinglyNamed

/-- The path is read as the new bytes, the temporary file is gone, and nothing else has changed. -/
structure Replaced (path : String) (files saved : FileSystem) (bytes : Bytes) : Prop where
  read : saved.read path = .ok bytes
  gone : saved.lookup (temporaryName path) = .error .notFound
  others : ∀ location, files.locate path ≠ .ok location →
    files.locate (temporaryName path) ≠ .ok location → SameAt location files saved
  single : files.SinglyNamed → saved.SinglyNamed

theorem temporaryName_ne (named : (Path.splitName? path.toList).isSome) :
    temporaryName path ≠ path := by
  obtain ⟨⟨front, name⟩, found⟩ := Option.isSome_iff_exists.mp named
  exact Path.withExtension_ne found (by decide) (by decide)

/-- A temporary file that has been opened and written to stands beside the last name of the path. -/
structure Beside (path : String) (files left : FileSystem) (id : FileId) (front name : List Char)
    (home : Location) (temporary : String) : Prop where
  found : Path.splitName? path.toList = some (front, name)
  leads : files.LeadsTo (String.ofList front) home
  located : files.locate (temporaryName path) = .ok (home ++ [temporary])
  different : temporary ≠ String.ofList name
  here : left.node? (home ++ [temporary]) = some (.file id)
  directories : ∀ location, files.node? location = some .directory →
    left.node? location = some .directory
  others : ∀ location, location ≠ home ++ [temporary] → SameAt location files left
  single : files.SinglyNamed → left.SinglyNamed

theorem exists_beside (named : (Path.splitName? path.toList).isSome)
    (unshared : files.Unshared (temporaryName path))
    (opening : files.openFile (temporaryName path) = .ok (id, opened))
    (writes : WritesOnly id opened left) :
    ∃ front name home temporary, Beside path files left id front name home temporary := by
  obtain ⟨⟨front, name⟩, found⟩ := Option.isSome_iff_exists.mp named
  rcases Path.withExtension_cases found (by decide : '.' ∈ "snap.tmp".toList) (by decide) with
    ⟨other, different, otherFound⟩ | up
  · obtain ⟨location, located, here, notDirectory, others⟩ := openFile_here opening
    obtain ⟨home, leads, rfl⟩ := exists_home_of_locate otherFound located
    exact ⟨front, name, home, String.ofList other, {
      found, leads, located
      different := fun same => different (String.ofList_inj.mp same)
      here := (writes.node? _).trans here
      directories := fun location directory => by
        have apart : location ≠ home ++ [String.ofList other] :=
          fun same => notDirectory (same ▸ directory)
        rw [writes.node?, others location apart, directory]
      others := fun location apart => unshared.sameAt opening writes fun placed =>
        apart (Except.ok.inj (placed.symm.trans located))
      single := fun single => (single.openFile opening).writesOnly writes }⟩
  · -- Nothing can be opened by the name of the directory above.
    obtain ⟨-, -, -, lead⟩ := Path.splitName?_eq_some found
    have refused : ∃ fault, files.openFile (temporaryName path) = .error fault :=
      openFile_up up lead
    rw [opening] at refused
    simp at refused

section

variable {front name : List Char} {home : Location} {temporary : String}

theorem Beside.atName (beside : Beside path files left id front name home temporary) :
    SameAt (home ++ [String.ofList name]) files left := by
  apply beside.others
  simpa using beside.different.symm

theorem Beside.unreplaced (beside : Beside path files left id front name home temporary) :
    Unreplaced path files left where
  read := SameAt.read_named beside.found beside.leads (beside.leads.mono beside.directories)
    beside.atName
  others location apart := beside.others location fun same => apart (same ▸ beside.located)
  single := beside.single

theorem Beside.replaced (beside : Beside path files left id front name home temporary)
    (moving : left.rename (temporaryName path) path = .ok saved) :
    Replaced path files saved (left.content id) := by
  have leftLocated := locate_mono beside.directories beside.located
  have leftLeads := beside.leads.mono beside.directories
  obtain ⟨goal, targetLocated, -, moved⟩ := rename_eq_ok leftLocated beside.here moving
  obtain ⟨otherHome, otherLeads, rfl⟩ := exists_home_of_locate beside.found targetLocated
  obtain rfl := Except.ok.inj (otherLeads.symm.trans leftLeads)
  have located : files.locate path = .ok (otherHome ++ [String.ofList name]) := by
    rw [← targetLocated]
    exact (locate_congr beside.found beside.leads leftLeads beside.atName.node).symm
  exact {
    read := Names.read_rename ⟨_, leftLocated, beside.here⟩ moving
    gone := moved.lookup_origin leftLocated (by simpa using beside.different)
    others := fun location notPath notTemporary =>
      have notGoal : location ≠ otherHome ++ [String.ofList name] :=
        fun same => notPath (same ▸ located)
      have notOrigin : location ≠ otherHome ++ [temporary] :=
        fun same => notTemporary (same ▸ beside.located)
      (beside.others location notOrigin).trans (moved.sameAt notGoal notOrigin)
    single := fun single => (beside.single single).moved moved }

end

/-- Until the snapshot takes its name, whatever is left of saving it. -/
theorem Underway.unreplaced (underway : Underway path files left)
    (named : (Path.splitName? path.toList).isSome)
    (unshared : files.Unshared (temporaryName path)) : Unreplaced path files left := by
  cases underway with
  | notBegun => exact ⟨rfl, fun location _ => .refl location files, fun single => single⟩
  | begun opening writes =>
      obtain ⟨_, _, _, _, beside⟩ := exists_beside named unshared opening writes
      exact beside.unreplaced

/-- All that can still happen at the end is that the snapshot takes its name, or that it does not. -/
theorem finish_replaces {writer : SnapshotWriter} {filled : FileSystem}
    {entries : List (Bytes × Bytes)} (named : (Path.splitName? path.toList).isSome)
    (unshared : files.Unshared (temporaryName path))
    (opening : files.openFile (temporaryName path) = .ok (id, opened))
    (writes : WritesOnly id opened filled) (collects : Collects path id writer filled entries) :
    (∀ fault left, writer.finish.perform filled = (.error fault, left) →
        Unreplaced path files left) ∧
      ∀ info saved, writer.finish.perform filled = (.ok info, saved) →
        Replaced path files saved (image entries) := by
  obtain ⟨full, fullWrites, content, finishing⟩ := finish_perform collects
  obtain ⟨_, _, _, _, beside⟩ := exists_beside named unshared opening (writes.trans fullWrites)
  rw [finishing]
  cases moving : full.rename (temporaryName path) path with
  | error fault =>
      refine ⟨fun _ left failed => ?_, fun _ _ succeeded => ?_⟩
      · cases failed
        exact beside.unreplaced
      · cases succeeded
  | ok renamed =>
      refine ⟨fun _ _ failed => ?_, fun _ saved succeeded => ?_⟩
      · cases failed
      · cases succeeded
        exact content ▸ beside.replaced moving

/-- A snapshot takes the place of the file at a path in one step, or not at all. Before that step
the path is read as it was: after the writer has been made or could not be made, between any two
writes to the temporary file, after entries have been offered, refused ones among them, when the
writer is dropped and when it fails to finish. -/
theorem replacement_atomic (path : String) (files : FileSystem)
    (named : (Path.splitName? path.toList).isSome)
    (unshared : files.Unshared (temporaryName path)) :
    temporaryName path ≠ path ∧
      (∀ left, Underway path files left → Unreplaced path files left) ∧
      (∀ fault left, (create path).perform files = (.error fault, left) → left = files) ∧
      ∀ fresh created, (create path).perform files = (.ok fresh, created) →
        Unreplaced path files created ∧
        ∀ offered, ∃ writer filled size full,
          (fresh.offerAll offered).perform created = (.ok writer, filled) ∧
          writer.complete.perform filled = (.ok size, full) ∧
          Unreplaced path files filled ∧ Unreplaced path files (writer.flushed filled) ∧
          Unreplaced path files full ∧
          (∀ fault left, writer.finish.perform filled = (.error fault, left) →
            Unreplaced path files left) ∧
          ∀ info saved, writer.finish.perform filled = (.ok info, saved) →
            Replaced path files saved (image (taken offered)) := by
  have waits : ∀ left, Underway path files left → Unreplaced path files left :=
    fun left underway => underway.unreplaced named unshared
  refine ⟨temporaryName_ne named, waits, ?_⟩
  cases opening : files.openFile (temporaryName path) with
  | error fault =>
      have creating := create_refused opening
      refine ⟨fun fault left failed => ?_, fun fresh created succeeded => ?_⟩
      · rw [creating] at failed
        exact (Prod.mk.inj failed).2.symm
      · cases creating.symm.trans succeeded
  | ok result =>
      obtain ⟨id, opened⟩ := result
      obtain ⟨begun, emptied, creating, beginWrites, begunCollects⟩ := create_perform opening
      refine ⟨fun fault left failed => ?_, fun fresh created succeeded => ?_⟩
      · cases creating.symm.trans failed
      · cases creating.symm.trans succeeded
        refine ⟨waits _ (.begun opening beginWrites), fun offered => ?_⟩
        obtain ⟨writer, filled, offering, offerWrites, collects⟩ :=
          offerAll_perform offered begunCollects
        obtain ⟨full, completing, fullWrites, -⟩ := complete_perform collects
        have filledWrites := beginWrites.trans offerWrites
        have dropWrites : WritesOnly id filled (writer.flushed filled) :=
          collects.file_eq ▸ WritesOnly.writeAt filled _ _
        have finishes := finish_replaces named unshared opening filledWrites collects
        rw [List.nil_append] at finishes
        exact ⟨writer, filled, _, full, offering, completing,
          waits _ (.begun opening filledWrites),
          waits _ (.begun opening (filledWrites.trans dropWrites)),
          waits _ (.begun opening (filledWrites.trans fullWrites)), finishes⟩

/-- A file whose name already ends as that of a temporary file does, and another one. -/
def shelved : FileSystem where
  nodes := (Dictionary.empty.set ["a.snap.tmp"] (.file 0)).set ["notes"] (.file 1)
  contents := (Dictionary.empty.set 0 [1, 2, 3]).set 1 [4]
  nextFile := 2

theorem shelved_made : Made shelved := by
  have first : FileSystem.empty.write "a.snap.tmp" [1, 2, 3] =
      .ok { nodes := Dictionary.empty.set ["a.snap.tmp"] (.file 0)
            contents := Dictionary.empty.set 0 [1, 2, 3]
            nextFile := 1 } := rfl
  exact (Made.empty.write first).write (rfl : FileSystem.write _ "notes" [4] = .ok shelved)

theorem replacement_atomic_shelved :
    (Path.splitName? "a.snap.tmp".toList).isSome ∧
      shelved.Unshared (temporaryName "a.snap.tmp") ∧
      shelved.read "a.snap.tmp" = .ok [1, 2, 3] ∧
      ∃ fresh created writer filled info saved,
        (create "a.snap.tmp").perform shelved = (.ok fresh, created) ∧
        Unreplaced "a.snap.tmp" shelved created ∧
        (fresh.offerAll [([97], [1])]).perform created = (.ok writer, filled) ∧
        Unreplaced "a.snap.tmp" shelved filled ∧
        writer.finish.perform filled = (.ok info, saved) ∧
        Replaced "a.snap.tmp" shelved saved (image [([97], [1])]) := by
  have named : (Path.splitName? "a.snap.tmp".toList).isSome := rfl
  have unshared := shelved_made.singlyNamed.unshared (temporaryName "a.snap.tmp")
  have opening : shelved.openFile (temporaryName "a.snap.tmp") =
      .ok (2, shelved.withNewFile ["a.snap.snap.tmp"]) := rfl
  obtain ⟨fresh, created, creating, createdWrites, begun⟩ := create_perform opening
  obtain ⟨-, -, -, begins⟩ := replacement_atomic "a.snap.tmp" shelved named unshared
  obtain ⟨waits, offers⟩ := begins fresh created creating
  obtain ⟨writer, filled, -, -, offering, -, filledWaits, -, -, -, finishes⟩ :=
    offers [([97], [1])]
  obtain ⟨_, _, offered, filledWrites, collects⟩ := offerAll_perform [([97], [1])] begun
  cases offering.symm.trans offered
  obtain ⟨full, fullWrites, -, finishing⟩ := finish_perform collects
  have moves : ∃ renamed,
      full.rename (temporaryName "a.snap.tmp") "a.snap.tmp" = .ok renamed := by
    have nodes := ((createdWrites.trans filledWrites).trans fullWrites).nodes
    obtain ⟨fullNodes, contents, nextFile⟩ := full
    subst nodes
    exact ⟨_, rfl⟩
  obtain ⟨renamed, moved⟩ := moves
  rw [moved] at finishing
  exact ⟨named, unshared, rfl, fresh, created, writer, filled, _, renamed, creating, waits, offered,
    filledWaits, finishing, finishes _ renamed finishing⟩

end RowStore.Snapshot
