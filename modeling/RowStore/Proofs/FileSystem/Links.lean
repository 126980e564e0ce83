import RowStore.Proofs.Dictionary
import RowStore.Proofs.FileSystem.Naming

namespace RowStore.FileSystem

variable {files before middle after opened renamed : FileSystem} {path source target : String}
  {id : FileId} {location other : Location}

/-- No two locations lead to one file, and none to a file that is still to be made. -/
structure SinglyNamed (files : FileSystem) : Prop where
  known : ∀ location id, files.node? location = some (.file id) → id < files.nextFile
  distinct : ∀ location other id, files.node? location = some (.file id) →
    files.node? other = some (.file id) → location = other

namespace SinglyNamed

theorem empty : FileSystem.empty.SinglyNamed where
  known location id found := by
    rw [node?] at found
    split at found <;> cases found
  distinct location other id found := by
    rw [node?] at found
    split at found <;> cases found

/-- Files may be given other names, as long as each has its new name from its old one. -/
theorem of_moved (single : before.SinglyNamed) (move : Location → Location)
    (origin : ∀ location id, after.node? location = some (.file id) →
      ∃ former, before.node? former = some (.file id) ∧ location = move former)
    (grows : before.nextFile ≤ after.nextFile) : after.SinglyNamed where
  known location id found := by
    obtain ⟨former, formerFound, -⟩ := origin location id found
    exact Nat.lt_of_lt_of_le (single.known former id formerFound) grows
  distinct location other id found otherFound := by
    obtain ⟨former, formerFound, rfl⟩ := origin location id found
    obtain ⟨otherFormer, otherFormerFound, rfl⟩ := origin other id otherFound
    rw [single.distinct former otherFormer id formerFound otherFormerFound]

theorem of_kept (single : before.SinglyNamed)
    (kept : ∀ location id, after.node? location = some (.file id) →
      before.node? location = some (.file id))
    (grows : before.nextFile ≤ after.nextFile) : after.SinglyNamed :=
  single.of_moved (fun location => location)
    (fun location id found => ⟨location, kept location id found, rfl⟩) grows

theorem writesOnly (single : before.SinglyNamed) (writes : WritesOnly id before after) :
    after.SinglyNamed :=
  single.of_kept (fun location _ found => (writes.node? location).symm.trans found)
    (Nat.le_of_eq writes.nextFile.symm)

theorem openFile (single : files.SinglyNamed) (opening : files.openFile path = .ok (id, opened)) :
    opened.SinglyNamed := by
  obtain ⟨location, -, ⟨-, rfl⟩ | ⟨absent, rfl, rfl⟩⟩ := openFile_eq_ok opening
  · exact single
  · have nodes := node?_set files (below_of_absent absent) (.file files.nextFile)
    have cases : ∀ other id, (files.withNewFile location).node? other = some (.file id) →
        other = location ∧ id = files.nextFile ∨
          other ≠ location ∧ files.node? other = some (.file id) := by
      intro other id found
      by_cases here : other = location
      · have new := (nodes other).trans (if_pos here)
        exact Or.inl ⟨here, Node.file.inj (Option.some.inj (found.symm.trans new))⟩
      · exact Or.inr ⟨here, (((nodes other).trans (if_neg here)).symm.trans found)⟩
    exact {
      known := fun other id found => by
        rcases cases other id found with ⟨-, rfl⟩ | ⟨-, old⟩
        · exact Nat.lt_succ_self _
        · exact Nat.lt_succ_of_lt (single.known other id old)
      distinct := fun left right id leftFound rightFound => by
        rcases cases left id leftFound with ⟨rfl, rfl⟩ | ⟨-, leftOld⟩
        · rcases cases right _ rightFound with ⟨same, -⟩ | ⟨-, rightOld⟩
          · exact same.symm
          · exact absurd (single.known right _ rightOld) (Nat.lt_irrefl _)
        · rcases cases right id rightFound with ⟨-, rfl⟩ | ⟨-, rightOld⟩
          · exact absurd (single.known left _ leftOld) (Nat.lt_irrefl _)
          · exact single.distinct left right id leftOld rightOld }

theorem setDirectory (single : files.SinglyNamed) (below : location ≠ []) :
    SinglyNamed { files with nodes := files.nodes.set location .directory } := by
  refine single.of_kept (fun other id found => ?_) (Nat.le_refl _)
  rw [node?_set files below] at found
  split at found
  · cases found
  · exact found

theorem erase (single : files.SinglyNamed) (below : location ≠ []) :
    SinglyNamed { files with nodes := files.nodes.erase location } := by
  refine single.of_kept (fun other id found => ?_) (Nat.le_refl _)
  rw [node?_erase files below] at found
  split at found
  · cases found
  · exact found

theorem makeDirectorySteps {steps : List String} (single : files.SinglyNamed)
    (making : files.makeDirectorySteps steps = .ok after) : after.SinglyNamed := by
  cases located : files.locateSteps steps with
  | error fault =>
      rw [FileSystem.makeDirectorySteps, located] at making
      cases making
  | ok location =>
      rw [FileSystem.makeDirectorySteps, located] at making
      cases found : files.node? location with
      | some node =>
          simp only [bind, Except.bind, found] at making
          cases making
      | none =>
          simp only [bind, Except.bind, found] at making
          cases making
          exact single.setDirectory (below_of_absent found)

theorem orPresent {steps : List String} {outcome : Except FileFault FileSystem}
    (single : files.SinglyNamed) (made : ∀ after, outcome = .ok after → after.SinglyNamed) :
    (files.orPresent steps outcome).2.SinglyNamed := by
  cases outcome with
  | ok after => exact made after rfl
  | error fault => exact single

theorem makeDirectories (single : files.SinglyNamed) (path : String) :
    (files.makeDirectories path).2.SinglyNamed := by
  unfold FileSystem.makeDirectories
  generalize (Path.steps path).reverse = reversedSteps
  fun_induction makeDirectoriesReversed reversedSteps files with
  | case1 files => exact single
  | case2 files last rest steps making fault made deeper ih =>
      have kept := ih single
      rw [deeper] at kept
      exact kept
  | case3 files last rest steps making made deeper ih =>
      have kept := ih single
      rw [deeper] at kept
      exact kept.orPresent fun after => kept.makeDirectorySteps
  | case4 files last rest steps notDeeper =>
      exact single.orPresent fun after => single.makeDirectorySteps

theorem removeFile (single : files.SinglyNamed) (removing : files.removeFile path = .ok after) :
    after.SinglyNamed := by
  cases located : files.locate path with
  | error fault =>
      rw [FileSystem.removeFile, located] at removing
      cases removing
  | ok location =>
      rw [FileSystem.removeFile, located] at removing
      simp only [bind, Except.bind] at removing
      split at removing
      · cases removing
      · cases removing
      · rename_i id found
        split at removing
        · cases removing
        · cases removing
          exact single.erase (below_of_file found)

theorem removeDirectory (single : files.SinglyNamed)
    (removing : files.removeDirectory path = .ok after) : after.SinglyNamed := by
  cases located : files.locate path with
  | error fault =>
      rw [FileSystem.removeDirectory, located] at removing
      cases removing
  | ok location =>
      rw [FileSystem.removeDirectory, located] at removing
      cases last : (Path.steps path).getLast? with
      | none =>
          rw [last] at removing
          cases removing
      | some step =>
          simp only [bind, Except.bind, last] at removing
          split at removing
          · cases removing
          · rename_i notHere
            split at removing
            · cases removing
            · rename_i notUp
              have named : Path.endsUnnamed (Path.steps path) = false := by
                simp [Path.endsUnnamed, last, notHere, notUp]
              split at removing
              · cases removing
              · cases removing
              · split at removing
                · cases removing
                · cases removing
                  exact single.erase (below_of_locate located named)

/-- Where something is once all below the source has been moved below the target. -/
private def moveTo (source target location : Location) : Location :=
  if source.isPrefixOf location then target ++ location.drop source.length else location

private theorem nodes_moveBelow (files : FileSystem) (source target : Location) :
    (files.moveBelow source target).nodes =
      (files.nodes.pairs.map fun pair => (moveTo source target pair.1, pair.2)).foldl
        (fun nodes pair => nodes.set pair.1 pair.2) .empty := by
  have moved : ∀ pair : Location × Node,
      (if source.isPrefixOf pair.1 then (target ++ pair.1.drop source.length, pair.2)
        else (pair.1, pair.2)) = (moveTo source target pair.1, pair.2) := by
    intro pair
    simp only [moveTo]
    split <;> rfl
  simp only [FileSystem.moveBelow, moved]

private theorem exists_pair_of_foldl_set {pairs : List (Location × Node)}
    {nodes : Dictionary Location Node} {node : Node}
    (found : (pairs.foldl (fun nodes pair => nodes.set pair.1 pair.2) nodes).find? location =
      some node) : (location, node) ∈ pairs ∨ nodes.find? location = some node := by
  induction pairs generalizing nodes with
  | nil => exact Or.inr found
  | cons pair rest ih =>
      rcases ih found with later | earlier
      · exact Or.inl (List.mem_cons_of_mem pair later)
      · rw [Dictionary.find?_set] at earlier
        split at earlier
        · rename_i same
          obtain rfl := Option.some.inj earlier
          exact Or.inl (same ▸ List.mem_cons_self)
        · exact Or.inr earlier

theorem moveBelow {source target : Location} (single : files.SinglyNamed) (below : source ≠ []) :
    (files.moveBelow source target).SinglyNamed := by
  refine single.of_moved (moveTo source target) (fun location id found => ?_) (Nat.le_refl _)
  have inside : location ≠ [] := by
    rintro rfl
    simp [node?] at found
  rw [node?_of_ne_nil inside, nodes_moveBelow] at found
  obtain member := (exists_pair_of_foldl_set found).resolve_right (by simp)
  obtain ⟨⟨former, node⟩, isPair, same⟩ := List.mem_map.mp member
  obtain ⟨rfl, rfl⟩ := Prod.mk.inj same
  refine ⟨former, ?_, rfl⟩
  have formerInside : former ≠ [] := by
    rintro rfl
    obtain ⟨first, rest, rfl⟩ := List.exists_cons_of_ne_nil below
    exact inside rfl
  rw [node?_of_ne_nil formerInside]
  exact Dictionary.find?_eq_some_iff.mpr isPair

/-- A directory that is moved has a name of its own. -/
private theorem rename_directory_eq_ok (located : files.locate source = .ok location)
    (found : files.node? location = some .directory)
    (moved : files.rename source target = .ok renamed) :
    location ≠ [] ∧ (renamed = files ∨ ∃ goal, goal ≠ [] ∧
      renamed = FileSystem.moveBelow { files with nodes := files.nodes.erase goal }
        location goal) := by
  cases targetLocated : files.locate target with
  | error fault =>
      rw [FileSystem.rename, located, targetLocated] at moved
      cases moved
  | ok goal =>
      simp only [FileSystem.rename, located, targetLocated, found, bind, Except.bind] at moved
      split at moved
      · cases moved
      · rename_i named
        have sourceNamed : Path.endsUnnamed (Path.steps source) = false := by
          simpa using fun unnamed => named (Or.inl unnamed)
        have targetNamed : Path.endsUnnamed (Path.steps target) = false := by
          simpa using fun unnamed => named (Or.inr unnamed)
        refine ⟨below_of_locate located sourceNamed, ?_⟩
        split at moved
        · exact Or.inl (Except.ok.inj moved).symm
        · split at moved
          · cases moved
          · split at moved
            · cases moved
            · split at moved
              · cases moved
              · split at moved
                · cases moved
                · exact Or.inr ⟨goal, below_of_locate targetLocated targetNamed,
                    (Except.ok.inj moved).symm⟩

theorem moved {origin goal : Location} (single : before.SinglyNamed)
    (moved : Moved id origin goal before after) : after.SinglyNamed := by
  refine single.of_moved (fun former => if former = origin then goal else former)
    (fun location otherId found => ?_) (Nat.le_of_eq moved.nextFile.symm)
  rw [moved.nodes] at found
  split at found
  · rename_i isGoal
    cases found
    exact ⟨origin, moved.found, by rw [if_pos rfl, isGoal]⟩
  · split at found
    · cases found
    · rename_i notOrigin
      exact ⟨location, found, by rw [if_neg notOrigin]⟩

theorem rename (single : files.SinglyNamed) (moved : files.rename source target = .ok renamed) :
    renamed.SinglyNamed := by
  cases located : files.locate source with
  | error fault =>
      rw [FileSystem.rename, located] at moved
      cases moved
  | ok location =>
      cases found : files.node? location with
      | none =>
          cases targetLocated : files.locate target with
          | error fault =>
              rw [FileSystem.rename, located, targetLocated] at moved
              cases moved
          | ok goal =>
              simp only [FileSystem.rename, located, targetLocated, found, bind,
                Except.bind] at moved
              split at moved <;> cases moved
      | some node =>
          cases node with
          | file id =>
              obtain ⟨goal, -, -, moves⟩ := rename_eq_ok located found moved
              exact single.moved moves
          | directory =>
              obtain ⟨below, rfl | ⟨goal, goalBelow, rfl⟩⟩ :=
                rename_directory_eq_ok located found moved
              · exact single
              · exact (single.erase goalBelow).moveBelow below

end SinglyNamed

/-- What the operations make of an empty file system. -/
inductive Made : FileSystem → Prop
  | empty : Made FileSystem.empty
  | opened {files opened : FileSystem} {path : String} {id : FileId} (made : Made files)
      (opening : files.openFile path = .ok (id, opened)) : Made opened
  | written {before after : FileSystem} {id : FileId} (made : Made before)
      (writes : WritesOnly id before after) : Made after
  | directories {files : FileSystem} (made : Made files) (path : String) :
      Made (files.makeDirectories path).2
  | fileRemoved {before after : FileSystem} {path : String} (made : Made before)
      (removing : before.removeFile path = .ok after) : Made after
  | directoryRemoved {before after : FileSystem} {path : String} (made : Made before)
      (removing : before.removeDirectory path = .ok after) : Made after
  | renamed {before after : FileSystem} {source target : String} (made : Made before)
      (moved : before.rename source target = .ok after) : Made after

theorem Made.singlyNamed (made : Made files) : files.SinglyNamed := by
  induction made with
  | empty => exact .empty
  | opened _ opening single => exact single.openFile opening
  | written _ writes single => exact single.writesOnly writes
  | directories _ path single => exact single.makeDirectories path
  | fileRemoved _ removing single => exact single.removeFile removing
  | directoryRemoved _ removing single => exact single.removeDirectory removing
  | renamed _ moved single => exact single.rename moved

theorem Made.write {bytes : Bytes} (made : Made before)
    (writing : before.write path bytes = .ok after) : Made after := by
  cases opening : before.openFile path with
  | error fault =>
      rw [FileSystem.write, opening] at writing
      cases writing
  | ok result =>
      rw [FileSystem.write, opening] at writing
      cases writing
      exact (made.opened opening).written (WritesOnly.setContent result.2 bytes)

/-- The location leads to what it led to, and if that is a file, the file has the bytes it had. -/
structure SameAt (location : Location) (before after : FileSystem) : Prop where
  node : after.node? location = before.node? location
  content : ∀ id, before.node? location = some (.file id) → after.content id = before.content id

namespace SameAt

theorem refl (location : Location) (files : FileSystem) : SameAt location files files :=
  ⟨rfl, fun _ _ => rfl⟩

theorem trans (first : SameAt location before middle) (second : SameAt location middle after) :
    SameAt location before after where
  node := second.node.trans first.node
  content id found :=
    (second.content id (first.node.trans found)).trans (first.content id found)

end SameAt

theorem Moved.sameAt {origin goal : Location} (moved : Moved id origin goal before after)
    (notGoal : other ≠ goal) (notOrigin : other ≠ origin) : SameAt other before after where
  node := by rw [moved.nodes, if_neg notGoal, if_neg notOrigin]
  content otherId _ := moved.content otherId

/-- The file that opening the path gives, there already or new, is under no other name. -/
def Unshared (files : FileSystem) (path : String) : Prop :=
  ∀ id opened location other, files.openFile path = .ok (id, opened) →
    files.locate path = .ok location → files.node? other = some (.file id) → other = location

theorem SinglyNamed.unshared (single : files.SinglyNamed) (path : String) :
    files.Unshared path := by
  intro id opened location other opening located found
  obtain ⟨reached, reachedLocated, ⟨here, -⟩ | ⟨-, rfl, -⟩⟩ := openFile_eq_ok opening
  · obtain rfl := Except.ok.inj (reachedLocated.symm.trans located)
    exact single.distinct other reached id found here
  · exact absurd (single.known other files.nextFile found) (Nat.lt_irrefl _)

/-- Opening an unshared file and writing to it does nothing to what has another name. -/
theorem Unshared.sameAt (unshared : files.Unshared path)
    (opening : files.openFile path = .ok (id, opened)) (writes : WritesOnly id opened after)
    (different : files.locate path ≠ .ok other) : SameAt other files after := by
  have apart : files.node? other ≠ some (.file id) := by
    intro found
    obtain ⟨location, located, -⟩ := openFile_eq_ok opening
    exact different (unshared id opened location other opening located found ▸ located)
  have beside : SameAt other files opened := by
    obtain ⟨location, located, ⟨-, rfl⟩ | ⟨absent, rfl, rfl⟩⟩ := openFile_eq_ok opening
    · exact .refl other _
    · have elsewhere : other ≠ location := fun same => different (same ▸ located)
      exact {
        node := (node?_set files (below_of_absent absent) _ other).trans (if_neg elsewhere)
        content := fun otherId found => by
          rw [content_withNewFile, if_neg]
          rintro rfl
          exact apart found }
  refine beside.trans ⟨writes.node? other, fun otherId found => writes.contents otherId ?_⟩
  rintro rfl
  exact apart (beside.node.symm.trans found)

/-- A path whose last name leads to the same is read the same. -/
theorem SameAt.read_named {front name : List Char} {home : Location}
    (found : Path.splitName? path.toList = some (front, name))
    (beforeLeads : before.LeadsTo (String.ofList front) home)
    (afterLeads : after.LeadsTo (String.ofList front) home)
    (same : SameAt (home ++ [String.ofList name]) before after) :
    after.read path = before.read path := by
  have locating := locate_congr found beforeLeads afterLeads same.node
  have reaching : after.fileAt path = before.fileAt path := by
    cases located : before.locate path with
    | error fault => simp only [fileAt, lookup, locating, located, bind, Except.bind]
    | ok location =>
        obtain ⟨otherHome, otherLeads, rfl⟩ := exists_home_of_locate found located
        obtain rfl := Except.ok.inj (otherLeads.symm.trans beforeLeads)
        simp only [fileAt, lookup, locating, located, bind, Except.bind, same.node]
  cases reached : before.fileAt path with
  | error fault => simp only [read, reaching, reached, bind, Except.bind]
  | ok id =>
      obtain ⟨-, location, located, here⟩ := fileAt_eq_ok_iff.mp reached
      obtain ⟨otherHome, otherLeads, rfl⟩ := exists_home_of_locate found located
      obtain rfl := Except.ok.inj (otherLeads.symm.trans beforeLeads)
      rw [read_of_fileAt (reaching.trans reached), read_of_fileAt reached, same.content id here]

end RowStore.FileSystem
