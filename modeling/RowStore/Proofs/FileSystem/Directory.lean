import RowStore.FileSystem.Disk
import RowStore.Proofs.FileSystem.Path

/-!
A directory at the end of a path, and what the operations on names in it do. What an operation
leaves alone is said once, by `ChangesOnly`: all other names, and the bytes of the files that the
other names of the directory lead to.
-/

namespace RowStore

namespace Location

theorem follow_here (location : Location) : location.follow Path.here = location := by
  simp [follow]

theorem follow_up (location : Location) : location.follow Path.up = location.dropLast := by
  simp [follow, Path.up, Path.here]

theorem follow_name (location : Location) {step : String} (notHere : step ≠ Path.here)
    (notUp : step ≠ Path.up) :
    location.follow step = location ++ [step] := by
  rw [follow, if_neg notHere, if_neg notUp]

end Location

namespace FileSystem

variable {files before middle after : FileSystem} {path name other : String} {home : Location}
  {id : FileId}

theorem node?_of_ne_nil {location : Location} (below : location ≠ []) :
    files.node? location = files.nodes.find? location := by
  rw [node?, if_neg below]

theorem node?_append (files : FileSystem) (home : Location) (name : String) :
    files.node? (home ++ [name]) = files.nodes.find? (home ++ [name]) :=
  node?_of_ne_nil (by simp)

theorem enter_eq_ok_iff {location next : Location} {step : String} :
    files.enter location step = .ok next ↔
      next = location.follow step ∧ files.node? next = some .directory := by
  constructor
  · intro entered
    cases found : files.node? (location.follow step) with
    | none => simp [enter, found] at entered
    | some node =>
        cases node with
        | file id => simp [enter, found] at entered
        | directory =>
            simp only [enter, found, Except.ok.injEq] at entered
            exact ⟨entered.symm, entered ▸ found⟩
  · rintro ⟨rfl, found⟩
    simp only [enter, found]

/-- The path leads to the directory at a location, through directories only. -/
def LeadsTo (files : FileSystem) (path : String) (home : Location) : Prop :=
  (Path.steps path).foldlM files.enter [] = .ok home

theorem walk_mono {steps : List String} {start home : Location}
    (kept : ∀ location, before.node? location = some .directory →
      after.node? location = some .directory)
    (walked : steps.foldlM before.enter start = .ok home) :
    steps.foldlM after.enter start = .ok home := by
  induction steps generalizing start with
  | nil => exact walked
  | cons step rest ih =>
      rw [List.foldlM_cons] at walked ⊢
      cases entered : before.enter start step with
      | error fault =>
          rw [entered] at walked
          cases walked
      | ok next =>
          rw [entered] at walked
          obtain ⟨same, directory⟩ := enter_eq_ok_iff.mp entered
          rw [enter_eq_ok_iff.mpr ⟨same, kept next directory⟩]
          exact ih walked

theorem LeadsTo.mono (kept : ∀ location, before.node? location = some .directory →
      after.node? location = some .directory)
    (leads : before.LeadsTo path home) : after.LeadsTo path home :=
  walk_mono kept leads

private theorem walk_above {steps : List String} {start home : Location}
    (walked : steps.foldlM files.enter start = .ok home)
    (begins : ∀ above, above <+: start → files.node? above = some .directory) :
    ∀ above, above <+: home → files.node? above = some .directory := by
  induction steps generalizing start with
  | nil =>
      cases walked
      exact begins
  | cons step rest ih =>
      rw [List.foldlM_cons] at walked
      cases entered : files.enter start step with
      | error fault =>
          rw [entered] at walked
          cases walked
      | ok next =>
          rw [entered] at walked
          obtain ⟨follows, directory⟩ := enter_eq_ok_iff.mp entered
          refine ih walked fun above isAbove => ?_
          by_cases here : step = Path.here
          · rw [follows, here, Location.follow_here] at isAbove
            exact begins above isAbove
          · by_cases up : step = Path.up
            · rw [follows, up, Location.follow_up] at isAbove
              exact begins above (isAbove.trans (List.dropLast_prefix start))
            · rw [start.follow_name here up] at follows
              rw [follows] at isAbove directory
              rcases List.prefix_concat_iff.mp isAbove with rfl | inside
              · exact directory
              · exact begins above inside

/-- All that a location of a directory is below is a directory. -/
theorem LeadsTo.above (leads : files.LeadsTo path home) {above : Location}
    (isAbove : above <+: home) : files.node? above = some .directory :=
  walk_above leads
    (fun above isRoot => by simp [List.prefix_nil.mp isRoot, node?]) above isAbove

theorem LeadsTo.isDirectory (leads : files.LeadsTo path home) :
    files.node? home = some .directory :=
  leads.above (List.prefix_refl home)

theorem LeadsTo.locate_join (leads : files.LeadsTo path home) (isName : Path.IsName name) :
    files.locate (Path.join path name) = .ok (home ++ [name]) := by
  have follows := home.follow_name isName.notHere isName.notUp
  have walked : (Path.steps path).foldlM files.enter [] = .ok home := leads
  simp only [locate, if_neg (Path.join_ne_empty path isName), locateSteps,
    Path.steps_join path isName, List.getLast?_append, List.getLast?_singleton,
    List.dropLast_concat, walked]
  exact congrArg Except.ok follows

theorem LeadsTo.locateSteps_join (leads : files.LeadsTo path home) (isName : Path.IsName name) :
    files.locateSteps (Path.steps (Path.join path name)) = .ok (home ++ [name]) := by
  have located := leads.locate_join isName
  rwa [locate, if_neg (Path.join_ne_empty path isName)] at located

/-- A directory that is there already is left as it is. -/
theorem LeadsTo.makeDirectories (leads : files.LeadsTo path home) :
    files.makeDirectories path = (.ok (), files) := by
  have walked : (Path.steps path).foldlM files.enter [] = .ok home := leads
  have directory := leads.isDirectory
  unfold FileSystem.makeDirectories
  rcases List.eq_nil_or_concat (Path.steps path) with none | ⟨upper, last, whole⟩
  · rw [none, List.reverse_nil, makeDirectoriesReversed]
  · rw [List.concat_eq_append] at whole
    rw [whole, List.foldlM_append] at walked
    cases climbed : upper.foldlM files.enter [] with
    | error fault =>
        rw [climbed] at walked
        cases walked
    | ok above =>
        rw [climbed] at walked
        have entered : files.enter above last = .ok home := by
          change [last].foldlM files.enter above = .ok home at walked
          simpa only [List.foldlM_cons, List.foldlM_nil, bind_pure] using walked
        have located : files.locateSteps (upper ++ [last]) = .ok home := by
          simp only [locateSteps, List.getLast?_append, List.getLast?_singleton,
            List.dropLast_concat, climbed]
          exact congrArg Except.ok (enter_eq_ok_iff.mp entered).1.symm
        have refused : files.makeDirectorySteps (upper ++ [last]) = .error .alreadyExists := by
          simp only [makeDirectorySteps, located]
          simp [bind, Except.bind, directory]
        have present : files.isDirectorySteps (upper ++ [last]) = true := by
          simp [isDirectorySteps, located, directory]
        rw [whole, List.reverse_append, List.reverse_singleton, List.singleton_append,
          makeDirectoriesReversed]
        simp [refused, orPresent, present]

/-- A directory at the end of a path. The way there does not pass through anything below it, so that
nothing done below it can block the way, and no two names in it lead to one file. -/
structure DirectoryAt (files : FileSystem) (path : String) (home : Location) : Prop where
  reached : ∃ way : FileSystem, way.LeadsTo path home ∧
    (∀ name, way.node? (home ++ [name]) ≠ some .directory) ∧
    ∀ location, way.node? location = some .directory → files.node? location = some .directory
  known : ∀ name id, files.node? (home ++ [name]) = some (.file id) → id < files.nextFile
  distinct : ∀ name other id, files.node? (home ++ [name]) = some (.file id) →
    files.node? (home ++ [other]) = some (.file id) → name = other

theorem DirectoryAt.leads (directory : files.DirectoryAt path home) : files.LeadsTo path home := by
  obtain ⟨way, leads, _, kept⟩ := directory.reached
  exact leads.mono kept

structure EmptyDirectory (files : FileSystem) (path : String) (home : Location) : Prop where
  leads : files.LeadsTo path home
  empty : ∀ name, files.node? (home ++ [name]) = none

theorem emptyDirectory_empty : empty.EmptyDirectory "" [] where
  leads := rfl
  empty name := by rw [node?_append]; rfl

theorem EmptyDirectory.directoryAt (vacant : files.EmptyDirectory path home) :
    files.DirectoryAt path home where
  reached := ⟨files, vacant.leads, fun name => by simp [vacant.empty name], fun _ found => found⟩
  known name id found := by simp [vacant.empty name] at found
  distinct name other id found := by simp [vacant.empty name] at found

/-- Under the name there is a file with these bytes. -/
def HoldsFile (files : FileSystem) (home : Location) (name : String) (bytes : Bytes) : Prop :=
  ∃ id, files.node? (home ++ [name]) = some (.file id) ∧ files.content id = bytes

/-- What is done to one name in a directory. The name may come to lead to a new file. -/
structure ChangesOnly (home : Location) (name : String) (before after : FileSystem) : Prop where
  nodes : ∀ location, location ≠ home ++ [name] → after.node? location = before.node? location
  contents : ∀ other id, other ≠ name → before.node? (home ++ [other]) = some (.file id) →
    after.content id = before.content id
  grows : before.nextFile ≤ after.nextFile
  own : ∀ id, after.node? (home ++ [name]) = some (.file id) →
    before.node? (home ++ [name]) = some (.file id) ∨
      before.nextFile ≤ id ∧ id < after.nextFile

namespace ChangesOnly

theorem refl (files : FileSystem) : ChangesOnly home name files files where
  nodes _ _ := rfl
  contents _ _ _ _ := rfl
  grows := Nat.le_refl _
  own _ found := Or.inl found

theorem node?_other (changes : ChangesOnly home name before after) (different : other ≠ name) :
    after.node? (home ++ [other]) = before.node? (home ++ [other]) :=
  changes.nodes _ (by simpa using different)

theorem trans (first : ChangesOnly home name before middle)
    (second : ChangesOnly home name middle after) : ChangesOnly home name before after where
  nodes location different :=
    (second.nodes location different).trans (first.nodes location different)
  contents other id different found := by
    rw [second.contents other id different ((first.node?_other different).trans found),
      first.contents other id different found]
  grows := Nat.le_trans first.grows second.grows
  own id found := by
    have firstGrows := first.grows
    have secondGrows := second.grows
    rcases second.own id found with kept | new
    · rcases first.own id kept with kept | new
      · exact Or.inl kept
      · exact Or.inr ⟨new.1, Nat.lt_of_lt_of_le new.2 secondGrows⟩
    · exact Or.inr ⟨Nat.le_trans firstGrows new.1, new.2⟩

theorem holdsFile {bytes : Bytes} (changes : ChangesOnly home name before after)
    (different : other ≠ name) (holds : before.HoldsFile home other bytes) :
    after.HoldsFile home other bytes := by
  obtain ⟨id, found, content⟩ := holds
  exact ⟨id, (changes.node?_other different).trans found,
    (changes.contents other id different found).trans content⟩

theorem directoryAt (changes : ChangesOnly home name before after)
    (directory : before.DirectoryAt path home) : after.DirectoryAt path home where
  reached := by
    obtain ⟨way, leads, apart, kept⟩ := directory.reached
    refine ⟨way, leads, apart, fun location found => ?_⟩
    have different : location ≠ home ++ [name] := fun same => apart name (same ▸ found)
    rw [changes.nodes location different]
    exact kept location found
  known other id found := by
    by_cases same : other = name
    · subst same
      rcases changes.own id found with old | new
      · exact Nat.lt_of_lt_of_le (directory.known other id old) changes.grows
      · exact new.2
    · rw [changes.node?_other same] at found
      exact Nat.lt_of_lt_of_le (directory.known other id found) changes.grows
  distinct left right id leftFound rightFound := by
    -- A name that comes to lead to a new file shares it with no name that was there before.
    have apart : ∀ other, other ≠ name → after.node? (home ++ [name]) = some (.file id) →
        after.node? (home ++ [other]) ≠ some (.file id) := by
      intro other different found otherFound
      rw [changes.node?_other different] at otherFound
      rcases changes.own id found with old | new
      · exact different (directory.distinct other name id otherFound old)
      · exact absurd (directory.known other id otherFound) (Nat.not_lt.mpr new.1)
    by_cases leftSame : left = name
    · by_cases rightSame : right = name
      · exact leftSame.trans rightSame.symm
      · exact absurd rightFound (apart right rightSame (leftSame ▸ leftFound))
    · by_cases rightSame : right = name
      · exact absurd leftFound (apart left leftSame (rightSame ▸ rightFound))
      · rw [changes.node?_other leftSame] at leftFound
        rw [changes.node?_other rightSame] at rightFound
        exact directory.distinct left right id leftFound rightFound

end ChangesOnly

/-- What writing to an open file does: no name and no other file is touched. -/
structure WritesOnly (id : FileId) (before after : FileSystem) : Prop where
  nodes : after.nodes = before.nodes
  nextFile : after.nextFile = before.nextFile
  contents : ∀ other, other ≠ id → after.content other = before.content other

namespace WritesOnly

theorem refl (files : FileSystem) : WritesOnly id files files :=
  ⟨rfl, rfl, fun _ _ => rfl⟩

theorem trans (first : WritesOnly id before middle) (second : WritesOnly id middle after) :
    WritesOnly id before after where
  nodes := second.nodes.trans first.nodes
  nextFile := second.nextFile.trans first.nextFile
  contents other different :=
    (second.contents other different).trans (first.contents other different)

theorem node? (writes : WritesOnly id before after) (location : Location) :
    after.node? location = before.node? location := by
  simp only [FileSystem.node?, writes.nodes]

theorem setContent (files : FileSystem) (bytes : Bytes) :
    WritesOnly id files (files.setContent id bytes) where
  nodes := rfl
  nextFile := rfl
  contents other different := by rw [content_setContent, if_neg different]

theorem append (files : FileSystem) (bytes : Bytes) :
    WritesOnly id files (files.append id bytes) := by
  unfold FileSystem.append
  split
  · exact refl files
  · exact setContent files _

theorem resize (files : FileSystem) (length : Nat) :
    WritesOnly id files (files.resize id length) :=
  setContent files _

theorem writeAt (files : FileSystem) (offset : Nat) (bytes : Bytes) :
    WritesOnly id files (files.writeAt id offset bytes) := by
  unfold FileSystem.writeAt
  split
  · exact refl files
  · exact setContent files _

theorem changesOnly (writes : WritesOnly id before after) (directory : before.DirectoryAt path home)
    (found : before.node? (home ++ [name]) = some (.file id)) :
    ChangesOnly home name before after where
  nodes location _ := writes.node? location
  contents other otherId different otherFound := by
    apply writes.contents
    rintro rfl
    exact different (directory.distinct other name otherId otherFound found)
  grows := Nat.le_of_eq writes.nextFile.symm
  own otherId otherFound := Or.inl ((writes.node? _).symm.trans otherFound)

end WritesOnly

theorem DirectoryAt.locate_join (directory : files.DirectoryAt path home)
    (isName : Path.IsName name) :
    files.locate (Path.join path name) = .ok (home ++ [name]) :=
  directory.leads.locate_join isName

theorem LeadsTo.openFile_obstructed (leads : files.LeadsTo path home)
    (isName : Path.IsName name) (found : files.node? (home ++ [name]) = some .directory) :
    files.openFile (Path.join path name) = .error .isDirectory := by
  simp only [openFile, leads.locate_join isName, Path.endsInSlash_join path isName]
  simp [bind, Except.bind, found]

theorem DirectoryAt.openFile_obstructed (directory : files.DirectoryAt path home)
    (isName : Path.IsName name) (found : files.node? (home ++ [name]) = some .directory) :
    files.openFile (Path.join path name) = .error .isDirectory :=
  directory.leads.openFile_obstructed isName found

theorem LeadsTo.openFile_present (leads : files.LeadsTo path home) (isName : Path.IsName name)
    (found : files.node? (home ++ [name]) = some (.file id)) :
    files.openFile (Path.join path name) = .ok (id, files) := by
  simp only [openFile, leads.locate_join isName, Path.endsInSlash_join path isName]
  simp [bind, Except.bind, found, pure, Except.pure]

theorem DirectoryAt.openFile_present (directory : files.DirectoryAt path home)
    (isName : Path.IsName name) (found : files.node? (home ++ [name]) = some (.file id)) :
    files.openFile (Path.join path name) = .ok (id, files) :=
  directory.leads.openFile_present isName found

theorem node?_set (files : FileSystem) {location : Location} (below : location ≠ [])
    (node : Node) (sought : Location) :
    ({ files with nodes := files.nodes.set location node } : FileSystem).node? sought =
      if sought = location then some node else files.node? sought := by
  by_cases root : sought = []
  · subst root
    simp [node?, Ne.symm below]
  · simp only [node?, if_neg root, Dictionary.find?_set]

theorem node?_erase (files : FileSystem) {location : Location} (below : location ≠ [])
    (sought : Location) :
    ({ files with nodes := files.nodes.erase location } : FileSystem).node? sought =
      if sought = location then none else files.node? sought := by
  by_cases root : sought = []
  · subst root
    simp [node?, Ne.symm below]
  · simp only [node?, if_neg root, Dictionary.find?_erase]

/-- What has been moved is found at its goal, and nothing where it was. -/
theorem node?_moved (files : FileSystem) {origin goal : Location} (originBelow : origin ≠ [])
    (goalBelow : goal ≠ []) (node : Node) (sought : Location) :
    ({ files with nodes := (files.nodes.erase origin).set goal node } : FileSystem).node? sought =
      if sought = goal then some node
      else if sought = origin then none else files.node? sought := by
  rw [node?_set { files with nodes := files.nodes.erase origin } goalBelow node sought,
    node?_erase files originBelow sought]

/-- What a file system is once a new file has been made at a location. -/
def withNewFile (files : FileSystem) (location : Location) : FileSystem where
  nodes := files.nodes.set location (.file files.nextFile)
  contents := files.contents.set files.nextFile []
  nextFile := files.nextFile + 1

theorem node?_withNewFile (files : FileSystem) (home : Location) (name : String)
    (sought : Location) :
    (files.withNewFile (home ++ [name])).node? sought =
      if sought = home ++ [name] then some (.file files.nextFile) else files.node? sought :=
  node?_set files (by simp) _ sought

theorem content_withNewFile (files : FileSystem) (location : Location) (id : FileId) :
    (files.withNewFile location).content id =
      if id = files.nextFile then [] else files.content id := by
  simp only [withNewFile, content, Dictionary.find?_set]
  split <;> rfl

theorem LeadsTo.openFile_absent (leads : files.LeadsTo path home) (isName : Path.IsName name)
    (absent : files.node? (home ++ [name]) = none) :
    files.openFile (Path.join path name) =
      .ok (files.nextFile, files.withNewFile (home ++ [name])) := by
  simp only [openFile, leads.locate_join isName, Path.endsInSlash_join path isName]
  simp [bind, Except.bind, absent, pure, Except.pure, withNewFile]

private theorem changesOnly_withNewFile (directory : files.DirectoryAt path home) (name : String) :
    ChangesOnly home name files (files.withNewFile (home ++ [name])) where
  nodes location different := by rw [node?_withNewFile, if_neg different]
  contents other id _ found := by
    have old : id ≠ files.nextFile := Nat.ne_of_lt (directory.known other id found)
    rw [content_withNewFile, if_neg old]
  grows := Nat.le_succ _
  own id found := by
    rw [node?_withNewFile, if_pos rfl] at found
    cases found
    exact Or.inr ⟨Nat.le_refl _, Nat.lt_succ_self _⟩

theorem DirectoryAt.openFile_absent (directory : files.DirectoryAt path home)
    (isName : Path.IsName name) (absent : files.node? (home ++ [name]) = none) :
    ∃ id opened, files.openFile (Path.join path name) = .ok (id, opened) ∧
      opened.node? (home ++ [name]) = some (.file id) ∧ opened.content id = [] ∧
      ChangesOnly home name files opened := by
  refine ⟨files.nextFile, files.withNewFile (home ++ [name]),
    directory.leads.openFile_absent isName absent, ?_, ?_, changesOnly_withNewFile directory name⟩
  · rw [node?_withNewFile, if_pos rfl]
  · rw [content_withNewFile, if_pos rfl]

/-- A file can be opened under every name that no directory has. -/
theorem DirectoryAt.openFile_exists (directory : files.DirectoryAt path home)
    (isName : Path.IsName name) (free : files.node? (home ++ [name]) ≠ some .directory) :
    ∃ id opened, files.openFile (Path.join path name) = .ok (id, opened) ∧
      opened.node? (home ++ [name]) = some (.file id) ∧ ChangesOnly home name files opened := by
  cases found : files.node? (home ++ [name]) with
  | none =>
      obtain ⟨id, opened, result, here, _, changes⟩ := directory.openFile_absent isName found
      exact ⟨id, opened, result, here, changes⟩
  | some node =>
      cases node with
      | directory => exact absurd found free
      | file id =>
          exact ⟨id, files, directory.openFile_present isName found, found, ChangesOnly.refl files⟩

theorem LeadsTo.lookup_join (leads : files.LeadsTo path home) (isName : Path.IsName name) :
    files.lookup (Path.join path name) =
      match files.node? (home ++ [name]) with
      | none => .error .notFound
      | some node => .ok node := by
  simp only [lookup, leads.locate_join isName, Path.endsInSlash_join path isName]
  cases found : files.node? (home ++ [name]) with
  | none => simp [bind, Except.bind, found]
  | some node => cases node <;> simp [bind, Except.bind, found, pure, Except.pure]

theorem LeadsTo.pathExists_join (leads : files.LeadsTo path home) (isName : Path.IsName name) :
    files.pathExists (Path.join path name) = (files.node? (home ++ [name])).isSome := by
  rw [pathExists, leads.lookup_join isName]
  cases files.node? (home ++ [name]) <;> rfl

theorem DirectoryAt.pathExists_join (directory : files.DirectoryAt path home)
    (isName : Path.IsName name) :
    files.pathExists (Path.join path name) = (files.node? (home ++ [name])).isSome :=
  directory.leads.pathExists_join isName

theorem LeadsTo.fileAt_join (leads : files.LeadsTo path home) (isName : Path.IsName name)
    (found : files.node? (home ++ [name]) = some (.file id)) :
    files.fileAt (Path.join path name) = .ok id := by
  simp only [fileAt, leads.lookup_join isName, found]
  rfl

theorem DirectoryAt.fileAt_join (directory : files.DirectoryAt path home)
    (isName : Path.IsName name) (found : files.node? (home ++ [name]) = some (.file id)) :
    files.fileAt (Path.join path name) = .ok id :=
  directory.leads.fileAt_join isName found

theorem LeadsTo.read_join (leads : files.LeadsTo path home) (isName : Path.IsName name)
    (found : files.node? (home ++ [name]) = some (.file id)) :
    files.read (Path.join path name) = .ok (files.content id) := by
  simp only [read, leads.fileAt_join isName found]
  rfl

theorem DirectoryAt.read_join (directory : files.DirectoryAt path home)
    (isName : Path.IsName name) (found : files.node? (home ++ [name]) = some (.file id)) :
    files.read (Path.join path name) = .ok (files.content id) :=
  directory.leads.read_join isName found

/-- What stands under another name is read as before. -/
theorem ChangesOnly.read_join (changes : ChangesOnly home name before after)
    (directory : before.DirectoryAt path home) (isName : Path.IsName other)
    (different : other ≠ name) :
    after.read (Path.join path other) = before.read (Path.join path other) := by
  have leads := (changes.directoryAt directory).leads
  have kept := changes.node?_other different
  simp only [read, fileAt, leads.lookup_join isName, directory.leads.lookup_join isName, kept]
  cases found : before.node? (home ++ [other]) with
  | none => rfl
  | some node =>
      cases node with
      | directory => rfl
      | file id => exact congrArg Except.ok (changes.contents other id different found)

/-- The names of a directory after a file has taken the place of another name. -/
structure Renames (home : Location) (name target : String) (before after : FileSystem) : Prop where
  here : after.node? (home ++ [target]) = before.node? (home ++ [name])
  gone : after.node? (home ++ [name]) = none
  nodes : ∀ location, location ≠ home ++ [target] → location ≠ home ++ [name] →
    after.node? location = before.node? location
  contents : after.contents = before.contents
  nextFile : after.nextFile = before.nextFile

namespace Renames

variable {target : String}

theorem node?_other (renames : Renames home name target before after) (notTarget : other ≠ target)
    (notName : other ≠ name) :
    after.node? (home ++ [other]) = before.node? (home ++ [other]) :=
  renames.nodes _ (by simpa using notTarget) (by simpa using notName)

theorem content (renames : Renames home name target before after) (id : FileId) :
    after.content id = before.content id := by
  simp only [FileSystem.content, renames.contents]

private theorem origin (renames : Renames home name target before after)
    (found : after.node? (home ++ [other]) = some (.file id)) :
    ∃ former, before.node? (home ++ [former]) = some (.file id) ∧
      (other = target ∧ former = name ∨ other ≠ target ∧ other ≠ name ∧ former = other) := by
  by_cases isTarget : other = target
  · subst isTarget
    exact ⟨name, renames.here.symm.trans found, Or.inl ⟨rfl, rfl⟩⟩
  · by_cases isName : other = name
    · rw [isName, renames.gone] at found
      cases found
    · exact ⟨other, (renames.node?_other isTarget isName).symm.trans found,
        Or.inr ⟨isTarget, isName, rfl⟩⟩

theorem directoryAt (renames : Renames home name target before after)
    (directory : before.DirectoryAt path home) : after.DirectoryAt path home where
  reached := by
    obtain ⟨way, leads, apart, kept⟩ := directory.reached
    refine ⟨way, leads, apart, fun location found => ?_⟩
    rw [renames.nodes location (fun same => apart target (same ▸ found))
      (fun same => apart name (same ▸ found))]
    exact kept location found
  known other id found := by
    obtain ⟨former, formerFound, _⟩ := renames.origin found
    exact renames.nextFile ▸ directory.known former id formerFound
  distinct left right id leftFound rightFound := by
    obtain ⟨leftFormer, leftBefore, leftCase⟩ := renames.origin leftFound
    obtain ⟨rightFormer, rightBefore, rightCase⟩ := renames.origin rightFound
    have same := directory.distinct leftFormer rightFormer id leftBefore rightBefore
    rcases leftCase with ⟨leftTarget, leftName⟩ | ⟨_, leftNotName, leftSame⟩
    · rcases rightCase with ⟨rightTarget, _⟩ | ⟨_, rightNotName, rightSame⟩
      · exact leftTarget.trans rightTarget.symm
      · exact absurd (rightSame.symm.trans (same.symm.trans leftName)) rightNotName
    · rcases rightCase with ⟨_, rightName⟩ | ⟨_, _, rightSame⟩
      · exact absurd (leftSame.symm.trans (same.trans rightName)) leftNotName
      · exact leftSame.symm.trans (same.trans rightSame)

end Renames

/-- A file takes any name that no directory has. -/
theorem DirectoryAt.rename_join {target : String} (directory : files.DirectoryAt path home)
    (isName : Path.IsName name) (targetIsName : Path.IsName target) (different : name ≠ target)
    (found : files.node? (home ++ [name]) = some (.file id))
    (free : files.node? (home ++ [target]) ≠ some .directory) :
    ∃ renamed, files.rename (Path.join path name) (Path.join path target) = .ok renamed ∧
      Renames home name target files renamed := by
  have apart : ¬ home ++ [name] = home ++ [target] := by simpa using different
  let renamed : FileSystem := { files with
    nodes := (files.nodes.erase (home ++ [name])).set (home ++ [target]) (.file id) }
  have nodes : ∀ location, renamed.node? location =
      if location = home ++ [target] then some (.file id)
      else if location = home ++ [name] then none else files.node? location :=
    node?_moved files (by simp) (by simp) (.file id)
  refine ⟨renamed, ?_, ?_, ?_, ?_, rfl, rfl⟩
  · have named : ¬ (Path.endsUnnamed (Path.steps (Path.join path name)) = true ∨
        Path.endsUnnamed (Path.steps (Path.join path target)) = true) := by
      simp [Path.endsUnnamed_join path isName, Path.endsUnnamed_join path targetIsName]
    simp only [rename, directory.locate_join isName, directory.locate_join targetIsName]
    cases targetFound : files.node? (home ++ [target]) with
    | none =>
        simp [bind, Except.bind, named, found, targetFound, apart, pure, Except.pure,
          Path.endsInSlash_join path isName, Path.endsInSlash_join path targetIsName, renamed]
    | some node =>
        cases node with
        | directory => exact absurd targetFound free
        | file _ =>
            simp [bind, Except.bind, named, found, targetFound, apart, pure, Except.pure,
              Path.endsInSlash_join path isName, Path.endsInSlash_join path targetIsName, renamed]
  · rw [nodes, if_pos rfl, found]
  · rw [nodes, if_neg apart, if_pos rfl]
  · intro location notTarget notName
    rw [nodes, if_neg notTarget, if_neg notName]

/-- A directory does not make room for a file. -/
theorem DirectoryAt.rename_obstructed {target : String} (directory : files.DirectoryAt path home)
    (isName : Path.IsName name) (targetIsName : Path.IsName target) (different : name ≠ target)
    (found : files.node? (home ++ [name]) = some (.file id))
    (obstructed : files.node? (home ++ [target]) = some .directory) :
    files.rename (Path.join path name) (Path.join path target) = .error .isDirectory := by
  have named : ¬ (Path.endsUnnamed (Path.steps (Path.join path name)) = true ∨
      Path.endsUnnamed (Path.steps (Path.join path target)) = true) := by
    simp [Path.endsUnnamed_join path isName, Path.endsUnnamed_join path targetIsName]
  have apart : (home ++ [target]).isPrefixOf (home ++ [name]) = false := by
    rw [Bool.eq_false_iff, Ne, List.isPrefixOf_iff_prefix, List.prefix_append_right_inj,
      List.cons_prefix_cons]
    exact fun same => different same.1.symm
  simp only [rename, directory.locate_join isName, directory.locate_join targetIsName]
  simp [bind, Except.bind, named, found, obstructed, apart,
    Path.endsInSlash_join path isName, Path.endsInSlash_join path targetIsName]

theorem changesOnly_setDirectory (files : FileSystem) (home : Location) (name : String) :
    ChangesOnly home name files
      { files with nodes := files.nodes.set (home ++ [name]) .directory } where
  nodes location different := by rw [node?_set files (by simp), if_neg different]
  contents _ _ _ _ := rfl
  grows := Nat.le_refl _
  own id found := by
    rw [node?_set files (by simp), if_pos rfl] at found
    cases found

theorem changesOnly_erase (files : FileSystem) (home : Location) (name : String) :
    ChangesOnly home name files { files with nodes := files.nodes.erase (home ++ [name]) } where
  nodes location different := by rw [node?_erase files (by simp), if_neg different]
  contents _ _ _ _ := rfl
  grows := Nat.le_refl _
  own id found := by
    rw [node?_erase files (by simp), if_pos rfl] at found
    cases found

/-- An attempt to make a directory under a name, which fails if there is something already. -/
theorem DirectoryAt.changesOnly_makeDirectory (directory : files.DirectoryAt path home)
    (isName : Path.IsName name) :
    ChangesOnly home name files
      ((files.makeDirectorySteps (Path.steps (Path.join path name))).toOption.getD files) := by
  simp only [makeDirectorySteps, directory.leads.locateSteps_join isName]
  cases found : files.node? (home ++ [name]) with
  | some node =>
      simp only [bind, Except.bind, found]
      exact ChangesOnly.refl files
  | none =>
      simp only [bind, Except.bind, found]
      exact changesOnly_setDirectory files home name

/-- An attempt to remove a directory under a name, which fails unless there is an empty one. -/
theorem DirectoryAt.changesOnly_removeDirectory (directory : files.DirectoryAt path home)
    (isName : Path.IsName name) :
    ChangesOnly home name files
      ((files.removeDirectory (Path.join path name)).toOption.getD files) := by
  have last : (Path.steps (Path.join path name)).getLast? = some name := by
    simp [Path.steps_join path isName]
  simp only [removeDirectory, directory.locate_join isName, last, if_neg isName.notHere,
    if_neg isName.notUp]
  cases found : files.node? (home ++ [name]) with
  | none =>
      simp only [bind, Except.bind, found]
      exact ChangesOnly.refl files
  | some node =>
      cases node with
      | file id =>
          simp only [bind, Except.bind, found]
          exact ChangesOnly.refl files
      | directory =>
          simp only [bind, Except.bind, found]
          split
          · exact ChangesOnly.refl files
          · exact changesOnly_erase files home name

end FileSystem

end RowStore
