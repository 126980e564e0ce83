import RowStore.Proofs.FileSystem.Directory

namespace RowStore.FileSystem

variable {files before after opened renamed : FileSystem} {path source target : String}
  {id other : FileId} {location : Location}

/-- Where a path leads does not depend on what is not a directory. -/
theorem locate_mono (kept : ∀ location, before.node? location = some .directory →
      after.node? location = some .directory)
    (located : before.locate path = .ok location) : after.locate path = .ok location := by
  by_cases empty : path = ""
  · rw [locate, if_pos empty] at located
    cases located
  · rw [locate, if_neg empty, locateSteps] at located ⊢
    cases last : (Path.steps path).getLast? with
    | none =>
        rw [last] at located
        exact located
    | some step =>
        rw [last] at located
        cases walked : (Path.steps path).dropLast.foldlM before.enter [] with
        | error fault =>
            simp only [walked] at located
            cases located
        | ok directory =>
            simp only [walked] at located
            simp only [walk_mono kept walked]
            exact located

/-- The path leads to the file. -/
def Names (files : FileSystem) (path : String) (id : FileId) : Prop :=
  ∃ location, files.locate path = .ok location ∧ files.node? location = some (.file id)

theorem Names.of_writesOnly (names : before.Names path id)
    (writes : WritesOnly other before after) : after.Names path id := by
  obtain ⟨location, located, found⟩ := names
  refine ⟨location, locate_mono (fun location directory => ?_) located, ?_⟩
  · rwa [writes.node?]
  · rwa [writes.node?]

theorem WritesOnly.fileAt (writes : WritesOnly other before after) (path : String) :
    after.fileAt path = before.fileAt path := by
  have node : after.node? = before.node? := funext writes.node?
  have enter : after.enter = before.enter := by
    funext location step
    simp only [FileSystem.enter, node]
  simp only [FileSystem.fileAt, lookup, locate, locateSteps, enter, node]

/-- A file that is opened was there, or is a new one where there was nothing. -/
theorem openFile_eq_ok (opening : files.openFile path = .ok (id, opened)) :
    ∃ location, files.locate path = .ok location ∧
      (files.node? location = some (.file id) ∧ opened = files ∨
        files.node? location = none ∧ id = files.nextFile ∧
          opened = files.withNewFile location) := by
  cases located : files.locate path with
  | error fault =>
      rw [openFile, located] at opening
      cases opening
  | ok location =>
      rw [openFile, located] at opening
      refine ⟨location, rfl, ?_⟩
      cases slash : Path.endsInSlash path with
      | true => simp [slash, bind, Except.bind] at opening
      | false =>
          cases found : files.node? location with
          | none =>
              simp only [slash, found, bind, Except.bind, pure, Except.pure, Except.ok.injEq,
                Prod.mk.injEq, Bool.false_eq_true, if_false] at opening
              exact Or.inr ⟨rfl, opening.1.symm, opening.2.symm⟩
          | some node =>
              cases node with
              | directory => simp [slash, found, bind, Except.bind] at opening
              | file present =>
                  simp only [slash, found, bind, Except.bind, pure, Except.pure, Except.ok.injEq,
                    Prod.mk.injEq, Bool.false_eq_true, if_false] at opening
                  exact Or.inl ⟨by rw [opening.1], opening.2.symm⟩

theorem below_of_absent (absent : files.node? location = none) : location ≠ [] := by
  rintro rfl
  simp [node?] at absent

theorem below_of_file (found : files.node? location = some (.file id)) : location ≠ [] := by
  rintro rfl
  simp [node?] at found

/-- What is opened stands where the path leads, and no other name is touched. -/
theorem openFile_here (opening : files.openFile path = .ok (id, opened)) :
    ∃ location, files.locate path = .ok location ∧ opened.node? location = some (.file id) ∧
      files.node? location ≠ some .directory ∧
      ∀ other, other ≠ location → opened.node? other = files.node? other := by
  obtain ⟨location, located, ⟨found, rfl⟩ | ⟨absent, rfl, rfl⟩⟩ := openFile_eq_ok opening
  · exact ⟨location, located, found, by simp [found], fun _ _ => rfl⟩
  · have nodes := node?_set files (below_of_absent absent) (.file files.nextFile)
    exact ⟨location, located, (nodes location).trans (if_pos rfl), by simp [absent],
      fun other different => (nodes other).trans (if_neg different)⟩

theorem names_of_openFile (opening : files.openFile path = .ok (id, opened)) :
    opened.Names path id := by
  obtain ⟨location, located, here, notDirectory, others⟩ := openFile_here opening
  refine ⟨location, locate_mono (fun other directory => ?_) located, here⟩
  have different : other ≠ location := fun same => notDirectory (same ▸ directory)
  rw [others other different, directory]

theorem fileAt_eq_ok_iff :
    files.fileAt path = .ok id ↔ Path.endsInSlash path = false ∧ files.Names path id := by
  constructor
  · intro reached
    cases located : files.locate path with
    | error fault =>
        rw [fileAt, lookup, located] at reached
        cases reached
    | ok location =>
        rw [fileAt, lookup, located] at reached
        cases found : files.node? location with
        | none =>
            simp only [found, bind, Except.bind] at reached
            cases reached
        | some node =>
            simp only [found, bind, Except.bind] at reached
            cases node with
            | directory => cases reached
            | file present =>
                cases slash : Path.endsInSlash path with
                | true =>
                    rw [slash] at reached
                    cases reached
                | false =>
                    rw [slash] at reached
                    cases reached
                    exact ⟨rfl, location, located, found⟩
  · rintro ⟨noSlash, location, located, found⟩
    simp [fileAt, lookup, located, found, noSlash, bind, Except.bind, pure, Except.pure]

theorem openFile_of_fileAt (reached : files.fileAt path = .ok id) :
    files.openFile path = .ok (id, files) := by
  obtain ⟨noSlash, location, located, found⟩ := fileAt_eq_ok_iff.mp reached
  simp [openFile, located, found, noSlash, bind, Except.bind, pure, Except.pure]

theorem openFile_new (noSlash : Path.endsInSlash path = false)
    (located : files.locate path = .ok location) (absent : files.node? location = none) :
    files.openFile path = .ok (files.nextFile, files.withNewFile location) := by
  simp [openFile, located, absent, noSlash, bind, Except.bind, pure, Except.pure, withNewFile]

theorem read_of_fileAt (reached : files.fileAt path = .ok id) :
    files.read path = .ok (files.content id) := by
  simp [read, reached, bind, Except.bind, pure, Except.pure]

theorem read_of_locate (located : files.locate path = .ok location)
    (found : files.node? location = some (.file id)) (noSlash : Path.endsInSlash path = false) :
    files.read path = .ok (files.content id) :=
  read_of_fileAt (fileAt_eq_ok_iff.mpr ⟨noSlash, location, located, found⟩)

section

variable {front name : List Char} {home : Location}

theorem locateSteps_concat (files : FileSystem) (upper : List String) (last : String) :
    files.locateSteps (upper ++ [last]) =
      (upper.foldlM files.enter []).map (Location.follow · last) := by
  simp only [locateSteps, List.getLast?_append, List.getLast?_singleton, List.dropLast_concat]
  rfl

private theorem locate_eq_locateSteps {steps : List String} {step : String}
    (same : Path.steps path = steps ++ [step]) :
    files.locate path = files.locateSteps (steps ++ [step]) := by
  have nonempty : path ≠ "" := by
    rintro rfl
    have noSteps : Path.steps "" = [] := rfl
    rw [noSteps] at same
    simp at same
  rw [locate, if_neg nonempty, same]

/-- What is called by its name is not the root. -/
theorem below_of_locate (located : files.locate path = .ok location)
    (named : Path.endsUnnamed (Path.steps path) = false) : location ≠ [] := by
  rcases List.eq_nil_or_concat (Path.steps path) with none | ⟨upper, last, steps⟩
  · rw [none] at named
    cases named
  · rw [List.concat_eq_append] at steps
    rw [Path.endsUnnamed, steps, List.getLast?_append, List.getLast?_singleton] at named
    have isStep : ¬ last = Path.here ∧ ¬ last = Path.up := by simpa using named
    rw [locate_eq_locateSteps steps, locateSteps_concat] at located
    cases walked : upper.foldlM files.enter [] with
    | error fault =>
        rw [walked] at located
        cases located
    | ok home =>
        rw [walked] at located
        have follows := home.follow_name isStep.1 isStep.2
        rw [← Except.ok.inj located]
        simp [follows]

private theorem walk_stays {steps : List String} (allStay : ∀ step ∈ steps, step = Path.here)
    (directory : files.node? home = some .directory) :
    steps.foldlM files.enter home = .ok home := by
  induction steps with
  | nil => rfl
  | cons step rest ih =>
      have stays : home = home.follow step := by
        rw [allStay step List.mem_cons_self, Location.follow_here]
      rw [List.foldlM_cons, enter_eq_ok_iff.mpr ⟨stays, directory⟩]
      exact ih fun other member => allStay other (List.mem_cons_of_mem step member)

/-- A path leads to its last name in the directory before it. If the path goes on, the name has to
belong to a directory. -/
theorem locate_named (found : Path.splitName? path.toList = some (front, name))
    (leads : files.LeadsTo (String.ofList front) home) :
    files.locate path =
      if Path.endsUnnamed (Path.steps path) then files.enter home (String.ofList name)
      else .ok (home ++ [String.ofList name]) := by
  have isName := Path.isName_of_splitName? found
  obtain ⟨stays, allStay, steps⟩ := Path.steps_of_splitName? found
  have walked : (Path.steps (String.ofList front)).foldlM files.enter [] = .ok home := leads
  rcases List.eq_nil_or_concat stays with rfl | ⟨init, last, rfl⟩
  · have named : Path.endsUnnamed (Path.steps path) = false := by
      simp [Path.endsUnnamed, steps, isName.notHere, isName.notUp]
    have follows := home.follow_name isName.notHere isName.notUp
    rw [locate_eq_locateSteps steps, locateSteps_concat, walked, named]
    exact congrArg Except.ok follows
  · obtain rfl := allStay last (by simp)
    have initStay : ∀ step ∈ init, step = Path.here := fun step member =>
      allStay step (by simp [member])
    have whole : Path.steps path =
        Path.steps (String.ofList front) ++ String.ofList name :: init ++ [Path.here] := by
      rw [steps, List.concat_eq_append, List.append_assoc, List.cons_append]
    have unnamed : Path.endsUnnamed (Path.steps path) = true := by
      rw [Path.endsUnnamed, whole, List.getLast?_append, List.getLast?_singleton]
      rfl
    rw [locate_eq_locateSteps whole, locateSteps_concat, List.foldlM_append, walked, unnamed]
    change Except.map _ ((String.ofList name :: init).foldlM files.enter home) = _
    rw [List.foldlM_cons]
    cases entered : files.enter home (String.ofList name) with
    | error fault => rfl
    | ok next =>
        have stays := walk_stays initStay (enter_eq_ok_iff.mp entered).2
        change Except.map _ (init.foldlM files.enter next) = _
        rw [stays]
        rfl

theorem exists_home_of_locate (found : Path.splitName? path.toList = some (front, name))
    (located : files.locate path = .ok location) :
    ∃ home, files.LeadsTo (String.ofList front) home ∧
      location = home ++ [String.ofList name] := by
  obtain ⟨stays, -, steps⟩ := Path.steps_of_splitName? found
  have reached : ∃ home, files.LeadsTo (String.ofList front) home := by
    have whole : Path.steps path = Path.steps (String.ofList front) ++
        (String.ofList name :: stays).dropLast ++
        [(String.ofList name :: stays).getLast (List.cons_ne_nil _ _)] := by
      rw [List.append_assoc, List.dropLast_concat_getLast, steps]
    rw [locate_eq_locateSteps whole, locateSteps_concat, List.foldlM_append] at located
    cases walked : (Path.steps (String.ofList front)).foldlM files.enter [] with
    | error fault =>
        rw [walked] at located
        cases located
    | ok home => exact ⟨home, walked⟩
  obtain ⟨home, leads⟩ := reached
  have isName := Path.isName_of_splitName? found
  refine ⟨home, leads, ?_⟩
  rw [locate_named found leads] at located
  split at located
  · rw [(enter_eq_ok_iff.mp located).1, home.follow_name isName.notHere isName.notUp]
  · exact (Except.ok.inj located).symm

theorem locate_congr (found : Path.splitName? path.toList = some (front, name))
    (beforeLeads : before.LeadsTo (String.ofList front) home)
    (afterLeads : after.LeadsTo (String.ofList front) home)
    (same : after.node? (home ++ [String.ofList name]) =
      before.node? (home ++ [String.ofList name])) :
    after.locate path = before.locate path := by
  have isName := Path.isName_of_splitName? found
  have entering : after.enter home (String.ofList name) =
      before.enter home (String.ofList name) := by
    simp only [enter, home.follow_name isName.notHere isName.notUp, same]
  rw [locate_named found afterLeads, locate_named found beforeLeads, entering]

/-- A path that ends in a step up leads to a directory, if anywhere. -/
theorem isDirectory_of_up (ends : path.toList = front ++ ['.', '.'])
    (lead : front = [] ∨ ∃ upper, front = upper ++ ['/'])
    (located : files.locate path = .ok location) : files.node? location = some .directory := by
  have steps : Path.steps path = Path.steps (String.ofList front) ++ [Path.up] :=
    Path.steps_append ends (by simp) (by simp) lead
  rw [locate_eq_locateSteps steps, locateSteps_concat] at located
  cases walked : (Path.steps (String.ofList front)).foldlM files.enter [] with
  | error fault =>
      rw [walked] at located
      cases located
  | ok home =>
      rw [walked] at located
      have leads : files.LeadsTo (String.ofList front) home := walked
      rw [← Except.ok.inj located]
      simp only [Location.follow_up]
      exact leads.above (List.dropLast_prefix home)

/-- Such a path cannot be opened as a file. -/
theorem openFile_up (ends : path.toList = front ++ ['.', '.'])
    (lead : front = [] ∨ ∃ upper, front = upper ++ ['/']) :
    ∃ fault, files.openFile path = .error fault := by
  cases opening : files.openFile path with
  | error fault => exact ⟨fault, rfl⟩
  | ok result =>
      obtain ⟨location, located, ⟨found, -⟩ | ⟨absent, -⟩⟩ := openFile_eq_ok opening
      · rw [isDirectory_of_up ends lead located] at found
        cases found
      · rw [isDirectory_of_up ends lead located] at absent
        cases absent

end

/-- A file has gone from where it was to its goal, unless that is the same. -/
structure Moved (id : FileId) (origin goal : Location) (before after : FileSystem) : Prop where
  found : before.node? origin = some (.file id)
  free : before.node? goal ≠ some .directory
  nodes : ∀ location, after.node? location =
    if location = goal then some (.file id)
    else if location = origin then none else before.node? location
  contents : after.contents = before.contents
  nextFile : after.nextFile = before.nextFile

/-- A file takes the place of anything that is not a directory. -/
theorem rename_eq_ok (located : files.locate source = .ok location)
    (found : files.node? location = some (.file id))
    (moved : files.rename source target = .ok renamed) :
    ∃ goal, files.locate target = .ok goal ∧ Path.endsInSlash target = false ∧
      Moved id location goal files renamed := by
  cases targetLocated : files.locate target with
  | error fault =>
      rw [rename, located, targetLocated] at moved
      cases moved
  | ok goal =>
      simp only [rename, located, targetLocated, found, bind, Except.bind] at moved
      split at moved
      · cases moved
      · split at moved
        · cases moved
        · rename_i noSlash
          split at moved
          · cases moved
          · rename_i free
            refine ⟨goal, rfl, by simpa using fun slash => noSlash (Or.inr slash), ?_⟩
            split at moved <;> rename_i same
            · cases moved
              refine ⟨found, free, fun sought => ?_, rfl, rfl⟩
              split
              · rename_i isGoal
                rw [isGoal, ← same, found]
              · rename_i notGoal
                rw [if_neg (same ▸ notGoal)]
            · cases moved
              have goalBelow : goal ≠ [] := by
                rintro rfl
                simp [node?] at free
              exact ⟨found, free,
                node?_moved files (below_of_file found) goalBelow (.file id), rfl, rfl⟩

namespace Moved

variable {origin goal : Location}

theorem directory (moved : Moved id origin goal before after)
    (directory : before.node? location = some .directory) :
    after.node? location = some .directory := by
  have notGoal : location ≠ goal := fun same => moved.free (same ▸ directory)
  have notOrigin : location ≠ origin := by
    rintro rfl
    rw [moved.found] at directory
    cases directory
  rw [moved.nodes, if_neg notGoal, if_neg notOrigin, directory]

theorem content (moved : Moved id origin goal before after) (other : FileId) :
    after.content other = before.content other := by
  simp only [FileSystem.content, moved.contents]

theorem lookup_origin (moved : Moved id origin goal before after)
    (located : before.locate source = .ok origin) (apart : origin ≠ goal) :
    after.lookup source = .error .notFound := by
  have absent : after.node? origin = none := by
    rw [moved.nodes, if_neg apart, if_pos rfl]
  simp only [lookup, locate_mono (fun _ => moved.directory) located, bind, Except.bind, absent]

end Moved

/-- What has been renamed is read under its new name. -/
theorem Names.read_rename (names : files.Names source id)
    (moving : files.rename source target = .ok renamed) :
    renamed.read target = .ok (files.content id) := by
  obtain ⟨origin, located, found⟩ := names
  obtain ⟨goal, targetLocated, noSlash, moved⟩ := rename_eq_ok located found moving
  rw [← moved.content]
  refine read_of_locate (locate_mono (fun _ => moved.directory) targetLocated) ?_ noSlash
  rw [moved.nodes, if_pos rfl]

end RowStore.FileSystem
