import RowStore.FileSystem

/-!
Actions on the file system that may fail. What an action did to the files before it failed stays
done. The lemmas say what each action comes to when it is performed.
-/

namespace RowStore

abbrev Disk := ExceptT Fault (StateM FileSystem)

namespace Disk

/-- The outcome of an action and the files it leaves. -/
def perform {α : Type} (action : Disk α) (files : FileSystem) : Except Fault α × FileSystem :=
  action.run.run files

def fail {α : Type} (fault : Fault) : Disk α :=
  throw fault

def query {α : Type} (question : FileSystem → Except FileFault α) : Disk α := do
  match question (← get) with
  | .ok answer => return answer
  | .error fault => fail (.file fault)

/-- Change the files, or leave them alone when the change is refused. -/
def change (attempt : FileSystem → Except FileFault FileSystem) : Disk Unit := do
  let files ← query attempt
  set files

def openFile (path : String) : Disk FileId := do
  let (id, files) ← query (·.openFile path)
  set files
  return id

def makeDirectories (path : String) : Disk Unit := do
  let (outcome, files) := (← get).makeDirectories path
  set files
  match outcome with
  | .ok () => return ()
  | .error fault => fail (.file fault)

/-- Carry out an action that may fail and go on with its outcome. -/
def attempt {α : Type} (action : Disk α) : Disk (Except Fault α) :=
  ExceptT.mk do return .ok (← action.run)

section

variable {Answer Next : Type} (files : FileSystem)

@[simp] theorem perform_pure (answer : Answer) :
    (pure answer : Disk Answer).perform files = (.ok answer, files) := rfl

/-- A failed action ends the sequence. -/
theorem perform_bind (action : Disk Answer) (next : Answer → Disk Next) :
    (action >>= next).perform files =
      match action.perform files with
      | (.ok answer, after) => (next answer).perform after
      | (.error fault, after) => (.error fault, after) := by
  change ExceptT.bindCont next (action.perform files).1 (action.perform files).2 = _
  rcases action.perform files with ⟨outcome, after⟩
  cases outcome <;> rfl

/-- A sequence that succeeds has done so in both of its parts. -/
theorem exists_of_perform_bind {files after : FileSystem} {action : Disk Answer}
    {next : Answer → Disk Next} {result : Next}
    (performed : (action >>= next).perform files = (.ok result, after)) :
    ∃ answer middle, action.perform files = (.ok answer, middle) ∧
      (next answer).perform middle = (.ok result, after) := by
  rw [perform_bind] at performed
  split at performed
  · rename_i answer middle first
    exact ⟨answer, middle, first, performed⟩
  · cases performed

@[simp] theorem perform_fail (fault : Fault) :
    (fail fault : Disk Answer).perform files = (.error fault, files) := rfl

@[simp] theorem perform_get : (get : Disk FileSystem).perform files = (.ok files, files) := rfl

@[simp] theorem perform_set (after : FileSystem) :
    (set after : Disk PUnit).perform files = (.ok ⟨⟩, after) := rfl

@[simp] theorem perform_modify (edit : FileSystem → FileSystem) :
    (modify edit : Disk PUnit).perform files = (.ok ⟨⟩, edit files) := rfl

/-- A look at the files leaves them alone. -/
theorem perform_query (question : FileSystem → Except FileFault Answer) :
    (query question).perform files =
      match question files with
      | .ok answer => (.ok answer, files)
      | .error fault => (.error (.file fault), files) := by
  rw [query, perform_bind, perform_get]
  cases asked : question files with
  | error fault => simp only [asked, perform_fail]
  | ok answer => simp only [asked, perform_pure]

/-- A refused change leaves the files alone. -/
theorem perform_change (attempt : FileSystem → Except FileFault FileSystem) :
    (change attempt).perform files =
      match attempt files with
      | .ok after => (.ok (), after)
      | .error fault => (.error (.file fault), files) := by
  rw [change, perform_bind, perform_query]
  cases attempt files <;> rfl

theorem perform_openFile (path : String) :
    (openFile path).perform files =
      match files.openFile path with
      | .ok (id, opened) => (.ok id, opened)
      | .error fault => (.error (.file fault), files) := by
  rw [openFile, perform_bind, perform_query]
  cases files.openFile path <;> rfl

theorem perform_makeDirectories (path : String) :
    (makeDirectories path).perform files =
      match files.makeDirectories path with
      | (.ok (), made) => (.ok (), made)
      | (.error fault, made) => (.error (.file fault), made) := by
  simp only [makeDirectories, perform_bind, perform_get]
  rcases files.makeDirectories path with ⟨outcome, made⟩
  cases outcome <;> simp only [perform_set, perform_pure, perform_fail]

/-- An attempted action never fails, and does to the files what it does by itself. -/
theorem perform_attempt (action : Disk Answer) :
    (attempt action).perform files = (.ok (action.perform files).1, (action.perform files).2) :=
  rfl

end

end Disk

end RowStore
