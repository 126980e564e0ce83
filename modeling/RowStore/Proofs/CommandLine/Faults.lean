import RowStore.Proofs.CommandLine.RoundTrip
import RowStore.Proofs.Table.Faults

namespace RowStore

open FileSystem

theorem RowReader.noConfigFault_selectAfter (found : Row) (wanted : List Bytes)
    (reader : RowReader) : NoConfigFault (reader.selectAfter found wanted) := by
  fun_induction selectAfter found wanted reader with
  | case1 => exact noConfigFault_ok _
  | case2 | case3 => nofun
  | case4 | case5 => assumption

namespace Row

theorem noConfigFault_decode (bytes : Bytes) : NoConfigFault (decode bytes) := by
  unfold decode
  split <;> nofun

theorem noConfigFault_encode (row : Row) : NoConfigFault row.encode := by
  unfold encode encodeAfter
  rcases encodeInto_cases [] row with ⟨_, made⟩ | ⟨_, _, _, _, _, _, _, failed⟩
  · simp only [made]
    exact noConfigFault_ok _
  · simp only [failed]
    nofun

end Row

namespace Records

theorem noConfigFault_decode (fieldCount : Nat) (fields : Option (List Bytes)) (stored : Bytes) :
    NoConfigFault (decode fieldCount fields stored) := by
  unfold decode
  split
  · exact RowReader.noConfigFault_selectAfter _ _ _
  · split
    · rename_i refused
      exact (Row.noConfigFault_decode stored).error refused
    · split <;> nofun

theorem noConfigFault_read (fieldCount : Nat) (table : Table) (key : String)
    (fields : Option (List Bytes)) : NoConfigFault (read fieldCount table key fields) := by
  unfold read
  split
  · exact noConfigFault_ok _
  · exact (noConfigFault_decode _ _ _).bind fun _ => noConfigFault_ok _

theorem noConfigFault_collect (fieldCount : Nat) (fields : Option (List Bytes))
    (contents : Contents) (wanted : Nat) (cursor : Cursor) :
    NoConfigFault (collect fieldCount fields contents wanted cursor) := by
  induction wanted generalizing cursor with
  | zero => exact noConfigFault_ok _
  | succ wanted ih =>
      unfold collect
      split
      · exact noConfigFault_ok _
      · exact (noConfigFault_decode _ _ _).bind fun _ => (ih _).bind fun _ => noConfigFault_ok _

theorem noConfigFault_insert (table : Table) (key : String) (row : Row) (timestamp : UInt64) :
    (insert table key row timestamp).NoConfigFault := by
  unfold insert
  split
  · rename_i refused
    exact fun files => (Row.noConfigFault_encode row).error refused
  · exact table.noConfigFault_put _ _ _

end Records

namespace Response

/-- The answer to a call is no fault of the configuration. -/
def NoConfigFault (response : Response) : Prop :=
  ∀ cause, CommandLine.failure? response ≠ some (.config cause)

theorem noConfigFault_record {result : Except Fault (Option Row)}
    (spared : RowStore.NoConfigFault result) : (record result).NoConfigFault := by
  cases result with
  | error fault => exact fun cause same => spared cause (congrArg _ (Option.some.inj same))
  | ok found => cases found <;> nofun

theorem noConfigFault_records {result : Except Fault (List Row)}
    (spared : RowStore.NoConfigFault result) : (records result).NoConfigFault := by
  cases result with
  | error fault => exact fun cause same => spared cause (congrArg _ (Option.some.inj same))
  | ok rows => nofun

theorem noConfigFault_done {result : Except Fault Unit} (spared : RowStore.NoConfigFault result) :
    (done result).NoConfigFault := by
  cases result with
  | error fault => exact fun cause same => spared cause (congrArg _ (Option.some.inj same))
  | ok => nofun

end Response

theorem Records.noConfigFault_answer (fieldCount : Nat) (table : Table) (request : Request)
    (timestamp : UInt64) (files : FileSystem) :
    ∃ response next after, (answer fieldCount table request timestamp).perform files =
        (.ok (response, next), after) ∧ response.NoConfigFault := by
  have storing (key : String) (row : Row) :
      ∃ response next after, (answer fieldCount table (.insert key row) timestamp).perform files =
        (.ok (response, next), after) ∧ response.NoConfigFault := by
    have spared := noConfigFault_insert table key row timestamp files
    simp only [answer, Disk.perform_bind, Disk.perform_attempt]
    cases inserting : (insert table key row timestamp).perform files with
    | mk outcome after =>
        rw [inserting] at spared
        cases outcome with
        | ok written =>
            exact ⟨_, written, after, rfl, Response.noConfigFault_done (noConfigFault_ok ())⟩
        | error fault =>
            exact ⟨_, table, after, rfl, Response.noConfigFault_done (spared.error rfl)⟩
  cases request with
  | read key fields =>
      exact ⟨_, table, files, rfl, Response.noConfigFault_record (noConfigFault_read _ _ _ _)⟩
  | scan start count fields =>
      exact ⟨_, table, files, rfl, Response.noConfigFault_records (noConfigFault_collect _ _ _ _ _)⟩
  | update key row | insert key row => exact storing key row
  | delete key =>
      exact ⟨_, table, files, rfl, Response.noConfigFault_done (noConfigFault_ok ())⟩

namespace Connection

theorem noConfigFault_answer {connection : Connection} {host : TableHost} {request : Request}
    {timestamp : UInt64} {response : Response}
    (answered : (connection.answer host request timestamp).1 = some response) :
    response.NoConfigFault := by
  unfold answer at answered
  split at answered
  · cases answered
  · rename_i table _
    obtain ⟨given, next, after, answering, spared⟩ :=
      Records.noConfigFault_answer connection.fieldCount table request timestamp host.world
    rw [answering] at answered
    cases answered
    exact spared

theorem noConfigFault_close (connection : Connection) (host : TableHost) :
    NoConfigFault (connection.close host).1 := by
  have closing (host : TableHost) : NoConfigFault (host.closeHeld connection.slot).1 := by
    unfold Host.closeHeld
    split
    · exact noConfigFault_ok ()
    · split
      · exact noConfigFault_ok ()
      · split
        · exact noConfigFault_ok ()
        · split
          · nofun
          · exact Table.noConfigFault_close _ host.world
  unfold close Host.release
  dsimp only
  split
  · nofun
  · split
    · exact noConfigFault_ok ()
    · exact closing _

end Connection

namespace CommandLine

/-- The field arguments of a command. -/
def Command.pairs : Command → List String
  | insert _ pairs | update _ pairs => pairs
  | read _ _ | scan _ _ _ | delete _ => []

/-- The first field argument that has no equals sign. -/
def Command.malformed? (command : Command) : Option String :=
  command.pairs.find? fun pair => '=' ∉ pair.toList

theorem fieldOf_cases (pair : String) :
    '=' ∈ pair.toList ∧ (∃ field, fieldOf pair = .ok field) ∨
      '=' ∉ pair.toList ∧ fieldOf pair = .error (.config (.notField pair)) := by
  unfold fieldOf
  cases split : Text.splitAtFirst? '=' pair.toList with
  | none => exact .inr ⟨Text.splitAtFirst?_eq_none_iff.mp split, rfl⟩
  | some sides =>
      refine .inl ⟨Classical.not_not.mp fun absent => ?_, _, rfl⟩
      cases split.symm.trans (Text.splitAtFirst?_eq_none_iff.mpr absent)

theorem mapM_fieldOf_cases (pairs : List String) :
    (pairs.find? (fun pair => '=' ∉ pair.toList) = none ∧
        ∃ fields, pairs.mapM fieldOf = .ok fields) ∨
      ∃ text, pairs.find? (fun pair => '=' ∉ pair.toList) = some text ∧
        pairs.mapM fieldOf = .error (.config (.notField text)) := by
  induction pairs with
  | nil => exact .inl ⟨rfl, [], rfl⟩
  | cons pair rest ih =>
      rw [List.mapM_cons]
      rcases fieldOf_cases pair with ⟨sign, field, formed⟩ | ⟨noSign, refused⟩
      · rw [List.find?_cons_of_neg (by simpa using sign), formed]
        rcases ih with ⟨none, fields, allFormed⟩ | ⟨text, found, refused⟩
        · exact .inl ⟨none, field :: fields, by rw [allFormed]; rfl⟩
        · exact .inr ⟨text, found, by rw [refused]; rfl⟩
      · rw [List.find?_cons_of_pos (by simpa using noSign), refused]
        exact .inr ⟨pair, rfl, rfl⟩

theorem Command.request_cases (command : Command) :
    (command.malformed? = none ∧ ∃ request, command.request = .ok request) ∨
      ∃ text, command.malformed? = some text ∧
        command.request = .error (.config (.notField text)) := by
  cases command with
  | insert key pairs | update key pairs =>
      rcases mapM_fieldOf_cases pairs with ⟨none, fields, formed⟩ | ⟨text, found, refused⟩
      · exact .inl ⟨none, _, by rw [request, formed]; rfl⟩
      · exact .inr ⟨text, found, by rw [request, refused]; rfl⟩
  | read | scan | delete => exact .inl ⟨rfl, _, rfl⟩

/-- All the properties are valid, and the store is opened with these options. -/
structure Invocation.Configures (invocation : Invocation) (files : FileSystem)
    (options : TableOptions) : Prop where
  valid : ∃ properties meter settings, propertiesOf invocation files = .ok properties ∧
    Meter.ofProperties properties = .ok meter ∧ Settings.ofProperties properties = .ok settings ∧
    settings.tableOptions = .ok options
  database : invocation.database = Registry.storeName

/-- The run opens the store and closes it again before it complains of a field argument. -/
structure Invocation.ComplainsLate (invocation : Invocation) (files : FileSystem) (text : String)
    (closed : FileSystem) : Prop where
  malformed : invocation.command.malformed? = some text
  passes : ∃ options table opened, invocation.Configures files options ∧
    (Table.openAt options).perform files = (.ok table, opened) ∧
    table.close.perform opened = (.ok (), closed)

variable {invocation : Invocation} {files closed : FileSystem} {options : TableOptions}
  {text : String}

/-- A command that is carried out over a connection ends without a fault of the configuration. -/
theorem execute_asked {command : Command} {request : Request}
    (asked : command.request = .ok request) (connection : Connection) (host : TableHost)
    (timestamp : UInt64) (cause : ConfigFault) :
    (execute connection host command timestamp).1.2 ≠ some (.config cause) := by
  unfold execute
  rw [asked]
  dsimp only
  split
  · nofun
  · rename_i response after answered
    exact Connection.noConfigFault_answer (congrArg Prod.fst answered) cause

section

variable {properties : Properties} {settings : Settings} {connection : Connection}
  {host : TableHost} {request : Request}

theorem runWith_asked
    (connected : Registry.create
      { constructors := Dictionary.empty.set Registry.storeName Clients.slot }
      (Clients.start files).host invocation.database properties = (.ok connection, host))
    (asked : invocation.command.request = .ok request) (timestamp : UInt64) (cause : ConfigFault) :
    (runWith properties invocation files timestamp).1.fault ≠ some (.config cause) := by
  have spared := execute_asked asked connection host timestamp
  intro same
  simp only [runWith, Registry.standard_eq, connected] at same
  cases executed : execute connection host invocation.command timestamp with
  | mk answered after =>
      have closeSpared := connection.noConfigFault_close after
      rw [executed] at same spared
      cases closing : connection.close after with
      | mk outcome last =>
          rw [closing] at closeSpared
          simp only [closing] at same
          cases outcome with
          | error fault =>
              cases same
              exact closeSpared cause rfl
          | ok =>
              cases reported : answered.2 with
              | none =>
                  rw [reported] at same
                  cases same
              | some fault =>
                  rw [reported] at same
                  exact spared cause (reported.trans same)

end

/-- What a run reports of a command that has failed: a failure to close the store comes first. -/
def reported (closing : Except Fault Unit) (fault : Fault) : Fault :=
  match closing with
  | .error failure => failure
  | .ok () => fault

/-- A field argument without an equals sign is reported once the store has been opened and closed,
unless closing it fails. -/
theorem run_malformed {table : Table} {opened : FileSystem} {outcome : Except Fault Unit}
    (configures : invocation.Configures files options)
    (malformed : invocation.command.malformed? = some text)
    (opening : (Table.openAt options).perform files = (.ok table, opened))
    (closing : table.close.perform opened = (outcome, closed)) (timestamp : UInt64) :
    run invocation files timestamp =
      (failed (reported outcome (.config (.notField text))) "", closed) := by
  obtain ⟨⟨properties, meter, settings, given, metered, set, valid⟩, database⟩ := configures
  obtain ⟨id, host, connected, world, serves⟩ :=
    Connection.establish_first (Registry.idle_start files) valid opening
  rw [← Registry.create_store database set] at connected
  obtain ⟨after, closes, left, idle⟩ : ∃ after,
      Connection.close ⟨id, Clients.slot, settings.fieldCount⟩ host = (outcome, after) ∧
        after.world = closed ∧ after.Idle Clients.slot 1 :=
    Connection.close_last Nat.one_pos serves (world.symm ▸ closing)
  have refused : invocation.command.request = .error (.config (.notField text)) := by
    rcases invocation.command.request_cases with ⟨none, _⟩ | ⟨other, found, refused⟩
    · cases none.symm.trans malformed
    · cases found.symm.trans malformed
      exact refused
  simp only [run, given, metered, runWith, Registry.standard_eq, connected, execute, refused,
    closes]
  rw [Registry.world_abandon idle, left]
  cases outcome <;> rfl

theorem Invocation.ComplainsLate.run_eq (late : invocation.ComplainsLate files text closed)
    (timestamp : UInt64) :
    run invocation files timestamp = (failed (.config (.notField text)) "", closed) := by
  obtain ⟨malformed, options, table, opened, configures, opening, closing⟩ := late
  exact run_malformed configures malformed opening closing timestamp

/-- A run whose properties are valid complains of nothing but a field argument, and of that only
after the store has been opened and closed. -/
theorem exists_complainsLate {timestamp : UInt64} {cause : ConfigFault}
    (configures : invocation.Configures files options)
    (complains : (run invocation files timestamp).1.fault = some (.config cause)) :
    ∃ text closed, invocation.ComplainsLate files text closed := by
  obtain ⟨⟨properties, meter, settings, given, metered, set, valid⟩, database⟩ := id configures
  cases opening : (Table.openAt options).perform files with
  | mk outcome opened =>
      cases outcome with
      | error fault =>
          have spared := Table.noConfigFault_openAt options files
          have unopened :=
            Connection.establish_unopened (Registry.idle_start files) valid opening
          rw [← Registry.create_store database set] at unopened
          simp only [run, given, metered, runWith, Registry.standard_eq, unopened, failed]
            at complains
          cases complains
          exact absurd (congrArg Prod.fst opening) (spared cause)
      | ok table =>
          rcases invocation.command.request_cases with ⟨_, request, asked⟩ | ⟨text, malformed, _⟩
          · obtain ⟨id, host, connected, _⟩ :=
              Connection.establish_first (Registry.idle_start files) valid opening
            rw [← Registry.create_store database set] at connected
            simp only [run, given, metered] at complains
            exact absurd complains (runWith_asked connected asked timestamp cause)
          · cases closing : table.close.perform opened with
            | mk outcome closed =>
                cases outcome with
                | error fault =>
                    rw [run_malformed configures malformed opening closing] at complains
                    cases complains
                    exact absurd (congrArg Prod.fst closing)
                      (table.noConfigFault_close opened cause)
                | ok =>
                    exact ⟨text, closed, malformed, options, table, opened, configures, opening,
                      closing⟩

/-- A run that ends with a fault of the configuration leaves the files as they were, but for one
case: it has opened the store and closed it again before it has looked at the field arguments, and
the store has not been left as it was found. -/
theorem configFault_touches_files_iff (invocation : Invocation) (files : FileSystem)
    (timestamp : UInt64) :
    ((∃ cause, (run invocation files timestamp).1.fault = some (.config cause)) ∧
        (run invocation files timestamp).2 ≠ files ↔
      ∃ text closed, invocation.ComplainsLate files text closed ∧ closed ≠ files) ∧
    ∀ text closed, invocation.ComplainsLate files text closed →
      run invocation files timestamp = (failed (.config (.notField text)) "", closed) := by
  refine ⟨⟨?_, ?_⟩, fun _ _ late => late.run_eq timestamp⟩
  · rintro ⟨⟨cause, complains⟩, touched⟩
    by_cases configured : ∃ options, invocation.Configures files options
    · obtain ⟨options, configures⟩ := configured
      obtain ⟨text, closed, late⟩ := exists_complainsLate configures complains
      rw [late.run_eq] at touched
      exact ⟨text, closed, late, touched⟩
    · refine absurd (run_unopened (fun path fieldCount opens => configured ?_) timestamp) touched
      obtain ⟨⟨properties, meter, settings, options, given, metered, set, valid, _⟩, database⟩ :=
        opens
      exact ⟨options, ⟨properties, meter, settings, given, metered, set, valid⟩, database⟩
  · rintro ⟨text, closed, late, touched⟩
    rw [late.run_eq]
    exact ⟨⟨_, rfl⟩, touched⟩

/-- The directory of the store has been made for a command that cannot be carried out. -/
theorem configFault_touches_files_insert :
    (run (onDb [] (.insert "k" ["v"])) empty 0).1.fault = some (.config (.notField "v")) ∧
    empty.node? ["db"] = none ∧
    ∃ text closed, (onDb [] (.insert "k" ["v"])).ComplainsLate empty text closed ∧
      closed.node? ["db"] = some .directory := by
  have complains : (run (onDb [] (.insert "k" ["v"])) empty 0).1.fault =
      some (.config (.notField "v")) := by decide +kernel
  have made : (run (onDb [] (.insert "k" ["v"])) empty 0).2.node? ["db"] = some .directory := by
    decide +kernel
  have absent : empty.node? ["db"] = none := by decide
  obtain ⟨touches, leaves⟩ := configFault_touches_files_iff (onDb [] (.insert "k" ["v"])) empty 0
  obtain ⟨text, closed, late, _⟩ := touches.mp ⟨⟨_, complains⟩, fun same => by
    rw [same, absent] at made
    cases made⟩
  rw [leaves text closed late] at made
  exact ⟨complains, absent, text, closed, late, made⟩

end CommandLine

end RowStore
