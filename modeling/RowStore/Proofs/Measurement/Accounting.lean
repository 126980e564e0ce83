import RowStore.Proofs.Dictionary
import RowStore.Session

namespace RowStore

/-- Whether an answer is what was asked for. A missing record is not. -/
def Response.isSuccess : Response → Bool
  | record (.ok found) => found.isSome
  | records (.ok _) | done (.ok _) => true
  | record (.error _) | records (.error _) | done (.error _) => false

/-- The calls that an activity stands for. No single call is a read-modify-write. -/
def Activity.standsFor : Activity → Request → Bool
  | .read, .read .. => true
  | .scan, .scan .. => true
  | .update, .update .. => true
  | .insert, .insert .. => true
  | .delete, .delete .. => true
  | _, _ => false

theorem Activity.standsFor_eq (activity : Activity) (request : Request) :
    activity.standsFor request = decide (request.activity = activity) := by
  cases activity <;> cases request <;> rfl

theorem Operation.withStatus_status (activity : Activity) (response : Response) :
    withStatus ⟨activity, false⟩ response.status = ⟨activity, !response.isSuccess⟩ := by
  cases response with
  | record result => obtain _ | _ | _ := result <;> rfl
  | records result => cases result <;> rfl
  | done result => cases result <;> rfl

theorem LatencyCounters.count_report (counters : LatencyCounters) (operation other : Operation)
    (latency : UInt64) :
    ((counters.report operation latency).count other).toNat =
      ((counters.count other).toNat + if operation = other then 1 else 0) % wordLimit := by
  by_cases same : other = operation
  · subst same
    simp only [count, report, PerOperation.get_modify, if_pos, LatencyCounter.record,
      UInt64.toNat_add]
    rfl
  · simp only [count, report, PerOperation.get_modify, if_neg same, if_neg (Ne.symm same),
      Nat.add_zero]
    exact (Nat.mod_eq_of_lt (UInt64.toNat_lt _)).symm

/-- Slots stop when they are full, and so does their sum. -/
theorem Histogram.saturated_total_addTo (slot : Nat) (counts : List (Nat × Nat)) :
    saturated (RowStore.total Prod.snd (addTo slot counts)) =
      saturated (RowStore.total Prod.snd counts + 1) := by
  induction counts with
  | nil => rfl
  | cons entry rest ih =>
      obtain ⟨other, count⟩ := entry
      unfold addTo
      split
      · simp only [total_cons, increment, saturated]
        omega
      · split
        · simp only [total_cons, Nat.add_comm 1]
        · simp only [total_cons, saturated] at ih ⊢
          omega

theorem LatencyHistograms.count_report (histograms : LatencyHistograms)
    (operation other : Operation) (latency : UInt64) :
    (histograms.report operation latency).count other =
      saturated (histograms.count other + if operation = other then 1 else 0) := by
  by_cases same : other = operation
  · subst same
    simp only [count, report, PerOperation.get_modify, if_pos, Histogram.total, Histogram.record,
      Histogram.saturated_total_addTo, saturated_saturated_add]
  · simp only [count, report, PerOperation.get_modify, if_neg same, if_neg (Ne.symm same)]
    exact (saturated_saturated_add _ 0).symm

namespace Meter

/-- What a meter shows after a number of reports: counters start over when a word is full, and
histograms stop. -/
def shown (meter : Meter) (reports : Nat) : Nat :=
  match meter with
  | counters _ => reports % wordLimit
  | histograms _ => saturated reports

theorem shown_of_lt {meter : Meter} {reports : Nat} (bound : reports < wordLimit) :
    meter.shown reports = reports := by
  cases meter with
  | counters state => exact Nat.mod_eq_of_lt bound
  | histograms state => exact saturated_of_lt bound

theorem shown_shown_add (meter : Meter) (first second : Nat) :
    meter.shown (meter.shown first + second) = meter.shown (first + second) := by
  cases meter with
  | counters state => exact Nat.mod_add_mod first wordLimit second
  | histograms state => exact saturated_saturated_add first second

@[simp] theorem shown_report (meter : Meter) (operation : Operation) (latency : UInt64) :
    (meter.report operation latency).shown = meter.shown := by
  cases meter <;> rfl

theorem shown_count (meter : Meter) (operation : Operation) :
    meter.shown (meter.count operation) = meter.count operation := by
  cases meter with
  | counters state => exact Nat.mod_eq_of_lt (state.count operation).toNat_lt
  | histograms state => exact saturated_saturated_add _ 0

theorem count_report (meter : Meter) (operation other : Operation) (latency : UInt64) :
    (meter.report operation latency).count other =
      meter.shown (meter.count other + if operation = other then 1 else 0) := by
  cases meter with
  | counters state => exact state.count_report operation other latency
  | histograms state => exact state.count_report operation other latency

/-- A meter after reports of operations and the times they took. -/
def reportAll (meter : Meter) (reports : List (Operation × UInt64)) : Meter :=
  reports.foldl (fun meter report => meter.report report.1 report.2) meter

theorem count_reportAll (meter : Meter) (reports : List (Operation × UInt64))
    (operation : Operation) :
    (meter.reportAll reports).count operation =
      meter.shown (meter.count operation + reports.countP (·.1 = operation)) := by
  induction reports generalizing meter with
  | nil => exact (meter.shown_count operation).symm
  | cons report rest ih =>
      change ((meter.report report.1 report.2).reportAll rest).count operation = _
      rw [ih, shown_report, count_report, shown_shown_add, List.countP_cons]
      simp only [decide_eq_true_eq]
      congr 1
      omega

end Meter

/-- A call on a named table, with the time that it takes. -/
structure Call where
  table : String
  request : Request
  latency : UInt64

/-- Calls made one after another, each with its answer, and the state they end in. -/
def answerAll {State : Type} (database : Call → Caller State) (state : State) :
    List Call → List (Call × Response) × State
  | [] => ([], state)
  | call :: rest =>
    let (response, after) := database call state call.request
    let (outcomes, last) := answerAll database after rest
    ((call, response) :: outcomes, last)

/-- What an answered call is reported as. -/
def reportOf (outcome : Call × Response) : Operation × UInt64 :=
  (⟨outcome.1.request.activity, !outcome.2.isSuccess⟩, outcome.1.latency)

theorem countP_map_reportOf (outcomes : List (Call × Response)) (activity : Activity)
    (hasFailed : Bool) :
    (outcomes.map reportOf).countP (·.1 = ⟨activity, hasFailed⟩) =
      outcomes.countP fun (call, response) =>
        activity.standsFor call.request && response.isSuccess != hasFailed := by
  rw [List.countP_map]
  apply List.countP_congr
  rintro ⟨call, response⟩ -
  simp [reportOf, Activity.standsFor_eq, Bool.eq_not]

/-- Reports of answered calls count each call once: under its activity if it was answered with what
was asked for, and under the failures of its activity otherwise. -/
theorem Meter.count_reportAll_reportOf (meter : Meter) (outcomes : List (Call × Response))
    (activity : Activity) (hasFailed : Bool) :
    (meter.reportAll (outcomes.map reportOf)).count ⟨activity, hasFailed⟩ =
      meter.shown (meter.count ⟨activity, hasFailed⟩ +
        outcomes.countP fun (call, response) =>
          activity.standsFor call.request && response.isSuccess != hasFailed) := by
  rw [count_reportAll, countP_map_reportOf]

section

variable {State : Type} (database : String → Caller State) (state : State) (meter : Meter)

theorem answerAll_measured (calls : List Call) :
    answerAll (fun call => measured (database call.table) call.latency) (state, meter) calls =
      ((answerAll (fun call => database call.table) state calls).1,
        (answerAll (fun call => database call.table) state calls).2,
        meter.reportAll
          ((answerAll (fun call => database call.table) state calls).1.map reportOf)) := by
  induction calls generalizing state meter with
  | nil => rfl
  | cons call rest ih =>
      simp only [answerAll, measured, Meter.observe, Operation.withStatus_status, ih]
      rfl

/-- A measured database, over either kind of meter, gives the answers and comes into the states of
the database itself. Its meter has one report for each call, with the time of the call. So the
count of each activity grows by its calls that were answered with what was asked for, that of its
failures by all its other calls, and those of read-modify-writes stay. -/
theorem measured_accounts (calls : List Call) :
    let plain := answerAll (fun call => database call.table) state calls
    let metered := answerAll (fun call => measured (database call.table) call.latency)
      (state, meter) calls
    metered.1 = plain.1 ∧ metered.2.1 = plain.2 ∧
      metered.2.2 = meter.reportAll (plain.1.map reportOf) ∧
      (∀ activity hasFailed,
        metered.2.2.count ⟨activity, hasFailed⟩ =
          meter.shown (meter.count ⟨activity, hasFailed⟩ +
            plain.1.countP fun (call, response) =>
              activity.standsFor call.request && response.isSuccess != hasFailed)) ∧
      ∀ hasFailed,
        metered.2.2.count ⟨.readModifyWrite, hasFailed⟩ =
          meter.count ⟨.readModifyWrite, hasFailed⟩ := by
  intro plain metered
  have same : metered = (plain.1, plain.2, meter.reportAll (plain.1.map reportOf)) :=
    answerAll_measured database state meter calls
  have counted (activity : Activity) (hasFailed : Bool) :
      metered.2.2.count ⟨activity, hasFailed⟩ =
        meter.shown (meter.count ⟨activity, hasFailed⟩ +
          plain.1.countP fun (call, response) =>
            activity.standsFor call.request && response.isSuccess != hasFailed) := by
    rw [same, Meter.count_reportAll_reportOf]
  refine ⟨by rw [same], by rw [same], by rw [same], counted, ?_⟩
  intro hasFailed
  have never : (plain.1.countP fun (call, response) =>
      Activity.readModifyWrite.standsFor call.request && response.isSuccess != hasFailed) = 0 := by
    simp [Activity.standsFor]
  rw [counted, never, Nat.add_zero, Meter.shown_count]

end

/-- A call that finds its engine is answered, and leaves all engines there are. -/
theorem Connection.answer_present {connection : Connection} {host : TableHost}
    (present : (host.engine? connection.engine).isSome = true) (request : Request)
    (timestamp : UInt64) :
    ∃ response after, connection.answer host request timestamp = (some response, after) ∧
      ∀ id, (host.engine? id).isSome = true → (after.engine? id).isSome = true := by
  obtain ⟨table, found⟩ := Option.isSome_iff_exists.mp present
  rcases answering : (Records.answer connection.fieldCount table request timestamp).perform
    host.world with ⟨outcome, files⟩
  cases outcome with
  | error fault =>
      refine ⟨.done (.error fault), { host with world := files }, ?_, fun _ there => there⟩
      simp only [answer, found, answering]
  | ok answered =>
      refine ⟨answered.1, { host with world := files }.replaceEngine connection.engine answered.2,
        by simp only [answer, found, answering], fun id there => ?_⟩
      simp only [Host.engine?, Host.replaceEngine, Dictionary.find?_update,
        Option.isSome_map] at there ⊢
      split <;> simpa using there

namespace Session

/-- A session that is another one with a meter of its own besides. -/
structure Adds (metered plain : Session) (id : MeterId) (meter : Meter) : Prop where
  host : metered.host = plain.host
  objects : metered.objects = plain.objects
  own : metered.meters.find? id = some meter
  others : ∀ other, other ≠ id → metered.meters.find? other = plain.meters.find? other

variable {metered plain : Session} {id : MeterId} {meter : Meter} {request : Request}
  {response : Response} {timestamp latency : UInt64}

theorem Adds.observe (adds : Adds metered plain id meter) {meters : List MeterId}
    (outside : id ∉ meters) :
    Adds (metered.observe meters request response latency)
      (plain.observe meters request response latency) id meter := by
  induction meters generalizing metered plain with
  | nil => exact adds
  | cons first rest ih =>
      obtain ⟨apart, later⟩ : id ≠ first ∧ id ∉ rest := by
        simpa only [List.mem_cons, not_or] using outside
      have observed : Adds (metered.observe [first] request response latency)
          (plain.observe [first] request response latency) id meter := by
        refine ⟨adds.host, adds.objects, ?_, ?_⟩
        · change (metered.meters.update first _).find? id = _
          rw [Dictionary.find?_update, if_neg apart, adds.own]
        · intro other different
          change (metered.meters.update first _).find? other =
            (plain.meters.update first _).find? other
          rw [Dictionary.find?_update, Dictionary.find?_update, adds.others other different]
      exact ih observed later

theorem Adds.observe_own (adds : Adds metered plain id meter) :
    Adds (metered.observe [id] request response latency) plain id
      (meter.observe request response latency) := by
  refine ⟨adds.host, adds.objects, ?_, ?_⟩
  · change (metered.meters.update id _).find? id = _
    rw [Dictionary.find?_update, if_pos rfl, adds.own]
    rfl
  · intro other different
    change (metered.meters.update id _).find? other = _
    rw [Dictionary.find?_update, if_neg different, adds.others other different]

/-- A database of a session with one more meter is the measured one of the database without it,
whichever way that one answers. -/
theorem Adds.answer {database : MeteredDatabase} {call : Caller Session}
    (adds : Adds metered plain id meter) (outside : id ∉ database.meters)
    (answered : plain.answer database request timestamp latency =
      (some (call plain request).1, (call plain request).2)) :
    ∃ after, metered.answer { database with meters := id :: database.meters } request timestamp
        latency = (some (measured call latency (plain, meter) request).1, after) ∧
      Adds after (measured call latency (plain, meter) request).2.1 id
        (measured call latency (plain, meter) request).2.2 := by
  rcases called : call plain request with ⟨response, state⟩
  rcases given : database.connection.answer plain.host request timestamp with ⟨answer, host⟩
  rw [called] at answered
  simp only [Session.answer, given, adds.host, measured, called] at answered ⊢
  cases answer with
  | none => cases answered
  | some answer =>
      obtain ⟨rfl, rfl⟩ := answered
      have resumed : Adds { metered with host } { plain with host } id meter :=
        ⟨rfl, adds.objects, adds.own, adds.others⟩
      exact ⟨_, rfl, resumed.observe_own.observe outside⟩

/-- Calls on the databases of a session, each at its moment, with their answers and the session they
end in. There is no such session if a call finds no engine. -/
def answerAll? (databases : String → MeteredDatabase) (session : Session) :
    List (UInt64 × Call) → Option (List (Call × Response) × Session)
  | [] => some ([], session)
  | (moment, call) :: rest =>
    match session.answer (databases call.table) call.request moment call.latency with
    | (none, _) => none
    | (some response, after) =>
      (after.answerAll? databases rest).map fun (outcomes, last) =>
        ((call, response) :: outcomes, last)

/-- There are the engines that all the connections have their handles on. -/
def Serves (session : Session) (databases : String → MeteredDatabase) : Prop :=
  ∀ table, (session.host.engine? (databases table).connection.engine).isSome = true

variable {databases : String → MeteredDatabase}

theorem Serves.answer (serves : plain.Serves databases) (table : String) (request : Request)
    (timestamp latency : UInt64) :
    ∃ response after,
      plain.answer (databases table) request timestamp latency = (some response, after) ∧
        after.Serves databases := by
  obtain ⟨response, host, given, kept⟩ :=
    Connection.answer_present (serves table) request timestamp
  refine ⟨response,
    ({ plain with host } : Session).observe (databases table).meters request response latency,
    ?_, fun other => kept _ (serves other)⟩
  simp only [Session.answer, given]

theorem Adds.answerAll (adds : Adds metered plain id meter) (serves : plain.Serves databases)
    (outside : ∀ table, id ∉ (databases table).meters) (calls : List (UInt64 × Call)) :
    ∃ outcomes after meteredAfter,
      plain.answerAll? databases calls = some (outcomes, after) ∧
      metered.answerAll? (fun table =>
        { databases table with meters := id :: (databases table).meters }) calls =
          some (outcomes, meteredAfter) ∧
      Adds meteredAfter after id (meter.reportAll (outcomes.map reportOf)) := by
  induction calls generalizing metered plain meter with
  | nil => exact ⟨[], plain, metered, rfl, rfl, adds⟩
  | cons timed rest ih =>
      obtain ⟨moment, call⟩ := timed
      obtain ⟨response, middle, answered, stillServes⟩ :=
        serves.answer call.table call.request moment call.latency
      obtain ⟨caller, called⟩ : ∃ caller : Caller Session,
          caller plain call.request = (response, middle) := ⟨fun _ _ => (response, middle), rfl⟩
      have answeredSo : plain.answer (databases call.table) call.request moment call.latency =
          (some (caller plain call.request).1, (caller plain call.request).2) := by
        rw [called, answered]
      obtain ⟨meteredMiddle, meteredAnswered, middleAdds⟩ :=
        adds.answer (outside call.table) answeredSo
      simp only [measured, called] at meteredAnswered middleAdds
      obtain ⟨outcomes, after, meteredAfter, run, meteredRun, stillAdds⟩ :=
        ih middleAdds stillServes
      refine ⟨(call, response) :: outcomes, after, meteredAfter, ?_, ?_, ?_⟩
      · simp only [answerAll?, answered, run, Option.map_some]
      · simp only [answerAll?, meteredAnswered, meteredRun, Option.map_some]
      · rw [List.map_cons, reportOf, ← Operation.withStatus_status]
        exact stillAdds

/-- Calls on the databases of a session are answered alike if they are also counted by one more
meter, and leave the session alike but for it. In that meter each call counts once. -/
theorem answerAll_accounts (plain : Session) (meter : Meter) (serves : plain.Serves databases)
    (outside : ∀ table, id ∉ (databases table).meters) (calls : List (UInt64 × Call)) :
    ∃ outcomes after meteredAfter last,
      plain.answerAll? databases calls = some (outcomes, after) ∧
      ({ plain with meters := plain.meters.set id meter } : Session).answerAll? (fun table =>
        { databases table with meters := id :: (databases table).meters }) calls =
          some (outcomes, meteredAfter) ∧
      Adds meteredAfter after id last ∧
      ∀ activity hasFailed, last.count ⟨activity, hasFailed⟩ =
        meter.shown (meter.count ⟨activity, hasFailed⟩ +
          outcomes.countP fun (call, response) =>
            activity.standsFor call.request && response.isSuccess != hasFailed) := by
  have adds : Adds { plain with meters := plain.meters.set id meter } plain id meter := by
    refine ⟨rfl, rfl, Dictionary.find?_set_self _ _ _, fun other different => ?_⟩
    rw [Dictionary.find?_set, if_neg different]
  obtain ⟨outcomes, after, meteredAfter, run, meteredRun, afterAdds⟩ :=
    adds.answerAll serves outside calls
  exact ⟨outcomes, after, meteredAfter, _, run, meteredRun, afterAdds,
    meter.count_reportAll_reportOf outcomes⟩

end Session

end RowStore
