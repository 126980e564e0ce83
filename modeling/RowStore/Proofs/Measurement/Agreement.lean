import Mathlib.Data.List.Forall2
import RowStore.Proofs.Measurement.Accounting

namespace RowStore

variable {reports others : List (Operation × UInt64)}

namespace PerOperation

variable {Value : Type}

/-- Changes of two values commute, those of one value as far as they do so themselves. -/
theorem modify_comm (table : PerOperation Value) {first second : Operation}
    {change other : Value → Value}
    (commute : first = second → ∀ value, other (change value) = change (other value)) :
    (table.modify first change).modify second other =
      (table.modify second other).modify first change := by
  by_cases same : first = second
  · subst same
    simp only [modify, get, Vector.set_set]
    simp [commute rfl]
  · have apart : first.index.val ≠ second.index.val := fun equal =>
      same (Operation.index_injective (Fin.ext equal))
    have kept := table.get_modify first second change
    have otherKept := table.get_modify second first other
    rw [if_neg (Ne.symm same)] at kept
    rw [if_neg same] at otherKept
    rw [modify, kept, modify, modify, otherKept]
    simp only [modify, Vector.set_comm _ _ apart]

end PerOperation

theorem LatencyCounter.record_comm (counter : LatencyCounter) (first second : UInt64) :
    (counter.record first).record second = (counter.record second).record first := by
  have sum : counter.sum + first + second = counter.sum + second + first := by ac_rfl
  have least : min (min counter.least first) second = min (min counter.least second) first := by
    ac_rfl
  have greatest :
      max (max counter.greatest first) second = max (max counter.greatest second) first := by
    simp only [max]
    grind
  simp only [record, sum, least, greatest]

theorem LatencyCounters.report_comm (counters : LatencyCounters)
    (first second : Operation × UInt64) :
    (counters.report first.1 first.2).report second.1 second.2 =
      (counters.report second.1 second.2).report first.1 first.2 := by
  apply PerOperation.modify_comm
  intro _ counter
  exact counter.record_comm first.2 second.2

theorem Histogram.addTo_comm (first second : Nat) (counts : List (Nat × Nat)) :
    addTo first (addTo second counts) = addTo second (addTo first counts) := by
  induction counts with
  | nil =>
      simp only [addTo]
      grind
  | cons entry rest ih =>
      obtain ⟨slot, count⟩ := entry
      grind [addTo]

theorem LatencyHistograms.report_comm (histograms : LatencyHistograms)
    (first second : Operation × UInt64) :
    (histograms.report first.1 first.2).report second.1 second.2 =
      (histograms.report second.1 second.2).report first.1 first.2 := by
  apply PerOperation.modify_comm
  intro _ histogram
  simp only [Histogram.record, Histogram.addTo_comm]

namespace Meter

theorem report_comm (meter : Meter) (first second : Operation × UInt64) :
    (meter.report first.1 first.2).report second.1 second.2 =
      (meter.report second.1 second.2).report first.1 first.2 := by
  cases meter with
  | counters state => exact congrArg Meter.counters (state.report_comm first second)
  | histograms state => exact congrArg Meter.histograms (state.report_comm first second)

theorem reportAll_perm (meter : Meter) (reordered : reports.Perm others) :
    meter.reportAll reports = meter.reportAll others :=
  reordered.foldl_eq' (fun first _ second _ meter => meter.report_comm first second) meter

end Meter

inductive MeterCall
  | report (operation : Operation) (latency : UInt64)
  | reset
  deriving DecidableEq

namespace Meter

def take (meter : Meter) : MeterCall → Meter
  | .report operation latency => meter.report operation latency
  | .reset => meter.reset

/-- A meter after calls made one after another. -/
def takeAll (meter : Meter) (calls : List MeterCall) : Meter :=
  calls.foldl take meter

end Meter

namespace MeterCall

/-- What is reported between each reset and the next, the first time behind what is in `earlier`. -/
def stretchesAfter (earlier : List (Operation × UInt64)) :
    List MeterCall → List (List (Operation × UInt64))
  | [] => [earlier]
  | report operation latency :: later => stretchesAfter (earlier ++ [(operation, latency)]) later
  | reset :: later => earlier :: stretchesAfter [] later

/-- The reports up to the first reset, those up to the next, and so on up to the end. -/
def stretches (calls : List MeterCall) : List (List (Operation × UInt64)) :=
  stretchesAfter [] calls

def sinceReset (calls : List MeterCall) : List (Operation × UInt64) :=
  (stretches calls).getLastD []

/-- The same calls but for the order of the reports between two resets. -/
def Reordered (calls others : List MeterCall) : Prop :=
  List.Forall₂ List.Perm (stretches calls) (stretches others)

variable {calls others : List MeterCall}

/-- There is always a last stretch, so that it does not matter what would stand for it. -/
theorem getLastD_stretchesAfter (earlier fallback : List (Operation × UInt64)) :
    (stretchesAfter earlier calls).getLastD fallback =
      (stretchesAfter earlier calls).getLastD [] := by
  induction calls generalizing earlier with
  | nil => rfl
  | cons call later ih =>
      cases call with
      | report operation latency => exact ih _
      | reset => simp only [stretchesAfter, List.getLastD_cons]

theorem Reordered.sinceReset (reordered : Reordered calls others) :
    (MeterCall.sinceReset calls).Perm (MeterCall.sinceReset others) := by
  suffices last : ∀ {stretches others : List (List (Operation × UInt64))}
      {stretch other : List (Operation × UInt64)}, stretch.Perm other →
      List.Forall₂ List.Perm stretches others →
        (stretches.getLastD stretch).Perm (others.getLastD other) by
    exact last (List.Perm.refl []) reordered
  intro stretches others stretch other same paired
  induction paired generalizing stretch other with
  | nil => exact same
  | cons first _ ih =>
      rw [List.getLastD_cons, List.getLastD_cons]
      exact ih first

end MeterCall

namespace Meter

theorem reset_reportAll (meter : Meter) (reports : List (Operation × UInt64)) :
    (meter.reportAll reports).reset = meter.reset := by
  induction reports generalizing meter with
  | nil => rfl
  | cons report later ih =>
      change ((meter.report report.1 report.2).reportAll later).reset = meter.reset
      rw [ih]
      cases meter <;> rfl

theorem takeAll_stretchesAfter (meter : Meter) (calls : List MeterCall)
    (earlier : List (Operation × UInt64)) :
    (meter.reset.reportAll earlier).takeAll calls =
      meter.reset.reportAll ((MeterCall.stretchesAfter earlier calls).getLastD []) := by
  induction calls generalizing earlier with
  | nil => rfl
  | cons call later ih =>
      cases call with
      | report operation latency =>
          have reported : (meter.reset.reportAll earlier).report operation latency =
              meter.reset.reportAll (earlier ++ [(operation, latency)]) := by
            simp only [reportAll, List.foldl_append, List.foldl_cons, List.foldl_nil]
          change ((meter.reset.reportAll earlier).report operation latency).takeAll later = _
          rw [reported, ih]
          rfl
      | reset =>
          have emptied : (meter.reset.reportAll earlier).reset = meter.reset.reportAll [] := by
            rw [reset_reportAll]
            cases meter <;> rfl
          change ((meter.reset.reportAll earlier).reset).takeAll later = _
          rw [emptied, ih, MeterCall.stretchesAfter, List.getLastD_cons,
            MeterCall.getLastD_stretchesAfter [] earlier]

/-- From the start, only the reports since the last reset make a difference. -/
theorem takeAll_reset (meter : Meter) (calls : List MeterCall) :
    meter.reset.takeAll calls = meter.reset.reportAll (MeterCall.sinceReset calls) :=
  meter.takeAll_stretchesAfter calls []

theorem takeAll_reordered (meter : Meter) {calls others : List MeterCall}
    (reordered : MeterCall.Reordered calls others) :
    meter.reset.takeAll calls = meter.reset.takeAll others := by
  rw [takeAll_reset, takeAll_reset]
  exact meter.reset.reportAll_perm reordered.sinceReset

end Meter

/-- The latencies that reports have under an operation, in turn. -/
def latenciesOf (operation : Operation) (reports : List (Operation × UInt64)) : List UInt64 :=
  (reports.filter (·.1 = operation)).map Prod.snd

theorem latenciesOf_cons (operation : Operation) (report : Operation × UInt64)
    (reports : List (Operation × UInt64)) :
    latenciesOf operation (report :: reports) =
      if report.1 = operation then report.2 :: latenciesOf operation reports
      else latenciesOf operation reports := by
  simp only [latenciesOf, List.filter_cons, decide_eq_true_eq]
  split <;> rfl

/-- Each value has seen the latencies of its operation. -/
theorem PerOperation.get_foldl_modify {Value : Type} (table : PerOperation Value)
    (change : Value → UInt64 → Value) (reports : List (Operation × UInt64))
    (operation : Operation) :
    (reports.foldl (fun table report => table.modify report.1 (change · report.2)) table).get
        operation =
      (latenciesOf operation reports).foldl change (table.get operation) := by
  induction reports generalizing table with
  | nil => rfl
  | cons report later ih =>
      rw [List.foldl_cons, ih, get_modify, latenciesOf_cons]
      by_cases same : operation = report.1
      · rw [if_pos same, if_pos same.symm, List.foldl_cons, same]
      · rw [if_neg same, if_neg (Ne.symm same)]

theorem length_latenciesOf (operation : Operation) (reports : List (Operation × UInt64)) :
    (latenciesOf operation reports).length = reports.countP (·.1 = operation) := by
  rw [latenciesOf, List.length_map, List.countP_eq_length_filter]

theorem Operation.total_listed (operation : Operation) :
    total (fun other => if operation = other then 1 else 0) all = 1 := by
  obtain ⟨activity, hasFailed⟩ := operation
  cases activity <;> cases hasFailed <;> decide

/-- Each report counts under one operation. -/
theorem total_length_latenciesOf (reports : List (Operation × UInt64)) :
    total (fun operation => (latenciesOf operation reports).length) Operation.all =
      reports.length := by
  simp only [length_latenciesOf]
  induction reports with
  | nil => rfl
  | cons report later ih =>
      simp only [List.countP_cons, decide_eq_true_eq, total_add, ih, Operation.total_listed,
        List.length_cons]

namespace Meter

theorem count_reset_reportAll (meter : Meter) (operation : Operation)
    (few : reports.length < wordLimit) :
    (meter.reset.reportAll reports).count operation = (latenciesOf operation reports).length := by
  have zero : meter.reset.count operation = 0 := by
    cases meter with
    | counters state => simp [reset, count, LatencyCounters.count, LatencyCounters.empty]
    | histograms state =>
        simp [reset, count, LatencyHistograms.count, LatencyHistograms.empty, Histogram.total,
          saturated]
  have bound : (latenciesOf operation reports).length < wordLimit := by
    rw [length_latenciesOf]
    exact Nat.lt_of_le_of_lt List.countP_le_length few
  rw [count_reportAll, zero, Nat.zero_add, ← length_latenciesOf, shown_of_lt bound]

end Meter

theorem LatencyCounters.toNat_total (counters : LatencyCounters) :
    counters.total.toNat =
      RowStore.total (fun operation => (counters.count operation).toNat) Operation.all %
        wordLimit := by
  suffices summed : ∀ (operations : List Operation) (start : UInt64),
      (operations.foldl (fun sum operation => sum + counters.count operation) start).toNat =
        (start.toNat + RowStore.total (fun operation => (counters.count operation).toNat)
          operations) % wordLimit by
    rw [total, summed, UInt64.toNat_zero, Nat.zero_add]
  intro operations
  induction operations with
  | nil =>
      intro start
      exact (Nat.mod_eq_of_lt start.toNat_lt).symm
  | cons operation others ih =>
      intro start
      rw [List.foldl_cons, ih, UInt64.toNat_add, total_cons, ← Nat.add_assoc]
      exact Nat.mod_add_mod _ wordLimit _

/-- The status message begins with the number of all that is counted. -/
theorem Meter.statusMessage_begins (meter : Meter)
    (few : total meter.count Operation.all < wordLimit) :
    ∃ parts : String,
      meter.statusMessage = s!"{total meter.count Operation.all} operations;{parts}" := by
  cases meter with
  | counters state =>
      have sum : state.total.toNat = total (Meter.counters state).count Operation.all := by
        rw [state.toNat_total]
        exact Nat.mod_eq_of_lt few
      exact ⟨String.join (Operation.all.map state.statusPart), by
        rw [← sum]
        rfl⟩
  | histograms state => exact ⟨String.join (Operation.all.map state.statusPart), rfl⟩

instance lawfulOrderLeftLeaningMaxWord : Std.LawfulOrderLeftLeaningMax UInt64 where
  max_eq_left first second ordered := by
    simp only [max]
    grind
  max_eq_right first second above := by
    simp only [max]
    grind

section

variable {latencies : List UInt64}

/-- The greatest word there is gives way to any latency, and so does the least. -/
theorem min?_eq_foldl (nonempty : latencies ≠ []) :
    latencies.min? = some (latencies.foldl min 0xFFFFFFFFFFFFFFFF) := by
  obtain ⟨first, rest, rfl⟩ := List.exists_cons_of_ne_nil nonempty
  have start : min 0xFFFFFFFFFFFFFFFF first = first := by
    rw [Std.min_eq_if]
    grind
  rw [List.min?_cons', List.foldl_cons, start]

theorem max?_eq_foldl (nonempty : latencies ≠ []) :
    latencies.max? = some (latencies.foldl max 0) := by
  obtain ⟨first, rest, rfl⟩ := List.exists_cons_of_ne_nil nonempty
  have start : max 0 first = first := by
    rw [Std.max_eq_if]
    grind
  rw [List.max?_cons', List.foldl_cons, start]

end

namespace LatencyCounter

/-- The counter of some latencies. -/
def ofLatencies (latencies : List UInt64) : LatencyCounter :=
  latencies.foldl record {}

theorem foldl_record (latencies : List UInt64) (counter : LatencyCounter) :
    latencies.foldl record counter = {
      count := counter.count + UInt64.ofNat latencies.length
      sum := counter.sum + UInt64.ofNat (total UInt64.toNat latencies)
      least := latencies.foldl min counter.least
      greatest := latencies.foldl max counter.greatest } := by
  induction latencies generalizing counter with
  | nil => simp
  | cons latency rest ih =>
      rw [List.foldl_cons, ih]
      simp [record, UInt64.ofNat_add, UInt64.add_assoc, UInt64.add_comm 1]

theorem ofLatencies_eq (latencies : List UInt64) :
    ofLatencies latencies = {
      count := UInt64.ofNat latencies.length
      sum := UInt64.ofNat (total UInt64.toNat latencies)
      least := latencies.foldl min 0xFFFFFFFFFFFFFFFF
      greatest := latencies.foldl max 0 } := by
  rw [ofLatencies, foldl_record, UInt64.zero_add, UInt64.zero_add]

end LatencyCounter

/-- A summary that is true of some latencies. -/
structure LatencySummary.IsOf (summary : LatencySummary) (latencies : List UInt64) : Prop where
  count : summary.count.toNat = latencies.length
  least : summary.least ∈ latencies ∧ ∀ latency ∈ latencies, summary.least ≤ latency
  greatest : summary.greatest ∈ latencies ∧ ∀ latency ∈ latencies, latency ≤ summary.greatest
  /-- The average is that of the sum as a word holds it. -/
  average : ∃ sum : UInt64, sum.toNat = total UInt64.toNat latencies % wordLimit ∧
    summary.average = sum.toFloat / summary.count.toFloat

theorem LatencyCounter.summary?_ofLatencies {latencies : List UInt64}
    (few : latencies.length < wordLimit) :
    ((ofLatencies latencies).summary? = none ↔ latencies = []) ∧
      ∀ summary, (ofLatencies latencies).summary? = some summary → summary.IsOf latencies := by
  have counted : (UInt64.ofNat latencies.length).toNat = latencies.length :=
    UInt64.toNat_ofNat_of_lt' few
  have zero : UInt64.ofNat latencies.length = 0 ↔ latencies = [] := by
    rw [← UInt64.toNat_inj, counted]
    exact List.length_eq_zero_iff
  rw [ofLatencies_eq, summary?]
  by_cases empty : latencies = []
  · simp [empty]
  · simp only [zero, empty, if_false, reduceCtorEq, true_and, Option.some.injEq]
    rintro summary rfl
    exact {
      count := counted
      least := List.min?_eq_some_iff.mp (min?_eq_foldl empty)
      greatest := List.max?_eq_some_iff.mp (max?_eq_foldl empty)
      average := ⟨_, UInt64.toNat_ofNat', rfl⟩ }

namespace Meter

/-- What a meter shows of some reports: how many there are of each operation, and in front of its
status message, how many there are of all. -/
structure Shows (meter : Meter) (reports : List (Operation × UInt64)) : Prop where
  count : ∀ operation, meter.count operation = (latenciesOf operation reports).length
  statusMessage : ∃ parts : String,
    meter.statusMessage = s!"{total meter.count Operation.all} operations;{parts}"

theorem shows_reset_reportAll (meter : Meter) (few : reports.length < wordLimit) :
    (meter.reset.reportAll reports).Shows reports := by
  have counted := fun operation => meter.count_reset_reportAll operation few
  refine ⟨counted, statusMessage_begins _ ?_⟩
  rwa [funext counted, total_length_latenciesOf]

theorem counters_reportAll (counters : LatencyCounters) (reports : List (Operation × UInt64)) :
    (Meter.counters counters).reportAll reports =
      .counters (reports.foldl (fun counters report => counters.report report.1 report.2)
        counters) :=
  List.foldl_hom Meter.counters fun _ _ => rfl

theorem histograms_reportAll (histograms : LatencyHistograms)
    (reports : List (Operation × UInt64)) :
    (Meter.histograms histograms).reportAll reports =
      .histograms (reports.foldl (fun histograms report => histograms.report report.1 report.2)
        histograms) :=
  List.foldl_hom Meter.histograms fun _ _ => rfl

/-- After any calls, both kinds of meter count the reports since the last reset, and counters sum
up their latencies. All that a meter holds stays the same under any order of the reports between
two resets, and so does all that it shows. -/
theorem takeAll_agrees (calls : List MeterCall)
    (few : (MeterCall.sinceReset calls).length < wordLimit) :
    ∃ counters histograms,
      (Meter.counters .empty).takeAll calls = .counters counters ∧
      (Meter.histograms .empty).takeAll calls = .histograms histograms ∧
      (Meter.counters counters).Shows (MeterCall.sinceReset calls) ∧
      (Meter.histograms histograms).Shows (MeterCall.sinceReset calls) ∧
      (∀ operation,
        (counters.summary? operation = none ↔
          latenciesOf operation (MeterCall.sinceReset calls) = []) ∧
        ∀ summary, counters.summary? operation = some summary →
          summary.IsOf (latenciesOf operation (MeterCall.sinceReset calls))) ∧
      ∀ others, MeterCall.Reordered calls others →
        (Meter.counters .empty).takeAll others = .counters counters ∧
        (Meter.histograms .empty).takeAll others = .histograms histograms := by
  have ofCounters := (Meter.counters .empty).takeAll_reset calls
  have ofHistograms := (Meter.histograms .empty).takeAll_reset calls
  have countersShow := (Meter.counters .empty).shows_reset_reportAll few
  have histogramsShow := (Meter.histograms .empty).shows_reset_reportAll few
  rw [reset, counters_reportAll] at ofCounters countersShow
  rw [reset, histograms_reportAll] at ofHistograms histogramsShow
  refine ⟨_, _, ofCounters, ofHistograms, countersShow, histogramsShow, ?_, ?_⟩
  · intro operation
    have fewOf : (latenciesOf operation (MeterCall.sinceReset calls)).length < wordLimit := by
      rw [length_latenciesOf]
      exact Nat.lt_of_le_of_lt List.countP_le_length few
    have seen := PerOperation.get_foldl_modify LatencyCounters.empty LatencyCounter.record
      (MeterCall.sinceReset calls) operation
    rw [LatencyCounters.empty, PerOperation.get_replicate] at seen
    have summed := LatencyCounter.summary?_ofLatencies fewOf
    rw [LatencyCounter.ofLatencies, ← seen] at summed
    exact summed
  · intro others reordered
    have sameCounters := (Meter.counters .empty).takeAll_reordered reordered
    have sameHistograms := (Meter.histograms .empty).takeAll_reordered reordered
    exact ⟨sameCounters.symm.trans ofCounters, sameHistograms.symm.trans ofHistograms⟩

/-- Reports at both ends of what a word holds, behind a reset. -/
def extremeCalls : List MeterCall :=
  [.report ⟨.read, false⟩ 9, .reset, .report ⟨.read, false⟩ 0,
    .report ⟨.update, true⟩ 0xFFFFFFFFFFFFFFFF, .report ⟨.read, false⟩ 7]

def shuffledCalls : List MeterCall :=
  [.report ⟨.read, false⟩ 9, .reset, .report ⟨.update, true⟩ 0xFFFFFFFFFFFFFFFF,
    .report ⟨.read, false⟩ 7, .report ⟨.read, false⟩ 0]

theorem takeAll_agrees_extreme :
    (MeterCall.sinceReset extremeCalls).length < wordLimit ∧
      MeterCall.Reordered extremeCalls shuffledCalls ∧
      ∃ counters histograms,
        (Meter.counters .empty).takeAll shuffledCalls = .counters counters ∧
        (Meter.histograms .empty).takeAll shuffledCalls = .histograms histograms ∧
        (∀ meter ∈ [Meter.counters counters, .histograms histograms],
          meter.count ⟨.read, false⟩ = 2 ∧ meter.count ⟨.update, true⟩ = 1 ∧
            ∃ parts : String, meter.statusMessage = s!"3 operations;{parts}") ∧
        ∃ summary, counters.summary? ⟨.read, false⟩ = some summary ∧
          summary.IsOf [0, 7] := by
  have few : (MeterCall.sinceReset extremeCalls).length < wordLimit := by decide
  have reordered : MeterCall.Reordered extremeCalls shuffledCalls :=
    .cons (by decide) (.cons (by decide) .nil)
  obtain ⟨counters, histograms, _, _, countersShow, histogramsShow, summaries, same⟩ :=
    takeAll_agrees extremeCalls few
  obtain ⟨ofCounters, ofHistograms⟩ := same shuffledCalls reordered
  refine ⟨few, reordered, counters, histograms, ofCounters, ofHistograms, ?_, ?_⟩
  · have shown : ∀ {meter : Meter}, meter.Shows (MeterCall.sinceReset extremeCalls) →
        meter.count ⟨.read, false⟩ = 2 ∧ meter.count ⟨.update, true⟩ = 1 ∧
          ∃ parts : String, meter.statusMessage = s!"3 operations;{parts}" := by
      intro meter shows
      obtain ⟨parts, message⟩ := shows.statusMessage
      rw [funext shows.count, total_length_latenciesOf] at message
      exact ⟨shows.count _, shows.count _, parts, message⟩
    intro meter member
    rcases List.mem_pair.mp member with rfl | rfl
    · exact shown countersShow
    · exact shown histogramsShow
  · obtain ⟨absent, summarised⟩ := summaries ⟨.read, false⟩
    cases found : counters.summary? ⟨.read, false⟩ with
    | none => exact absurd (absent.mp found) (by decide)
    | some summary => exact ⟨summary, rfl, summarised summary found⟩

end Meter

end RowStore
