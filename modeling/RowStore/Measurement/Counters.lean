import RowStore.Measurement.Operation
import RowStore.Text.Hundredths

namespace RowStore

/-- Nanoseconds as microseconds with two places. -/
def showMicroseconds (nanoseconds : Float) : String :=
  Text.twoDecimals (nanoseconds / 1000.0)

/-- The counters of one operation. Count and sum wrap at 2^64. -/
structure LatencyCounter where
  count : UInt64 := 0
  sum : UInt64 := 0
  least : UInt64 := 0xFFFFFFFFFFFFFFFF
  greatest : UInt64 := 0
  deriving DecidableEq, Repr, Inhabited

/-- The counters of an operation that has been reported at least once. -/
structure LatencySummary where
  count : UInt64
  least : UInt64
  greatest : UInt64
  average : Float

namespace LatencyCounter

def record (counter : LatencyCounter) (latency : UInt64) : LatencyCounter where
  count := counter.count + 1
  sum := counter.sum + latency
  least := min counter.least latency
  greatest := max counter.greatest latency

def summary? (counter : LatencyCounter) : Option LatencySummary :=
  if counter.count = 0 then none
  else some {
    count := counter.count
    least := counter.least
    greatest := counter.greatest
    average := counter.sum.toFloat / counter.count.toFloat }

end LatencyCounter

abbrev LatencyCounters := PerOperation LatencyCounter

namespace LatencyCounters

def empty : LatencyCounters := PerOperation.replicate {}

def report (counters : LatencyCounters) (operation : Operation) (latency : UInt64) :
    LatencyCounters :=
  counters.modify operation (·.record latency)

def count (counters : LatencyCounters) (operation : Operation) : UInt64 :=
  (counters.get operation).count

def summary? (counters : LatencyCounters) (operation : Operation) : Option LatencySummary :=
  (counters.get operation).summary?

/-- What the status message says of one operation, nothing if it was never reported. -/
def statusPart (counters : LatencyCounters) (operation : Operation) : String :=
  match counters.summary? operation with
  | none => ""
  | some summary =>
    s!" [{operation.name}: Count={summary.count}" ++
      s!" Max={showMicroseconds summary.greatest.toFloat}" ++
      s!" Min={showMicroseconds summary.least.toFloat}" ++
      s!" Avg={showMicroseconds summary.average}]"

def total (counters : LatencyCounters) : UInt64 :=
  Operation.all.foldl (fun total operation => total + counters.count operation) 0

def statusMessage (counters : LatencyCounters) : String :=
  s!"{counters.total} operations;" ++ String.join (Operation.all.map counters.statusPart)

end LatencyCounters

end RowStore
