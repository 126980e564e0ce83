import RowStore.Measurement.Counters
import RowStore.Sizes

/-!
Histograms of latencies. Values up to 2047 are counted one by one; above that each doubling of the
range is cut into 1024 slots of equal width, so that a slot is never wider than a thousandth of the
values in it. There are slots for all values below 2^42; a larger value is counted as the highest
value to be tracked, one hour.
-/

namespace RowStore

namespace LatencySlot

def total : Nat := 33792

/-- The highest latency that is told apart, in nanoseconds. -/
def highestTracked : Nat := 3600000000000

/-- How often the width of a value's slot has doubled. -/
def doublings (value : Nat) : Nat :=
  Nat.log2 (value ||| 2047) - 10

def ofValue (value : Nat) : Nat :=
  let doublings := doublings value
  (doublings + 1) * 1024 + (value >>> doublings) - 1024

/-- The slot a value is counted in. -/
def recording (value : Nat) : Nat :=
  if ofValue value < total then ofValue value else ofValue highestTracked

/-- How often the width of a slot has doubled. -/
def scale (slot : Nat) : Nat :=
  slot / 1024 - 1

def lowest (slot : Nat) : Nat :=
  (slot - scale slot * 1024) <<< scale slot

def width (slot : Nat) : Nat :=
  1 <<< scale slot

def highest (slot : Nat) : Nat :=
  lowest slot + width slot - 1

/-- The value in the middle of a slot. -/
def median (slot : Nat) : Nat :=
  lowest slot + width slot / 2

end LatencySlot

/-- A natural number as the nearest floating-point number, if it is below 2^64. -/
def floatOfCount (count : Nat) : Float :=
  count.toUInt64.toFloat

/-- How many values have been counted in each slot. -/
structure Histogram where
  /-- Slots and their counts, in ascending order of slots, without those that are empty. -/
  counts : List (Nat × Nat) := []
  deriving DecidableEq, Repr, Inhabited

namespace Histogram

/-- One more, up to the greatest count there is room for. -/
def increment (count : Nat) : Nat := saturated (count + 1)

/-- Counts with one more in a slot. -/
def addTo (slot : Nat) : List (Nat × Nat) → List (Nat × Nat)
  | [] => [(slot, 1)]
  | (other, count) :: rest =>
    if slot = other then (other, increment count) :: rest
    else if slot < other then (slot, 1) :: (other, count) :: rest
    else (other, count) :: addTo slot rest

def record (histogram : Histogram) (latency : UInt64) : Histogram where
  counts := addTo (LatencySlot.recording latency.toNat) histogram.counts

def isEmpty (histogram : Histogram) : Bool :=
  histogram.counts.isEmpty

/-- The number of values, up to the greatest there is room for. -/
def total (histogram : Histogram) : Nat :=
  saturated (RowStore.total Prod.snd histogram.counts)

/-- The greatest value that could be the greatest counted. -/
def greatest (histogram : Histogram) : Nat :=
  match histogram.counts.getLast? with
  | none => 0
  | some (slot, _) => LatencySlot.highest slot

/-- The least value that could be the least counted. -/
def least (histogram : Histogram) : Nat :=
  match histogram.counts with
  | [] => 0
  | (slot, _) :: _ => LatencySlot.lowest slot

/-- The mean of the middles of the slots, summed up from the lowest slot. -/
def mean (histogram : Histogram) : Float :=
  if histogram.isEmpty then 0.0
  else
    let total := floatOfCount histogram.total
    histogram.counts.foldl
      (fun mean (slot, count) =>
        mean + floatOfCount (LatencySlot.median slot) * floatOfCount count / total)
      0.0

/-- The first slot at which the running count reaches `rank`. -/
def slotOfRank? (rank : Nat) : Nat → List (Nat × Nat) → Option Nat
  | _, [] => none
  | reached, (slot, count) :: rest =>
    if rank ≤ reached + count then some slot else slotOfRank? rank (reached + count) rest

/-- The number of values that a quantile has to reach, at least one. -/
def rankOfQuantile (total : Nat) (quantile : Float) : Nat :=
  let capped := if quantile > 1.0 then 1.0 else quantile
  max (capped * floatOfCount total).ceil.toUInt64.toNat 1

/-- The value at a quantile: the highest of its slot, but the lowest for the quantile zero. -/
def valueAtQuantile (histogram : Histogram) (quantile : Float) : Nat :=
  match slotOfRank? (rankOfQuantile histogram.total quantile) 0 histogram.counts with
  | none => 0
  | some slot => if quantile == 0.0 then LatencySlot.lowest slot else LatencySlot.highest slot

end Histogram

abbrev LatencyHistograms := PerOperation Histogram

namespace LatencyHistograms

def empty : LatencyHistograms := PerOperation.replicate {}

def report (histograms : LatencyHistograms) (operation : Operation) (latency : UInt64) :
    LatencyHistograms :=
  histograms.modify operation (·.record latency)

def count (histograms : LatencyHistograms) (operation : Operation) : Nat :=
  (histograms.get operation).total

/-- The latency at a quantile, nothing if the operation was never reported. -/
def valueAtQuantile? (histograms : LatencyHistograms) (operation : Operation)
    (quantile : Float) : Option Nat :=
  let histogram := histograms.get operation
  if histogram.isEmpty then none else some (histogram.valueAtQuantile quantile)

def shownPercentiles : List (String × Float) :=
  [("90", 0.90), ("99", 0.99), ("99.9", 0.999), ("99.99", 0.9999)]

/-- What the status message says of one operation, nothing if it was never reported. -/
def statusPart (histograms : LatencyHistograms) (operation : Operation) : String :=
  let histogram := histograms.get operation
  if histogram.isEmpty then ""
  else
    s!" [{operation.name}: Count={histogram.total}" ++
      s!" Max={showMicroseconds (floatOfCount histogram.greatest)}" ++
      s!" Min={showMicroseconds (floatOfCount histogram.least)}" ++
      s!" Avg={showMicroseconds histogram.mean}" ++
      String.join (shownPercentiles.map fun (label, quantile) =>
        s!" {label}={showMicroseconds (floatOfCount (histogram.valueAtQuantile quantile))}") ++
      "]"

def total (histograms : LatencyHistograms) : Nat :=
  RowStore.total histograms.count Operation.all

def statusMessage (histograms : LatencyHistograms) : String :=
  s!"{histograms.total} operations;" ++ String.join (Operation.all.map histograms.statusPart)

end LatencyHistograms

end RowStore
