import RowStore.Measurement.Histogram
import RowStore.Properties

namespace RowStore

inductive Meter
  | counters (counters : LatencyCounters)
  | histograms (histograms : LatencyHistograms)

namespace Meter

def kindKey : String := "measurementtype"

/-- The meter that the properties ask for. -/
def ofProperties (properties : Properties) : Except Fault Meter :=
  match properties.getD kindKey "basic" with
  | "basic" => .ok (.counters .empty)
  | "hdrhistogram" => .ok (.histograms .empty)
  | other => .error (.config (.unknownMeasurement kindKey other))

def report (meter : Meter) (operation : Operation) (latency : UInt64) : Meter :=
  match meter with
  | counters state => .counters (state.report operation latency)
  | histograms state => .histograms (state.report operation latency)

def reset : Meter → Meter
  | counters _ => .counters .empty
  | histograms _ => .histograms .empty

def count (meter : Meter) (operation : Operation) : Nat :=
  match meter with
  | counters state => (state.count operation).toNat
  | histograms state => state.count operation

def statusMessage : Meter → String
  | counters state => state.statusMessage
  | histograms state => state.statusMessage

def observe (meter : Meter) (request : Request) (response : Response) (latency : UInt64) :
    Meter :=
  meter.report (Operation.withStatus ⟨request.activity, false⟩ response.status) latency

end Meter

/-- A database as its callers see it: a state that changes with every call. -/
abbrev Caller (State : Type) := State → Request → Response × State

/-- The database whose calls are also counted in a meter, each with the time that it took. -/
def measured {State : Type} (call : Caller State) (latency : UInt64) : Caller (State × Meter) :=
  fun (state, meter) request =>
    let (response, state) := call state request
    (response, (state, meter.observe request response latency))

end RowStore
