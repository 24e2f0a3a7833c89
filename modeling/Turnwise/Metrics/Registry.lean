import Turnwise.Metrics.Histogram

/-!
# The metrics registry

Every metric of the engine under its name, and the text in which they are gathered: one family per
metric, sorted by name, each with a line of help, a line with its type and its samples. A family
that has no samples yet is left out, which can only happen to the finished generations, whose
samples come into being with their labels.
-/

namespace Turnwise.Metrics

/-- The metrics that only grow. -/
inductive Counter where
  | sessionsCreated
  | sessionsEnded
  | commandsRouted
  | unknownSession
  | routingFailures
  | tokensPrefilled
  | tokensGenerated
  | computeFailures
  | generationsFailed
  deriving DecidableEq, Repr

/-- The metrics that rise and fall. -/
inductive Gauge where
  | activeSessions
  | activeGenerations
  deriving DecidableEq, Repr

/-- The metrics that sort observations into buckets. -/
inductive Distribution where
  | ackLatency
  | computeDuration
  | prefillBatchTokens
  | decodeBatchSequences
  deriving DecidableEq, Repr

/-- The upper bounds of a distribution's buckets. -/
def Distribution.bounds : Distribution → List Float
  | ackLatency => [0.0001, 0.0005, 0.001, 0.005, 0.01, 0.05, 0.1, 0.5, 1.0]
  | computeDuration => [0.0001, 0.0005, 0.001, 0.0025, 0.005, 0.01, 0.025, 0.05, 0.1]
  | prefillBatchTokens => [1.0, 8.0, 32.0, 64.0, 128.0, 256.0, 512.0, 1024.0]
  | decodeBatchSequences => [1.0, 2.0, 4.0, 8.0, 16.0, 32.0, 64.0, 128.0]

/-- The state of every metric. Counters are words of 64 bits and wrap around. -/
structure Registry where
  counters : Counter → UInt64 := fun _ => 0
  gauges : Gauge → Int := fun _ => 0
  distributions : Distribution → Histogram := fun d => .ofBounds d.bounds
  /-- How many generations finished for each reason, sorted by reason. -/
  finished : List (String × UInt64) := []

/-! ### Recording -/

/-- Adds to a reason's count, which comes into being with the first addition. -/
def addFinished (reason : String) (n : UInt64) : List (String × UInt64) → List (String × UInt64)
  | [] => [(reason, n)]
  | (first, count) :: rest =>
      if first = reason then (first, count + n) :: rest
      else if reason < first then (reason, n) :: (first, count) :: rest
      else (first, count) :: addFinished reason n rest

namespace Registry

def add (r : Registry) (counter : Counter) (n : UInt64) : Registry :=
  { r with counters := fun c => if c = counter then r.counters c + n else r.counters c }

def set (r : Registry) (gauge : Gauge) (value : Int) : Registry :=
  { r with gauges := fun g => if g = gauge then value else r.gauges g }

def observe (r : Registry) (distribution : Distribution) (value : Float) : Registry :=
  { r with
    distributions := fun d =>
      if d = distribution then (r.distributions d).observe value else r.distributions d }

def addFinished (r : Registry) (reason : String) (n : UInt64) : Registry :=
  { r with finished := Metrics.addFinished reason n r.finished }

end Registry

/-! ### The text form -/

/-- A character inside a quoted label value. -/
def escapeLabel (c : Char) : List Char :=
  if c = '\\' then ['\\', '\\']
  else if c = '"' then ['\\', '"']
  else if c = '\n' then ['\\', 'n']
  else [c]

def labelled (name label value : String) : String :=
  name ++ "\x7b" ++ label ++ "=\"" ++ String.ofList (value.toList.flatMap escapeLabel) ++ "\"\x7d"

/-- One family: a metric with its samples. -/
structure Family where
  name : String
  help : String
  kind : String
  samples : List (String × Float)

def Family.lines (family : Family) : List String :=
  s!"# HELP {family.name} {family.help}" :: s!"# TYPE {family.name} {family.kind}" ::
    family.samples.map fun (name, value) => s!"{name} {doubleText value}"

namespace Registry

def counter (r : Registry) (c : Counter) (name help : String) : Family :=
  { name, help, kind := "counter", samples := [(name, Float.ofNat (r.counters c).toNat)] }

def gauge (r : Registry) (g : Gauge) (name help : String) : Family :=
  { name, help, kind := "gauge", samples := [(name, Float.ofInt (r.gauges g))] }

/-- The family of a distribution. The buckets of the text are cumulative, and the last one holds
everything. -/
def distribution (r : Registry) (d : Distribution) (name help : String) : Family :=
  let h := r.distributions d
  let bucket := name ++ "_bucket"
  { name, help, kind := "histogram",
    samples :=
      (Histogram.cumulative 0 h.buckets).map (fun (bound, n) =>
        (labelled bucket "le" (doubleText bound), Float.ofNat n))
      ++ [(labelled bucket "le" "+Inf", Float.ofNat h.count), (name ++ "_sum", h.sum),
        (name ++ "_count", Float.ofNat h.count)] }

def finishedFamily (r : Registry) : Family :=
  let name := "stream_generations_finished_total"
  { name, help := "Total generations finished, by reason", kind := "counter",
    samples := r.finished.map fun (reason, n) =>
      (labelled name "reason" reason, Float.ofNat n.toNat) }

/-- Every family, sorted by name. -/
def families (r : Registry) : List Family :=
  [r.distribution .ackLatency "router_ack_latency_seconds"
      "Time spent waiting for worker acknowledgements",
    r.counter .commandsRouted "router_commands_routed_total"
      "Total number of commands forwarded to a pinned worker",
    r.counter .routingFailures "router_routing_failures_total"
      "Total routed commands that failed to reach a worker or get its acknowledgement",
    r.counter .sessionsCreated "router_sessions_created_total"
      "Total number of sessions created",
    r.counter .sessionsEnded "router_sessions_ended_total" "Total number of sessions ended",
    r.counter .unknownSession "router_unknown_session_total"
      "Total commands rejected for an unknown session",
    r.counter .generationsFailed "stream_generations_failed_total"
      "Total generations ended with an error event",
    r.finishedFamily,
    r.gauge .activeGenerations "worker_active_generations"
      "Current number of running generations",
    r.gauge .activeSessions "worker_active_sessions"
      "Current number of sessions pinned to workers",
    r.distribution .computeDuration "worker_compute_duration_seconds"
      "Duration of one batch compute call",
    r.counter .computeFailures "worker_compute_failures_total"
      "Total number of failed compute calls",
    r.distribution .decodeBatchSequences "worker_decode_batch_sequences"
      "Decode batch size in sessions",
    r.distribution .prefillBatchTokens "worker_prefill_batch_tokens"
      "Prefill batch size in tokens",
    r.counter .tokensGenerated "worker_tokens_generated_total"
      "Total number of tokens generated",
    r.counter .tokensPrefilled "worker_tokens_prefilled_total"
      "Total number of input tokens written by prefill"]

/-- The lines of all families that have samples. -/
def gather (r : Registry) : List String :=
  (r.families.filter fun family => !family.samples.isEmpty).flatMap Family.lines

end Registry

end Turnwise.Metrics
