import Assay.Libraries
import Assay.Runner.Basic
import Assay.Suite.Setup

namespace Assay

def probeLimit : Duration := .seconds 1

/-- Probe until it succeeds, pausing between probes while the next one is due by the deadline.
There are `left` more probes at most after this one. -/
def pollFrom (probe : Run Bool) (pause : Duration) (deadline : Nat) : Nat → Run Bool
  | 0 => probe
  | left + 1 => do
    if ← probe then pure true
    else do
      let now ← Run.clock
      if now + pause.millis > deadline then pure false
      else do
        Run.sleep pause.toNanos
        pollFrom probe pause deadline left

/-- How many probes can follow the first one in time: one for each pause, and without a pause one
for each millisecond. -/
def pollsWithin (limit pause : Duration) : Nat := limit.millis / max pause.millis 1

def poll (probe : Run Bool) (limit pause : Duration) : Run Bool := do
  let start ← Run.clock
  pollFrom probe pause (start + limit.millis) (pollsWithin limit pause)

namespace HealthWait

variable [Libraries]

def url (w : HealthWait) (base : String) : String := withoutSlashes base ++ w.place

/-- One look at the health of a service. It is healthy when the status says success. -/
def probe (w : HealthWait) (base : String) : Run Bool :=
  match Libraries.readAddress (w.url base) with
  | .web url => do
    match ← Run.send ⟨"GET", url, [], none⟩ probeLimit with
    | .response status _ _ | .stalled status | .broken status => pure (200 ≤ status && status < 300)
    | _ => pure false
  | _ => pure false

def run (w : HealthWait) (base : String) : Run Bool := poll (w.probe base) w.limit w.pause

def warning (w : HealthWait) (base : String) : String :=
  "Health check " ++ w.url base ++ " did not pass within " ++ toString w.limit.millis ++
    "ms, continuing"

end HealthWait

namespace PortWait

def pollPause : Duration := ⟨250⟩

def probe (w : PortWait) : Run Bool :=
  Run.connect w.machine w.port ⟨min probeLimit.millis w.limit.millis⟩

def run (w : PortWait) : Run Bool := poll w.probe w.limit pollPause

def warning (w : PortWait) : String :=
  "Port " ++ w.machine ++ ":" ++ toString w.port ++ " did not open within " ++
    toString w.limit.millis ++ "ms, continuing"

end PortWait

end Assay
