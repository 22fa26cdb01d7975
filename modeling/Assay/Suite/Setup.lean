import Assay.Suite.Step

namespace Assay

structure HealthWait where
  timeout : Option Duration
  path : Option String
  interval : Option Duration

structure PortWait where
  port : Nat
  host : Option String
  timeout : Option Duration

inductive SetupEntry
  | waitForHealth (wait : HealthWait)
  | waitForPort (wait : PortWait)
  | delay (duration : Duration)
  | step (step : Step)

def waitLimit : Duration := .seconds 30

namespace HealthWait

def record : Record HealthWait :=
  HealthWait.mk <$> .option "timeout" Duration.decode <*> .option "path" .text <*>
    .option "interval" Duration.decode

def decode : Decoder HealthWait := record.decode "HealthWait" true

def limit (w : HealthWait) : Duration := w.timeout.getD waitLimit

def place (w : HealthWait) : String := w.path.getD "/health"

def pause (w : HealthWait) : Duration := w.interval.getD (.seconds 1)

end HealthWait

namespace PortWait

def record : Record PortWait :=
  PortWait.mk <$> .required "port" .port <*> .option "host" .text <*>
    .option "timeout" Duration.decode

def decode : Decoder PortWait := record.decode "PortWait" true

def limit (w : PortWait) : Duration := w.timeout.getD waitLimit

def machine (w : PortWait) : String := w.host.getD "localhost"

end PortWait

namespace SetupEntry

/-- A step without a kind that has a delay only waits. -/
def ofStep (s : Step) : SetupEntry :=
  match s.action, s.delay with
  | none, some d => .delay d
  | _, _ => .step s

def inKey {α : Type} (key : String) : Except Mismatch α → Except Mismatch α
  | .ok a => .ok a
  | .error m => .error (.within key m)

/-- The wait keys pick the form; without one of them the entry is a step. -/
def ofFields (fields : Fields) : Except Mismatch SetupEntry :=
  match Entries.get? fields "waitForHealth", Entries.get? fields "waitForPort" with
  | some .null, _ => .ok (.waitForHealth ⟨none, none, none⟩)
  | some v, _ =>
    inKey "waitForHealth" ((HealthWait.decode .jsonValue (.ofValue v)).map .waitForHealth)
  | none, some v => inKey "waitForPort" ((PortWait.decode .jsonValue (.ofValue v)).map .waitForPort)
  | none, none => (Step.decode .jsonValue (.ofValue (.object fields))).map ofStep

/-- An entry is first read as a JSON object. A mismatch found in that object keeps the wording it
has there. -/
def decode : Decoder SetupEntry := fun o d => do
  let fields ← Decoder.fields o d
  match ofFields fields with
  | .ok entry => .ok entry
  | .error m => .error (.plainly m)

end SetupEntry

end Assay
