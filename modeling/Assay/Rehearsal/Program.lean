import Assay.CommandLine.Transcript
import Assay.Rehearsal.Disk
import Assay.Rehearsal.Machine

namespace Assay.Rehearsal

structure Surroundings where
  disk : Disk
  env : List (String × String)
  color : Bool
  docker : Docker

namespace Surroundings

variable [Libraries]

open CommandLine

def ask {α : Type} (s : Surroundings) (run : FileRun α) : α :=
  Id.run (run.run fun q => pure (s.disk.answer q))

def playRun (s : Surroundings) (a : RunArguments) (configuration : Option String) (m : Machine) :
    Option (Transcript × Machine) :=
  match s.ask (prepare a configuration s.env).run with
  | .error e => some (.failure [] e, m)
  | .ok plan => do
    let (_, _, _, m) ←
      playBatch (Machine.respondTo s.docker) plan.runner plan.batch plan.limit plan.context m
    pure (runTranscript a.json s.color plan.faults m.events.reverse, m)

def play (s : Surroundings) (arguments : List String) (m : Machine) :
    Option (Transcript × Machine) :=
  match Request.ofArguments arguments with
  | .perform (.run a) configuration _ => s.playRun a configuration m
  | .perform (.validate paths) _ _ => some (s.ask (validate paths s.color), m)
  | .perform .config configuration _ => some (s.ask (showConfiguration configuration s.env), m)
  | r => r.transcript.map fun t => (t, m)

end Surroundings

end Assay.Rehearsal
