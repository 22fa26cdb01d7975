import Assay.CommandLine.Transcript
import Assay.Docker
import Assay.Libraries.BuiltIn

/-!
The command line of the program. It reads files, the environment and the clock; programs, servers
and ports are out of its reach.
-/

namespace Assay.Main

open CommandLine

def environment : IO (List (String × String)) := do
  try
    let bytes ← IO.FS.readBinFile "/proc/self/environ"
    let entries := Text.splitOnChar (Char.ofNat 0) (Text.ofBytesLossy bytes.toList).toList
    pure (entries.filterMap fun e =>
      (Text.cutAt '=' e).map fun p => (String.ofList p.1, String.ofList p.2))
  catch _ => pure []

/-- What is at a place that is listed somewhere. Whatever is no directory counts as a file, even a
link that leads nowhere. -/
partial def lookAt (path : String) : IO Tree := do
  try
    let place ← IO.FS.realPath path
    if ← place.isDir then
      try
        let entries ← place.readDir
        let below ← entries.toList.mapM fun e => do
          let t ← lookAt (Path.join path e.fileName)
          pure (e.fileName, t)
        pure (.directory below)
      catch e => pure (.unlisted (toString e))
    else pure .file
  catch _ => pure .file

def look (path : String) : IO (Option Tree) := do
  try
    let place ← IO.FS.realPath path
    if ← place.pathExists then
      let t ← lookAt path
      pure (some t)
    else pure none
  catch _ => pure none

def read (path : String) : IO (Except FileFault String) := do
  try
    let bytes ← IO.FS.readBinFile path
    match Text.ofBytes? bytes.toList with
    | some text => pure (.ok text)
    | none => pure (.error .notText)
  catch _ =>
    match ← look path with
    | some (.directory _) | some (.unlisted _) => pure (.error .directory)
    | _ => pure (.error .absent)

def answerFile : (q : FileQuery) → IO q.Answer
  | .look path => look path
  | .read path => read path

def millis (nanos : Nat) : Nat := (nanos + 999999) / 1000000

def sleep (millis : Nat) : IO Unit := IO.sleep (min millis (Nat.pow 2 32 - 1)).toUInt32

partial def sleepForever : IO Empty := do
  sleep 1000
  sleepForever

def printAll (stream : IO.FS.Stream) (text : String) : IO Unit := do
  stream.putStr text
  stream.flush

def answerHost (emit : Event → IO Unit) : (q : HostQuery) → IO q.Answer
  | .locate _ => pure none
  | .launch .. => pure (.refused FileFault.absent.message)
  | .send .. => pure .unreachable
  | .connect .. => pure false
  | .sleep nanos => sleep (millis nanos)
  | .sleepForever => sleepForever
  | .clock => IO.monoMsNow
  | .emit event => emit event

def advance {α : Type} (emit : Event → IO Unit) : HostRun α → IO (Option (Nat × HostRun α))
  | .done _ => pure none
  | .ask (.sleep nanos) next => do
    let now ← IO.monoMsNow
    pure (some (now + millis nanos, next ()))
  | .ask q next => do
    let r ← answerHost emit q
    advance emit (next r)

partial def together {α : Type} (emit : Event → IO Unit) (places : Nat) :
    List (HostRun α) → List (Nat × HostRun α) → IO Unit
  | waiting, asleep => do
    match waiting, asleep.mergeSort fun a b => decide (a.1 ≤ b.1) with
    | script :: waiting, asleep =>
      if asleep.length < places then
        let rest ← advance emit script
        together emit places waiting (asleep ++ rest.toList)
      else wake (script :: waiting) asleep
    | [], asleep => wake [] asleep
where
  wake (waiting : List (HostRun α)) : List (Nat × HostRun α) → IO Unit
    | [] => pure ()
    | (time, script) :: asleep => do
      let now ← IO.monoMsNow
      sleep (time - now)
      let rest ← advance emit script
      together emit places waiting (asleep ++ rest.toList)

def runBatch (emit : Event → IO Unit) (plan : Plan) : IO Unit := do
  let onHost {α : Type} (script : Run α) : HostRun α := script.run (Query.onHost ⟨none⟩)
  let first := onHost (plan.runner.runInTurn (sequentialGroup plan.batch) plan.context)
  let (_, ctx) ← first.run (answerHost emit)
  let group := parallelGroup plan.batch
  together emit (slots plan.limit group)
    (group.map fun e => onHost (plan.runner.runApart ctx e)) []

def finish (t : Transcript) : IO UInt32 := do
  printAll (← IO.getStdout) t.stdout
  printAll (← IO.getStderr) t.stderr
  pure t.exitCode.toUInt32

def performRun (a : RunArguments) (configuration : Option String)
    (env : List (String × String)) (color : Bool) : IO UInt32 := do
  match ← (prepare a configuration env).run.run answerFile with
  | .error e => finish (.failure [] e)
  | .ok plan => do
    let output ← IO.getStdout
    printAll (← IO.getStderr) (textOf (plan.faults.map (faultLine color)))
    let totals ← IO.mkRef ({} : Report.Totals)
    let emit (event : Event) : IO Unit := do
      totals.modify (·.record event)
      printAll output (textOf (eventLines a.json color event))
    runBatch emit plan
    let totals ← totals.get
    printAll output (textOf (totalsLines a.json color totals plan.faults.length))
    pure (exitCodeOf (totals.success plan.faults.length)).toUInt32

end Assay.Main

open Assay CommandLine in
def main (arguments : List String) : IO UInt32 := do
  let env ← Main.environment
  let color := Report.wantsColor env (← (← IO.getStdout).isTty)
  match Request.ofArguments arguments with
  | .perform (.run a) configuration _ => Main.performRun a configuration env color
  | .perform (.validate paths) _ _ => (validate paths color).run Main.answerFile >>= Main.finish
  | .perform .config configuration _ =>
    (showConfiguration configuration env).run Main.answerFile >>= Main.finish
  | r =>
    match r.transcript with
    | some t => Main.finish t
    | none => pure 0
