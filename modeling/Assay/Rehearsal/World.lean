import Assay.Rehearsal.Pool

namespace Assay.Rehearsal

variable [Libraries]

structure Reply where
  pattern : String
  output : ExecOutput
  takes : Nat
  failure : Option String

structure Call where
  target : String
  command : String
  limit : Duration
  time : Nat

inductive Collector
  | reports (report : DiagnosticsReport)
  | fails (reason : String)

/-- A scripted world without a network, with what was asked of it so far, last one first. -/
structure World where
  /-- Replies used up one after another, whatever the command. -/
  queue : List Reply
  rules : List Reply
  collector : Collector
  calls : List Call := []
  events : List Event := []
  collected : List DiagnosticsRequest := []

def noRule : Reply := ⟨"", ⟨"", "no rule", 127⟩, 0, none⟩

namespace World

/-- The reply to a command: the next of the queue, else that of the first rule that matches. -/
def reply (w : World) (command : String) : Reply × World :=
  match w.queue with
  | r :: queue => (r, { w with queue := queue })
  | [] => ((w.rules.find? fun r => Text.contains command r.pattern).getD noRule, w)

def Reply.answer (r : Reply) : Except Error ExecOutput :=
  match r.failure with
  | some reason => .error (.remote reason)
  | none => .ok r.output

def respond : Responder Query.Answer World
  | .exec target command limit, now, w =>
    let (r, w) := w.reply command
    some (r.takes, Reply.answer r, { w with calls := ⟨target, command, limit, now⟩ :: w.calls })
  | .send _ _, _, w => some (0, .unreachable, w)
  | .connect _ _ _, _, w => some (0, false, w)
  | .sleep nanos, _, w => some (sleepMillis nanos, (), w)
  | .sleepForever, _, _ => none
  | .clock, now, w => some (0, now, w)
  | .emit event, _, w => some (0, (), { w with events := event :: w.events })
  | .collect request, _, w =>
    let w := { w with collected := request :: w.collected }
    match w.collector with
    | .reports report => some (0, .ok report, w)
    | .fails reason => some (0, .error (.remote reason), w)

end World

def runBatch (r : Runner) (batch : List BatchEntry) (limit : Option Nat) (ctx : Context)
    (w : World) : Option (List Summary × Context × Nat × World) :=
  playBatch World.respond r batch limit ctx w

end Assay.Rehearsal
