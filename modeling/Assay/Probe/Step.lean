import Assay.Probe.File
import Assay.Probe.Port
import Assay.Probe.Process
import Assay.Probe.Request
import Assay.Suite.Step

namespace Assay

def Context.resolveAs {α : Type} (ctx : Context) (toValue : α → Value) (dec : Decoder α) (a : α) :
    Except Error α :=
  match dec .jsonValue (.ofValue (ctx.resolve (toValue a))) with
  | .ok b => .ok b
  | .error m => .error (.json (.mismatch .jsonValue m))

def Action.resolve (ctx : Context) : Action → Except Error Action :=
  ctx.resolveAs Action.toValue Action.decode

def Expectation.resolve (ctx : Context) : Option Expectation → Except Error (Option Expectation)
  | none => .ok none
  | some e => (ctx.resolveAs Expectation.toValue Expectation.decode e).map some

namespace Step

variable [Libraries]

def unchanged (ctx : Context) (failures : Trial (List String)) : Trial (List String × Context) := do
  let failed ← failures
  pure (failed, ctx)

def execute (s : Step) (settings : StepSettings) (ctx : Context) :
    Trial (List String × Context) := do
  match s.action with
  | none => throw (.noAction s.displayName)
  | some action =>
    let action ← action.resolve ctx
    let expect ← Expectation.resolve ctx s.expect
    match action with
    | .request r => r.run expect s.save settings ctx
    | .exec e => unchanged ctx (e.run expect settings)
    | .file f => unchanged ctx (f.run settings)
    | .process p => unchanged ctx (p.run settings)
    | .port p => unchanged ctx p.run

end Step

end Assay
