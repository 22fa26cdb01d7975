import Assay.Walk
import Assay.Template

namespace Assay

/-- The variables a run can refer to: those of the configuration, those set while it runs, and
those of the environment. -/
structure Context where
  config : Fields
  runtime : Fields
  env : List (String × String)

namespace Context

def empty : Context := ⟨[], [], []⟩

def lookupIn (layer : Fields) (path : String) : Option Value :=
  (Value.object layer).descend? (Value.segments path)

/-- The text of a reference such as `config.host`, `runtime.token` or `env.HOME`. -/
def lookup (ctx : Context) (reference : String) : Option String := do
  let (scope, key) ← Text.cutAt '.' reference.toList
  let key := String.ofList key
  match String.ofList scope with
  | "env" => ctx.env.lookup key
  | "config" => (lookupIn ctx.config key).map Value.text
  | "runtime" => (lookupIn ctx.runtime key).map Value.text
  | _ => none

def fill (ctx : Context) (text : String) : String := Template.fill ctx.lookup text

mutual

/-- Fill every text inside a value; field names stay as they are. -/
def resolve (ctx : Context) : Value → Value
  | .string s => .string (ctx.fill s)
  | .array items => .array (ctx.resolveAll items)
  | .object fields => .object (ctx.resolveFields fields)
  | v => v
termination_by structural v => v

def resolveAll (ctx : Context) : List Value → List Value
  | [] => []
  | v :: vs => ctx.resolve v :: ctx.resolveAll vs
termination_by structural v => v

def resolveFields (ctx : Context) : List (String × Value) → List (String × Value)
  | [] => []
  | (k, v) :: fs => (k, ctx.resolve v) :: ctx.resolveFields fs
termination_by structural v => v

end

def define (ctx : Context) (name : String) (v : Value) : Context :=
  { ctx with runtime := Entries.put ctx.runtime name v }

def store (ctx : Context) (name : String) (v : Value) : Context :=
  ctx.define name (.string v.text)

/-- Define variables one after another, each filled with the help of those before it. -/
def defineAll (ctx : Context) (vars : Fields) : Context :=
  vars.foldl (fun ctx p => ctx.define p.1 (ctx.resolve p.2)) ctx

end Context

end Assay
