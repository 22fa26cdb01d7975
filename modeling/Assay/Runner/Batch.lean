import Assay.Runner.Suite

namespace Assay

structure BatchEntry where
  suite : Suite
  options : RunOptions

namespace Runner

variable [Libraries]

def runEntry (r : Runner) (e : BatchEntry) (ctx : Context) : Run (Summary × Context) :=
  r.runSuite e.suite e.options ctx

/-- Run suites one after another, each on the context that the one before it left. -/
def runInTurn (r : Runner) : List BatchEntry → Context → Run (List Summary × Context)
  | [], ctx => pure ([], ctx)
  | e :: es, ctx => do
    let (summary, ctx) ← r.runEntry e ctx
    let (summaries, ctx) ← runInTurn r es ctx
    pure (summary :: summaries, ctx)

def runApart (r : Runner) (ctx : Context) (e : BatchEntry) : Run Summary := do
  let (summary, _) ← r.runEntry e ctx
  pure summary

end Runner

def sequentialGroup (batch : List BatchEntry) : List BatchEntry :=
  batch.filter fun e => !e.suite.parallel

def parallelGroup (batch : List BatchEntry) : List BatchEntry :=
  batch.filter fun e => e.suite.parallel

/-- How many suites of the parallel group run at a time. Without a limit, or with none of zero, all
of them do. -/
def slots (limit : Option Nat) (group : List BatchEntry) : Nat :=
  (limit.filter (· > 0)).getD group.length

end Assay
