import Assay.CommandLine.Arguments

namespace Assay.CommandLine

def programName : String := "e2e"

def versionText : String := programName ++ " 0.1.0"

namespace CommandName

def about : CommandName → String
  | run => "Run test suites (files, or directories of .yaml/.yml/.json files)"
  | validate => "Load suites without running them and report any errors"
  | config => "Show the resolved runner configuration"
  | help => "Print this message or the help of the given subcommand(s)"

def usage : CommandName → String
  | run | validate => " [OPTIONS] <PATHS>..."
  | config => " [OPTIONS]"
  | help => " [COMMAND]..."

def wordRows : CommandName → List (String × String)
  | run | validate => [("<PATHS>...", "Suite files or directories")]
  | config => []
  | help => [("[COMMAND]...", "Print help for the subcommand(s)")]

end CommandName

namespace Flag

def written (f : Flag) : String :=
  (match f.short with
    | some c => String.ofList ['-', c, ',', ' ']
    | none => "    ") ++
    "--" ++ f.long ++
    match f.effect with
    | .value name _ _ => " <" ++ name ++ ">"
    | _ => ""

def row (f : Flag) : String × String := (f.written, f.help)

end Flag

def padded (width : Nat) (s : String) : String :=
  s ++ String.ofList (List.replicate (width - s.length) ' ')

def table (title : String) (rows : List (String × String)) : List String :=
  let width := (rows.map fun r => r.1.length).foldl max 0
  ("\n" ++ title ++ ":") :: rows.map fun r => "  " ++ padded width r.1 ++ "  " ++ r.2

/-- A table, unless it would have no rows. -/
def optionalTable (title : String) (rows : List (String × String)) : List String :=
  if rows.isEmpty then [] else table title rows

def helpLines : Option CommandName → List String
  | none =>
    ["Declarative end-to-end test runner", "\nUsage: " ++ programName ++ " [OPTIONS] <COMMAND>"] ++
      table "Commands" (CommandName.all.map fun c => (c.text, c.about)) ++
      table "Options" (mainFlags.map Flag.row)
  | some c =>
    [c.about, "\nUsage: " ++ programName ++ " " ++ c.text ++ c.usage] ++
      optionalTable "Arguments" c.wordRows ++ optionalTable "Options" (c.flags.map Flag.row)

end Assay.CommandLine
