import Assay.Files.Tree
import Assay.Value

namespace Assay

namespace Tree

/-- Add a file at a place below a directory, with the directories on the way to it. -/
def addFile : List String → List (String × Tree) → List (String × Tree)
  | [], entries => entries
  | [name], entries => Entries.put entries name .file
  | name :: names, entries =>
    let inner := match entries.lookup name with
      | some (.directory inner) => inner
      | _ => []
    Entries.put entries name (.directory (addFile names inner))

def child? (t : Tree) (name : String) : Option Tree :=
  match t with
  | .directory entries => entries.lookup name
  | .file | .unlisted _ => none

def walk? : List Tree → List String → Option Tree
  | [], _ => none
  | t :: _, [] => some t
  | _ :: outer, ".." :: names => walk? outer names
  | t :: outer, name :: names => (t.child? name).bind fun c => walk? (c :: t :: outer) names

end Tree

namespace Rehearsal

/-- Files by their paths in the working directory, and files by their paths from the root. -/
structure Disk where
  files : List (String × Except FileFault String)
  rooted : List (String × Except FileFault String)

namespace Disk

def tree (d : Disk) : Tree :=
  .directory (d.files.foldl (fun entries f => Tree.addFile (Path.components f.1) entries) [])

/-- Names without steps back. -/
def settle (names : List String) : List String :=
  (names.foldl (fun back name => if name = ".." then back.drop 1 else name :: back) []).reverse

def look (d : Disk) (path : String) : Option Tree :=
  if (d.rooted.lookup path).isSome then some .file
  else if path = "" || Text.startsWith path "/" then none
  else Tree.walk? [d.tree] (Path.components path)

def read (d : Disk) (path : String) : Except FileFault String :=
  match d.rooted.lookup path with
  | some content => content
  | none =>
    match d.look path with
    | none => .error .absent
    | some (.directory _) | some (.unlisted _) => .error .directory
    | some .file =>
      let names := settle (Path.components path)
      match d.files.find? fun f => Path.components f.1 == names with
      | some f => f.2
      | none => .error .absent

def answer (d : Disk) : (q : FileQuery) → q.Answer
  | .look path => d.look path
  | .read path => d.read path

end Disk

end Rehearsal

end Assay
