import Assay.Error
import Assay.Files.Path
import Assay.Script

namespace Assay

/-- What is at a place in the file system, without the contents of files. Of a directory that
cannot be listed it is known why. -/
inductive Tree
  | file
  | directory (entries : List (String × Tree))
  | unlisted (reason : String)

inductive FileQuery
  | look (path : String)
  | read (path : String)

def FileQuery.Answer : FileQuery → Type
  | look _ => Option Tree
  | read _ => Except FileFault String

abbrev FileRun (α : Type) := Script FileQuery.Answer α

namespace FileRun

def look (path : String) : FileRun (Option Tree) :=
  Script.query (A := FileQuery.Answer) (.look path)

def read (path : String) : FileRun (Except FileFault String) :=
  Script.query (A := FileQuery.Answer) (.read path)

def forEach {α β : Type} (f : α → FileRun β) : List α → FileRun (List β)
  | [] => pure []
  | a :: as => do
    let b ← f a
    let bs ← forEach f as
    pure (b :: bs)

end FileRun

end Assay
