import Assay.Text.Split

namespace Assay.Path

def components (path : String) : List String :=
  ((Text.splitOnChar '/' path.toList).filter fun c => !c.isEmpty && c != ['.']).map String.ofList

def namesAtMost : List String → List String → Bool
  | [], _ => true
  | _ :: _, [] => false
  | a :: as, b :: bs => if a = b then namesAtMost as bs else decide (a ≤ b)

def atMost (a b : String) : Bool := namesAtMost (components a) (components b)

def fileName? (path : String) : Option String :=
  (components path).getLast?.filter (· != "..")

/-- What follows the last point of a file name that does not begin with it. -/
def extension? (path : String) : Option String := do
  let name ← fileName? path
  let (stem, ext) ← Text.cutAtLast '.' name.toList
  if stem.isEmpty then none else some (String.ofList ext)

def join (directory name : String) : String :=
  if directory = "" || Text.endsWith directory "/" then directory ++ name
  else directory ++ "/" ++ name

end Assay.Path
