import Assay.Document.Basic
import Assay.Http.Url

namespace Assay

/-- What is left to libraries: regular expressions, addresses, and two formats of documents. A
library explains what it refuses. -/
class Libraries where
  /-- The texts in which a pattern matches somewhere. -/
  readPattern : String → Except String (String → Bool)
  readAddress : String → Address
  readYaml : String → Except String Document
  readToml : String → Except String Document
  printToml : Fields → Except String String

end Assay
