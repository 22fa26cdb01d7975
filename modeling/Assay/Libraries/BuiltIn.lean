import Assay.Libraries
import Assay.Pattern.Parse
import Assay.Toml.Print
import Assay.Toml.Read
import Assay.Yaml.Read

namespace Assay

/-- No part of the text is blamed. -/
def orRefuse {α : Type} (x : Option α) : Except String α := x.elim (.error "not well formed") .ok

instance builtIn : Libraries where
  readPattern pattern := orRefuse ((Pattern.parse pattern).map Pattern.Regex.isMatch)
  readAddress := Address.read
  readYaml text := orRefuse (Yaml.read text)
  readToml text := orRefuse (Toml.read text)
  printToml fields := orRefuse (Toml.print fields)

end Assay
