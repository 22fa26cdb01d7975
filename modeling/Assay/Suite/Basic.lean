import Assay.Suite.Setup

namespace Assay

structure Suite where
  name : String
  description : Option String
  /-- Whether it runs in the parallel group. -/
  parallel : Bool
  vars : Fields
  retry : Option RetryPolicy
  timeout : Option Duration
  container : Option String
  setup : List SetupEntry
  cases : List Step
  teardown : List Step

namespace Suite

def record : Record Suite :=
  Suite.mk <$> .required "name" .text <*> .option "description" .text <*>
    .optional "parallel" false .bool <*> .optional "variables" [] .fields <*>
    .option "retry" RetryPolicy.decode <*> .option "timeout" Duration.decode <*>
    .option "container" .text <*> .optional "setup" [] (.list SetupEntry.decode) <*>
    .required "cases" (.list Step.decode) <*> .optional "teardown" [] (.list Step.decode)

def decode : Decoder Suite := record.decode "TestSuite" false

/-- A name that is blank names nothing. -/
def isNamed (s : Suite) : Bool := !(Text.trimChars s.name.toList).isEmpty

end Suite

end Assay
