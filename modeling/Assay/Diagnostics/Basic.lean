import Assay.Value

namespace Assay

structure DiagnosticsRequest where
  containers : List String
  mockEndpoints : List String
  network : Option String

def DiagnosticsRequest.isEmpty (r : DiagnosticsRequest) : Bool :=
  r.containers.isEmpty && r.mockEndpoints.isEmpty && r.network.isNone

structure DiagnosticsReport where
  containerLogs : Entries String
  containerHealth : Entries String
  mockRequests : Fields
  network : Option Value

namespace DiagnosticsReport

def empty : DiagnosticsReport := ⟨[], [], [], none⟩

def textFields (entries : Entries String) : Value :=
  .object (entries.sorted.map fun e => (e.1, .string e.2))

def toValue (r : DiagnosticsReport) : Value :=
  .object
    ([("containerLogs", textFields r.containerLogs),
      ("containerHealth", textFields r.containerHealth),
      ("mockRequests", .object (Entries.sorted r.mockRequests))] ++
      match r.network with
      | some v => [("network", v)]
      | none => [])

end DiagnosticsReport

end Assay
