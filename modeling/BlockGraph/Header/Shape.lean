import BlockGraph.Header
import BlockGraph.Json.Diagnosis

/-!
# The shape of header records

What is told about a record that is no header, where a person has to find the fault in it.
-/

namespace BlockGraph

def Digest.shape : Shape := .record "Digest" [Shape.defaulted "logs" .any]

namespace Header

def numberShape : Shape :=
  .checked fun v => (numberCodec.ofJson v).mapError Fault.message |>.map fun _ => ()

def shape : Shape := .record "RawHeader" [
  Shape.required "number" numberShape,
  Shape.required "hash" .text,
  Shape.required "parentHash" .text,
  Shape.defaulted "stateRoot" .text,
  Shape.defaulted "extrinsicsRoot" .text,
  Shape.defaulted "digest" Digest.shape]

/-- What is wrong with a record that is no header. A fault of its JSON text is told with the place
where reading stopped. -/
def complaint (record : String) (e : HeaderError) : String :=
  match e, shape.diagnose record with
  | .unreadable _, some (breach, column) =>
    s!"JSON serialization error: {breach.message} at line 1 column {column}"
  | e, _ => e.message

end Header

end BlockGraph
