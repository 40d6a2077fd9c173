import BlockGraph.Json.Value

/-!
# Shapes

What a JSON text should look like, in as much detail as a complaint about it needs.
-/

namespace BlockGraph

/-- What a JSON value should look like. -/
inductive Shape where
  | any
  | text
  /-- A value that may be refused, and why. -/
  | checked (check : Json → Except String Unit)
  /-- A record of a name: an object, or a list of the fields in their order. Each field has a name,
  a shape, and tells whether it may be missing. -/
  | record (name : String) (fields : List (String × Shape × Bool))

namespace Shape

def required (name : String) (shape : Shape) : String × Shape × Bool := (name, shape, false)

/-- A field that may be missing. -/
def defaulted (name : String) (shape : Shape) : String × Shape × Bool := (name, shape, true)

end Shape

end BlockGraph
