import BlockGraph.Text.Numeral

/-!
# Faults of a JSON text

Why a text is not the value that was asked for.
-/

namespace BlockGraph

/-- Why a JSON text could not be read as a value of some type. -/
inductive Fault where
  /-- The grammar is broken, a kept part is nested too deep, or a number or string that is asked for
  stands for no value. -/
  | malformed
  | missingField (name : String)
  | duplicateField (name : String)
  | unknownVariant (name : String)
  | invalidType
  | invalidValue
  | invalidLength
  /-- The value has none of the forms that the named choice allows. -/
  | noMatch (choice : String)
  /-- The text of a number is none. -/
  | numeral (error : Text.NumeralError)
  deriving DecidableEq, Repr

namespace Fault

/-- The wording of the fault; names stand between grave accents. -/
def message : Fault → String
  | .malformed => "json syntax error"
  | .missingField name => s!"missing field \x60{name}\x60"
  | .duplicateField name => s!"duplicate field \x60{name}\x60"
  | .unknownVariant name => s!"unknown variant \x60{name}\x60"
  | .invalidType => "invalid type"
  | .invalidValue => "invalid value"
  | .invalidLength => "invalid length"
  | .noMatch choice => s!"data did not match any variant of untagged enum {choice}"
  | .numeral e => e.message

end Fault

end BlockGraph
