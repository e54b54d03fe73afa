import ToolLayer.Python.Text

/-! What a call can raise, by family: the exceptions of the language and of the
packages in use, or one of the classes `E` the program defines itself. -/
namespace Python

inductive Exc (E : Type) where
  | own (e : E)
  | valueError
  | unicodeEncodeError
  | typeError
  | keyError
  | attributeError
  | assertionError
  | overflowError
  | recursionError
  /-- `pydantic.ValidationError`. -/
  | validationError
  /-- `sqlalchemy.exc.StatementError`. -/
  | statementError
  /-- `yaml.YAMLError`. -/
  | yamlError
  deriving DecidableEq

namespace Exc

variable {E : Type}

/-- What `except ValueError` catches, given which of the program's own classes it does. -/
def isValueError (own : E → Bool) : Exc E → Bool
  | .own e => own e
  | .valueError | .unicodeEncodeError | .validationError => true
  | _ => false

end Exc

end Python
