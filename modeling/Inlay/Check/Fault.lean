/-!
What is wrong with a value that was given from outside, and where.
-/

namespace Inlay

inductive Complaint
  | missing
  | extra
  | notText
  | notBool
  | unclearBool
  | notInteger
  | unreadableInteger
  | fractional
  | oversized
  | notFinite
  | notNumber
  | unreadableNumber
  | notMapping (model : String)
  | belowZero
  | aboveOne
  | refused (reason : String)
  deriving DecidableEq, Repr

namespace Complaint

/-- The short name under which the complaint is reported. -/
def code : Complaint → String
  | missing => "missing"
  | extra => "extra_forbidden"
  | notText => "string_type"
  | notBool => "bool_type"
  | unclearBool => "bool_parsing"
  | notInteger => "int_type"
  | unreadableInteger => "int_parsing"
  | fractional => "int_from_float"
  | oversized => "int_parsing_size"
  | notFinite => "finite_number"
  | notNumber => "float_type"
  | unreadableNumber => "float_parsing"
  | notMapping _ => "model_type"
  | belowZero => "greater_than_equal"
  | aboveOne => "less_than_equal"
  | refused _ => "value_error"

def message : Complaint → String
  | missing => "Field required"
  | extra => "Extra inputs are not permitted"
  | notText => "Input should be a valid string"
  | notBool => "Input should be a valid boolean"
  | unclearBool => "Input should be a valid boolean, unable to interpret input"
  | notInteger => "Input should be a valid integer"
  | unreadableInteger =>
    "Input should be a valid integer, unable to parse string as an integer"
  | fractional => "Input should be a valid integer, got a number with a fractional part"
  | oversized => "Unable to parse input string as an integer, exceeded maximum size"
  | notFinite => "Input should be a finite number"
  | notNumber => "Input should be a valid number"
  | unreadableNumber => "Input should be a valid number, unable to parse string as a number"
  | notMapping model => "Input should be a valid dictionary or instance of " ++ model
  | belowZero => "Input should be greater than or equal to 0"
  | aboveOne => "Input should be less than or equal to 1"
  | refused reason => "Value error, " ++ reason

end Complaint

/-- A complaint about the value at a path of field names. -/
structure Fault where
  path : List String
  complaint : Complaint
  deriving DecidableEq, Repr

/-- The fault of a field's value, seen from the record that has the field. -/
def Fault.under (field : String) (fault : Fault) : Fault :=
  { fault with path := field :: fault.path }

/-- A checked value, or all that is wrong with the given one. -/
abbrev Checked (α : Type) := Except (List Fault) α

namespace Checked

def faults {α : Type} : Checked α → List Fault
  | .ok _ => []
  | .error faults => faults

/-- One complaint about the value as a whole. -/
def refuse {α : Type} (complaint : Complaint) : Checked α := .error [⟨[], complaint⟩]

/-- The value of a field, its faults placed under the field. -/
def under {α : Type} (field : String) : Checked α → Checked α
  | .ok value => .ok value
  | .error faults => .error (faults.map (Fault.under field))

end Checked

end Inlay
