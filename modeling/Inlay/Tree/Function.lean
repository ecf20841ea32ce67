import Inlay.Tree.Cursor

/-!
Kinds of nodes that introduce functions, parameters and class fields, and how a function's
parameters and name are reached.
-/

namespace Inlay.Tree

def functionKinds : List String :=
  ["arrow_function", "function", "function_declaration", "function_expression",
   "generator_function", "generator_function_declaration", "method_definition"]

def parameterKinds : List String := ["required_parameter", "optional_parameter"]

def fieldKinds : List String := ["public_field_definition", "field_definition"]

namespace Cursor

def isFunction (cursor : Cursor) : Bool := functionKinds.contains cursor.kind

def isParameter (cursor : Cursor) : Bool := parameterKinds.contains cursor.kind

def isField (cursor : Cursor) : Bool := fieldKinds.contains cursor.kind

/-- Functions and classes used as values. -/
def isFunctionValue (cursor : Cursor) : Bool := cursor.isFunction || cursor.kind == "class"

/-- Whether the kind of the function says that it is a generator. -/
def isGeneratorKind (cursor : Cursor) : Bool := "generator".toList.isPrefixOf cursor.kind.toList

/-- The parameters of a function: the bare one of an arrow function, or those of its list. -/
def parameters (function : Cursor) : List Cursor :=
  match function.field? "parameter", function.field? "parameters" with
  | some single, _ => [single]
  | none, some list => list.members
  | none, none => []

/-- The node that names a parameter. -/
def binding (parameter : Cursor) : Cursor :=
  if parameter.isParameter then (parameter.field? "pattern").getD parameter
  else if parameter.kind == "assignment_pattern" then (parameter.field? "left").getD parameter
  else parameter

/-- The name of a class field. -/
def fieldName? (cursor : Cursor) : Option Cursor :=
  (cursor.field? "name").or (cursor.field? "property")

/-- The identifier through which a function can be referred to: its own name, or the name of the
variable, property or field that holds it. -/
def reachableName? (function : Cursor) : Option Cursor :=
  match function.field? "name", function.parent? with
  | some name, _ => some name
  | none, none => none
  | none, some parent =>
    if parent.kind == "variable_declarator" then parent.field? "name"
    else if parent.kind == "pair" then parent.field? "key"
    else if parent.isField then parent.fieldName?
    else none

end Cursor

end Inlay.Tree
