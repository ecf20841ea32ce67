import Inlay.Infer.Scope
import Inlay.Infer.TypeText

/-!
Types told from one file alone: from annotations, literals, declarations and return statements.

Following names and nested expressions ends after a fixed number of steps, so that circular
declarations get no type. What can be told with a number of steps left is built from what can be
told with one step less: `Answers` holds the latter, and every question below is asked at one
depth and looks deeper only through it.

`none` means that nothing is known. `any` is the answer only where the language itself gives it.
-/

namespace Inlay.Infer

open Inlay.Tree

/-- What can be told with a fixed number of steps left. -/
structure Answers where
  /-- The type of a binding, or of an expression that is none. -/
  typeOf : Cursor → Option String
  expression : Cursor → Option String
  function : Cursor → Option String
  returned : Cursor → Option String
  /-- The type of what a name refers to. -/
  reference : Cursor → Option String

def literalTypes : List (String × String) :=
  [("number", "number"), ("string", "string"), ("template_string", "string"),
   ("true", "boolean"), ("false", "boolean"), ("null", "null"), ("undefined", "undefined"),
   ("regex", "RegExp")]

def comparisons : List String :=
  ["==", "!=", "===", "!==", "<", ">", "<=", ">=", "instanceof", "in"]

def arithmetic : List String := ["-", "*", "/", "%", "**", "<<", ">>", ">>>", "&", "|", "^"]

def unaryTypes : List (String × String) :=
  [("!", "boolean"), ("typeof", "string"), ("-", "number"), ("+", "number"), ("~", "number"),
   ("void", "undefined")]

/-- An answer with text in it. -/
def nonempty (type : Option String) : Option String := type.filter (· != "")

/-- The type written in a field of a node, without the colon. -/
def writtenType? (source : Source) (cursor : Cursor) (field : String) : Option String :=
  (cursor.field? field).bind fun field =>
    let written := Text.strip (source.charsOf field)
    let type :=
      match written with
      | ':' :: rest => Text.strip rest
      | _ => written
    nonempty (String.ofList type)

/-- The name of a property, without the quotes of a string. -/
def keyName (source : Source) (key : Cursor) : String :=
  let chars := source.charsOf key
  if key.kind == "string" && 2 ≤ chars.length then String.ofList (chars.drop 1).dropLast
  else source.textOf key

/-- The expression that a destructuring pattern takes apart. -/
def patternSource? (pattern : Cursor) : Option Cursor :=
  match pattern.parent? with
  | some parent =>
    if parent.kind == "variable_declarator" && pattern.isFieldOf parent "name" then
      parent.field? "value"
    else none
  | none => none

/-- The literal of a kind that an expression stands for, through parentheses and variables. -/
def literalBehind? (source : Source) (kind : String) : (steps : Nat) → Option Cursor → Option Cursor
  | 0, _ => none
  | _, none => none
  | steps + 1, some expression =>
    if expression.kind == kind then some expression
    else if expression.kind == "parenthesized_expression" then
      literalBehind? source kind steps expression.members.head?
    else if expression.kind == "identifier" then
      match (resolve? source expression).bind (·.parent?) with
      | some parent =>
        if parent.kind == "variable_declarator" then
          literalBehind? source kind steps (parent.field? "value")
        else none
      | none => none
    else none

mutual

/-- The return statements at or below a node, those of nested functions and classes apart. -/
def returnsAt (above : List Node) : Node → List Cursor
  | .mk label children =>
    let node := Node.mk label children
    let cursor : Cursor := ⟨node, above⟩
    if cursor.kind == "return_statement" then [cursor]
    else if cursor.isFunction || isClass cursor then []
    else returnsAmong (node :: above) children

def returnsAmong (above : List Node) : List Node → List Cursor
  | [] => []
  | node :: rest => returnsAt above node ++ returnsAmong above rest

end

/-- The return statements of a function body. -/
def returnStatements (body : Cursor) : List Cursor :=
  returnsAmong (body.node :: body.above) body.node.children

section Depth

variable (source : Source) (deeper : Answers)

/-- The type of what a name refers to. -/
def referenceType (cursor : Cursor) : Option String :=
  let name := source.textOf cursor
  if name = "undefined" then some "undefined"
  else if name = "NaN" ∨ name = "Infinity" then some "number"
  else
    match resolve? source cursor with
    | none => none
    | some declaration =>
      if declaration.isFunction then deeper.function declaration
      else if isClass declaration then some (TypeText.typeofName name)
      else deeper.typeOf declaration

/-- The type of a function. A parameter whose type is not known is shown as `any`. -/
def functionType (function : Cursor) : Option String :=
  let parameters := function.parameters.map fun parameter =>
    TypeText.parameter (source.textOf parameter.binding)
      (parameter.kind == "optional_parameter")
      ((nonempty (deeper.typeOf parameter.binding)).getD "any")
  (deeper.returned function).map (TypeText.function parameters)

/-- The union of the types of return statements. -/
def returnedByStatements (statements : List Cursor) : Option String :=
  let types := statements.mapM fun statement =>
    match statement.members with
    | [] => some "undefined"
    | value :: _ => deeper.expression value
  types.map fun types =>
    if types.all (· == "undefined") then "void" else TypeText.union types

/-- What a function returns. Nothing is told of generators. -/
def returnType (function : Cursor) : Option String :=
  match writtenType? source function "return_type" with
  | some written => some written
  | none =>
    if function.isGeneratorKind || function.hasToken "*" then none
    else
      match function.field? "body" with
      | none => none
      | some body =>
        let returned :=
          if body.kind == "statement_block" then
            returnedByStatements deeper (returnStatements body)
          else deeper.expression body
        returned.map fun type =>
          if function.hasToken "async" then TypeText.promise type else type

def arrayType (cursor : Cursor) : Option String :=
  match cursor.members with
  | [] => some "any[]"
  | elements =>
    let types := elements.mapM fun element =>
      if element.kind == "spread_element" then none else deeper.expression element
    types.map fun types => TypeText.array (TypeText.union types)

/-- One member of an object type. -/
def memberType (member : Cursor) : Option String :=
  if member.kind == "pair" then
    match member.field? "key", member.field? "value" with
    | some key, some value =>
      if key.kind == "computed_property_name" then none
      else (deeper.expression value).map (TypeText.member (keyName source key))
    | _, _ => none
  else if member.kind == "shorthand_property_identifier" then
    (deeper.reference member).map (TypeText.member (source.textOf member))
  else if member.kind == "method_definition" then
    match member.field? "name", deeper.function member with
    | some name, some type => some (TypeText.member (source.textOf name) type)
    | _, _ => none
  else none

def objectType (cursor : Cursor) : Option String :=
  (cursor.members.mapM (memberType source deeper)).map TypeText.object

def binaryType (cursor : Cursor) : Option String :=
  match (cursor.field? "operator").map source.textOf with
  | none => none
  | some symbol =>
    if comparisons.contains symbol then some "boolean"
    else if arithmetic.contains symbol then some "number"
    else if symbol == "+" then
      match cursor.field? "left", cursor.field? "right" with
      | some left, some right =>
        let left := deeper.expression left
        let right := deeper.expression right
        if left == some "string" || right == some "string" then some "string"
        else if left == some "number" && right == some "number" then some "number"
        else none
      | _, _ => none
    else none

def ternaryType (cursor : Cursor) : Option String :=
  match cursor.field? "consequence", cursor.field? "alternative" with
  | some consequence, some alternative =>
    match nonempty (deeper.expression consequence), nonempty (deeper.expression alternative) with
    | some left, some right => some (TypeText.union [left, right])
    | _, _ => none
  | _, _ => none

/-- The type that an assertion names. -/
def assertedType (cursor : Cursor) : Option String :=
  match cursor.members with
  | type :: _ =>
    if type.kind == "type_arguments" then
      some (String.ofList (Text.strip ((source.charsOf type).drop 1).dropLast))
    else none
  | [] => none

/-- The type of an expression that names the type after its operand. -/
def castType (cursor : Cursor) : Option String :=
  match cursor.kind == "as_expression", cursor.members with
  | true, [_, type] => some (source.textOf type)
  | _, operand :: _ => deeper.expression operand
  | _, [] => none

def constructedType (cursor : Cursor) : Option String :=
  (cursor.field? "constructor").map fun constructor =>
    source.textOf constructor ++ ((cursor.field? "type_arguments").map source.textOf).getD ""

/-- The type of an expression. -/
def expressionType (cursor : Cursor) : Option String :=
  match literalTypes.lookup cursor.kind with
  | some type => some type
  | none =>
    if cursor.isFunction then functionType source deeper cursor
    else
      match cursor.kind with
      | "identifier" => referenceType source deeper cursor
      | "parenthesized_expression" => cursor.members.head?.bind deeper.expression
      | "array" => arrayType deeper cursor
      | "object" => objectType source deeper cursor
      | "class" => (cursor.field? "name").map fun name => TypeText.typeofName (source.textOf name)
      | "new_expression" => constructedType source cursor
      | "as_expression" => castType source deeper cursor
      | "satisfies_expression" => castType source deeper cursor
      | "type_assertion" => assertedType source cursor
      | "call_expression" => (callee? source cursor).bind deeper.returned
      | "unary_expression" =>
        (cursor.field? "operator").bind fun operator => unaryTypes.lookup (source.textOf operator)
      | "update_expression" => some "number"
      | "binary_expression" => binaryType source deeper cursor
      | "ternary_expression" => ternaryType deeper cursor
      | "assignment_expression" => (cursor.field? "right").bind deeper.expression
      | "await_expression" =>
        (cursor.members.head?.bind deeper.expression).bind TypeText.awaited?
      | _ => none

/-- The type of the literal's member under a key. -/
def destructuredProperty (steps : Nat) (pattern : Cursor) (key : String) : Option String :=
  match literalBehind? source "object" steps (patternSource? pattern) with
  | none => none
  | some literal =>
    let matching := literal.members.find? fun member =>
      if member.kind == "pair" then
        (member.field? "value").isSome && (member.field? "key").any (keyName source · == key)
      else member.kind == "shorthand_property_identifier" && source.textOf member == key
    match matching with
    | none => none
    | some member =>
      if member.kind == "pair" then (member.field? "value").bind deeper.expression
      else deeper.reference member

/-- The type of the literal's element at the place that the binding has in the pattern. -/
def destructuredElement (steps : Nat) (pattern binding : Cursor) : Option String :=
  match literalBehind? source "array" steps (patternSource? pattern) with
  | none => none
  | some literal =>
    match pattern.members.findIdx? (·.start == binding.start) with
    | none => none
    | some index =>
      match literal.members[index]? with
      | some element =>
        if element.kind == "spread_element" then none else deeper.expression element
      | none => none

/-- The type of a binding with a default, which counts where the binding's own is not known. -/
def defaultedType (steps : Nat) (binding container : Cursor) : Option String :=
  let own :=
    if container.kind == "object_assignment_pattern" then
      container.parent?.bind fun pattern =>
        destructuredProperty source deeper steps pattern (source.textOf binding)
    else none
  match own, container.field? "right" with
  | some type, _ => some type
  | none, some value => deeper.expression value
  | none, none => some "any"

/-- The type written on a declaration, else that of its value. -/
def declaredType (cursor : Cursor) : Option String :=
  match writtenType? source cursor "type", cursor.field? "value" with
  | some written, _ => some written
  | none, some value => deeper.expression value
  | none, none => some "any"

def parameterType (parameter : Cursor) : Option String :=
  match writtenType? source parameter "type", parameter.field? "value" with
  | some written, _ => some written
  | none, some value => deeper.expression value
  | none, none =>
    if (parameter.field? "pattern").any (·.kind == "rest_pattern") then some "any[]"
    else some "any"

/-- The type of a binding, or of an expression that is none. -/
def bindingType (steps : Nat) (cursor : Cursor) : Option String :=
  match cursor.parent? with
  | none => expressionType source deeper cursor
  | some parent =>
    let isField := cursor.isFieldOf parent
    if parent.kind == "variable_declarator" && isField "name" then
      declaredType source deeper parent
    else if parent.isParameter && isField "pattern" then parameterType source deeper parent
    else if parent.kind == "assignment_pattern" && isField "left" then
      defaultedType source deeper steps cursor parent
    else if parent.kind == "formal_parameters" ||
        parent.kind == "arrow_function" && isField "parameter" then some "any"
    else if parent.isField && (isField "name" || isField "property") then
      declaredType source deeper parent
    else if parent.kind == "object_assignment_pattern" && isField "left" then
      defaultedType source deeper steps cursor parent
    else if cursor.kind == "shorthand_property_identifier_pattern" then
      destructuredProperty source deeper steps parent (source.textOf cursor)
    else if parent.kind == "pair_pattern" && isField "value" then
      match parent.field? "key", parent.parent? with
      | some key, some pattern =>
        destructuredProperty source deeper steps pattern (keyName source key)
      | _, _ => none
    else if parent.kind == "array_pattern" then
      destructuredElement source deeper steps parent cursor
    else if cursor.kind == "shorthand_property_identifier" then
      referenceType source deeper cursor
    else expressionType source deeper cursor

end Depth

/-- Nothing can be told. -/
def silent : Answers :=
  ⟨fun _ => none, fun _ => none, fun _ => none, fun _ => none, fun _ => none⟩

/-- What can be told with a number of steps left. Without any, only names that need no step. -/
def answers (source : Source) : (steps : Nat) → Answers
  | 0 => { silent with reference := referenceType source silent }
  | steps + 1 =>
    let deeper := answers source steps
    { typeOf := bindingType source deeper (steps + 1)
      expression := expressionType source deeper
      function := functionType source deeper
      returned := returnType source deeper
      reference := referenceType source deeper }

/-- The greatest depth at which a question is still answered. -/
def maxDepth : Nat := 8

/-- What can be told at a depth. -/
def atDepth (source : Source) (depth : Nat) : Answers := answers source (maxDepth + 1 - depth)

/-- The name that a parameter shows. One that collects the rest is marked with dots. -/
def shownName? (source : Source) (parameter : Cursor) : Option String :=
  let binding := parameter.binding
  if binding.kind == "rest_pattern" then
    match binding.members.head?.filter (·.kind == "identifier") with
    | some inner => some ("..." ++ source.textOf inner)
    | none => none
  else if binding.kind == "identifier" then some (source.textOf binding)
  else none

/-- An argument was counted from the end, to before the first parameter. -/
structure OutOfRange where
  deriving DecidableEq, Repr

/-- The name of the parameter that takes an argument of the call. A negative index counts from the
end. -/
def parameterName (source : Source) (call : Cursor) (index : Int) :
    Except OutOfRange (Option String) :=
  match callee? source call with
  | none => .ok none
  | some function =>
    let place := if index < 0 then index + function.parameters.length else index
    if place < 0 then .error ⟨⟩
    else .ok (function.parameters[place.toNat]?.bind (shownName? source))

end Inlay.Infer
