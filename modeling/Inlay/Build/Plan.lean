import Inlay.Build.Query
import Inlay.Hint
import Inlay.Settings.Features

/-!
What is asked about a source file.

The tree is walked once. Every construct whose feature is on gives a site: the questions asked
about it, in order, each with the range that its label belongs to. Which questions are asked
depends on the file and the features alone, never on earlier answers.
-/

namespace Inlay

open Inlay.Tree

/-- How an answer becomes a label. -/
inductive Shape
  /-- Written behind its target after a colon. -/
  | colon
  /-- Written in front of its target in angle brackets. -/
  | cast
  /-- The type of a bare arrow parameter, which puts parentheses around it. -/
  | wrapped
  /-- The type that a function returns. A bare parameter needs parentheses first. -/
  | returned (bare : Bool)
  /-- The name of a parameter in front of an argument, left out if the argument reads the same. -/
  | argument (reading : Option String)
  deriving DecidableEq, Repr

/-- A question, and where and how its answer is shown. -/
structure Ask where
  query : Query
  start : Position
  stop : Position
  shape : Shape
  deriving DecidableEq, Repr

/-- The questions about one construct. -/
abbrev Site := List Ask

namespace Plan

section

variable (source : Source) (features : Features)

/-- Asks for the type of a node. -/
def askType (shape : Shape) (target : Cursor) : Ask where
  query :=
    { kind := .type
      start := target.start
      stop := target.stop
      anchor := source.startOf target
      name := source.textOf target
      argument := none }
  start := source.startOf target
  stop := source.stopOf target
  shape := shape

def variableSite (declarator : Cursor) : Site :=
  match declarator.field? "name" with
  | none => []
  | some name =>
    if name.kind != "identifier" || (declarator.field? "type").isSome then []
    else
      let holdsFunction := (declarator.field? "value").any (·.isFunctionValue)
      let feature := if holdsFunction then .functionVariableType else .variableType
      if features.enabled feature then [askType source .colon name] else []

/-- Parameters without a written type that are named by an identifier or collect the rest. -/
def parameterAsks (function : Cursor) : Site :=
  if features.enabled .functionParameterType then
    let shape := if (function.field? "parameter").isSome then Shape.wrapped else .colon
    let untyped := function.parameters.filter fun parameter => (parameter.field? "type").isNone
    let bindings := (untyped.map Cursor.binding).filter fun binding =>
      binding.kind == "identifier" || binding.kind == "rest_pattern"
    bindings.map (askType source shape)
  else []

/-- Whether a function can show what it returns: it has no written return type and is neither a
constructor nor a setter nor a generator. -/
def showsReturn (function : Cursor) : Bool :=
  (function.field? "return_type").isNone &&
    !(function.field? "name").any (source.textOf · == "constructor") &&
    !function.hasToken "set" && !function.hasToken "*" && !function.isGeneratorKind

def returnAsk (function : Cursor) : Site :=
  let bare := function.field? "parameter"
  match bare.or (function.field? "parameters") with
  | none => []
  | some parameters =>
    if features.enabled .functionReturnType && showsReturn source function then
      let reachable := function.reachableName?
      [{ query :=
           { kind := .returnType
             start := function.start
             stop := function.stop
             anchor := source.startOf (reachable.getD parameters)
             name := (reachable.map source.textOf).getD ""
             argument := none }
         start := source.startOf parameters
         stop := source.stopOf parameters
         shape := .returned bare.isSome }]
    else []

def functionSite (function : Cursor) : Site :=
  parameterAsks source features function ++ returnAsk source features function

def propertySite (field : Cursor) : Site :=
  match field.fieldName? with
  | none => []
  | some name =>
    if features.enabled .propertyType && (field.field? "type").isNone &&
        name.kind != "computed_property_name" then
      [askType source .colon name]
    else []

/-- The identifier that a member of an object pattern binds. -/
def objectPatternBinding? (member : Cursor) : Option Cursor :=
  if member.kind == "shorthand_property_identifier_pattern" then some member
  else if member.kind == "pair_pattern" then
    (member.field? "value").filter (·.kind == "identifier")
  else if member.kind == "object_assignment_pattern" then
    (member.field? "left").filter fun left =>
      left.kind == "shorthand_property_identifier_pattern" || left.kind == "identifier"
  else none

def objectPatternSite (pattern : Cursor) : Site :=
  if features.enabled .objectPatternType then
    (pattern.members.filterMap objectPatternBinding?).map (askType source .colon)
  else []

/-- The identifier that a member of an array pattern binds. -/
def arrayPatternBinding? (member : Cursor) : Option Cursor :=
  let binding := if member.kind == "assignment_pattern" then member.field? "left" else some member
  binding.filter (·.kind == "identifier")

def arrayPatternSite (pattern : Cursor) : Site :=
  if features.enabled .arrayPatternType then
    (pattern.members.filterMap arrayPatternBinding?).map (askType source .colon)
  else []

def objectMemberAsk? (member : Cursor) : Option Ask :=
  if member.kind == "pair" then
    ((member.field? "value").filter (!·.isFunctionValue)).map (askType source .cast)
  else if member.kind == "shorthand_property_identifier" then
    some (askType source .colon member)
  else none

def objectLiteralSite (literal : Cursor) : Site :=
  if features.enabled .objectLiteralType then
    literal.members.filterMap (objectMemberAsk? source)
  else []

/-- Asks for the name of the parameter that takes an argument. -/
def askArgument (call argument : Cursor) (index : Nat) : Ask where
  query :=
    { kind := .parameterName
      start := call.start
      stop := call.stop
      anchor := source.startOf argument
      name := ""
      argument := some (index : Int) }
  start := source.startOf argument
  stop := source.stopOf argument
  shape := .argument (if argument.kind == "identifier" then some (source.textOf argument) else none)

/-- Arguments up to the first spread one. -/
def callSite (call : Cursor) : Site :=
  match (call.field? "arguments").filter (·.kind == "arguments") with
  | none => []
  | some arguments =>
    if features.enabled .parameterName then
      let counted := arguments.members.takeWhile (·.kind != "spread_element")
      counted.zipIdx.map fun (argument, index) => askArgument source call argument index
    else []

/-- What is asked about one node. -/
def site (cursor : Cursor) : Site :=
  if !cursor.isNamed then []
  else if cursor.kind == "variable_declarator" then variableSite source features cursor
  else if cursor.isFunction then functionSite source features cursor
  else if cursor.isField then propertySite source features cursor
  else if cursor.kind == "object_pattern" then objectPatternSite source features cursor
  else if cursor.kind == "array_pattern" then arrayPatternSite source features cursor
  else if cursor.kind == "object" then objectLiteralSite source features cursor
  else if cursor.kind == "call_expression" || cursor.kind == "new_expression" then
    callSite source features cursor
  else []

end

/-- The sites of a file in the order of the walk. -/
def sites (source : Source) (features : Features) : List Site :=
  source.top.walk.map (site source features)

/-- All questions about a file, in order. -/
def queries (source : Source) (features : Features) : List Query :=
  (sites source features).flatten.map (·.query)

end Plan

end Inlay
