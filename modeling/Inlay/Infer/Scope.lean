import Inlay.Tree.Function
import Inlay.Tree.Source

/-!
Which declaration a name refers to.

The scopes around a reference are searched outward. A function binds its plainly named
parameters. A block binds the variables, functions and classes that its own statements declare,
exported ones included. A name is never resolved to the place where it stands itself.
-/

namespace Inlay.Infer

open Inlay.Tree

def blockKinds : List String := ["program", "statement_block", "class_body", "switch_body"]

def variableKinds : List String := ["lexical_declaration", "variable_declaration"]

def namedDeclarationKinds : List String :=
  ["function_declaration", "generator_function_declaration", "class_declaration"]

def isClass (cursor : Cursor) : Bool :=
  cursor.kind == "class_declaration" || cursor.kind == "class"

/-- Whether the node is an identifier with this text. -/
def isIdentifier (source : Source) (name : String) (cursor : Cursor) : Bool :=
  cursor.kind == "identifier" && source.textOf cursor == name

/-- The parameter of a function with this name. -/
def parameterNamed? (source : Source) (function : Cursor) (name : String) : Option Cursor :=
  (function.parameters.map Cursor.binding).find? (isIdentifier source name)

/-- The statement itself, or the declaration that it exports. -/
def exported? (statement : Cursor) : Option Cursor :=
  if statement.kind == "export_statement" then statement.field? "declaration"
  else some statement

/-- What a statement declares under this name: the identifier of a variable, or the whole
declaration of a function or class. -/
def declaredBy? (source : Source) (name : String) (statement : Cursor) : Option Cursor :=
  if variableKinds.contains statement.kind then
    let declarators := statement.members.filter (·.kind == "variable_declarator")
    (declarators.filterMap (·.field? "name")).find? (isIdentifier source name)
  else if namedDeclarationKinds.contains statement.kind then
    if (statement.field? "name").any (source.textOf · == name) then some statement else none
  else none

/-- The first declaration of the name by a statement of the block. -/
def declaredIn? (source : Source) (block : Cursor) (name : String) : Option Cursor :=
  (block.members.filterMap exported?).findSome? (declaredBy? source name)

/-- What one scope around the reference binds to the name. -/
def boundBy? (source : Source) (name : String) (reference scope : Cursor) : Option Cursor :=
  let parameter := if scope.isFunction then parameterNamed? source scope name else none
  let declared :=
    if blockKinds.contains scope.kind then
      (declaredIn? source scope name).filter (·.start != reference.start)
    else none
  parameter.or declared

/-- The declaration that a reference means: the identifier of a variable or parameter, or the
declaration of a function or class. -/
def resolve? (source : Source) (reference : Cursor) : Option Cursor :=
  reference.ancestors.findSome? (boundBy? source (source.textOf reference) reference)

/-- The constructor that a class body declares. -/
def constructorOf? (source : Source) (cls : Cursor) : Option Cursor :=
  (cls.field? "body").bind fun body =>
    body.members.find? fun member =>
      member.kind == "method_definition" &&
        (member.field? "name").any (source.textOf · == "constructor")

/-- The call or construction that a node is part of, the root if there is none. -/
def enclosingCall (cursor : Cursor) : Cursor :=
  let isCall := fun (c : Cursor) => c.kind == "call_expression" || c.kind == "new_expression"
  (cursor.outward.find? isCall).getD (cursor.outward.getLastD cursor)

/-- The function that a variable's declaration holds. -/
def heldFunction? (declaration : Cursor) : Option Cursor :=
  match declaration.parent? with
  | some parent =>
    if parent.kind == "variable_declarator" then (parent.field? "value").filter (·.isFunction)
    else none
  | none => none

/-- The function or constructor of this file that a call runs. -/
def callee? (source : Source) (cursor : Cursor) : Option Cursor :=
  let call := enclosingCall cursor
  let target := (call.field? "function").or (call.field? "constructor")
  match (target.filter (·.kind == "identifier")).bind (resolve? source) with
  | none => none
  | some declaration =>
    if declaration.isFunction then
      if call.kind == "call_expression" then some declaration else none
    else if isClass declaration then
      if call.kind == "new_expression" then constructorOf? source declaration else none
    else heldFunction? declaration

end Inlay.Infer
