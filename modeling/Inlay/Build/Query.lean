import Inlay.Infer.Local

/-!
Questions about a source file, and oracles that answer them.
-/

namespace Inlay

open Inlay.Tree

inductive QueryKind
  | type
  | returnType
  | parameterName
  deriving DecidableEq, Repr

/-- A question about the node that covers a range of bytes. The anchor is the position at which a
language server is asked, and `argument` counts the argument of a call, from the end if it is
negative. -/
structure Query where
  kind : QueryKind
  start : Nat
  stop : Nat
  anchor : Position
  name : String
  argument : Option Int
  deriving DecidableEq, Repr

/-- Answers questions about a file. An oracle that fails gives no answer. -/
abbrev Oracle := Source → Query → Option String

namespace Infer

/-- What the file alone says about a question, whose node is looked for by its range. -/
def answerBy (search : Search) (source : Source) (query : Query) :
    Except OutOfRange (Option String) :=
  match search source.root query.start query.stop with
  | none => .ok none
  | some cursor =>
    match query.kind with
    | .returnType => .ok ((cursor.outward.find? (·.isFunction)).bind (atDepth source 0).returned)
    | .parameterName => parameterName source cursor (query.argument.getD 0)
    | .type => .ok ((atDepth source 0).typeOf cursor)

def answer (source : Source) (query : Query) : Except OutOfRange (Option String) :=
  answerBy covering? source query

/-- The oracle that looks at the file alone. -/
def oracle : Oracle := fun source query => (answer source query).toOption.join

end Infer

end Inlay
