import Inlay.Language
import Inlay.Position.Offset
import Inlay.Text.Blank
import Inlay.Tree.Cursor

/-!
A parsed source file: its text, its language and its tree.

Nodes give their extent in bytes, and positions are found with a table of the bytes at which lines
start.
-/

namespace Inlay

open Inlay.Text Inlay.Tree

/-- Gives the tree of a text. -/
abbrev Parser := Language → String → Option Node

structure Source where
  path : String
  text : String
  language : Language
  root : Node
  version : Nat

/-- Where lines after the first start, counted on from `offset`. -/
def laterLineStarts (offset : Nat) : List Char → List Nat
  | [] => []
  | '\r' :: '\n' :: rest => (offset + 2) :: laterLineStarts (offset + 2) rest
  | c :: rest =>
    let next := offset + c.utf8Size
    if isBreak c then next :: laterLineStarts next rest else laterLineStarts next rest

/-- The bytes at which lines start. -/
def lineStarts (text : List Char) : List Nat := 0 :: laterLineStarts 0 text

/-- The position of a byte, and of the end for bytes beyond the text. -/
def positionOfByte (text : List Char) (offset : Nat) : Position :=
  let offset := min offset (bytes text)
  let starts := (lineStarts text).takeWhile (· ≤ offset)
  let column := dropEndWhile (· == '\r') (slice (starts.getLastD 0) offset text)
  ⟨starts.length - 1, units column⟩

namespace Source

def top (source : Source) : Cursor := .top source.root

def hasErrors (source : Source) : Bool := source.root.label.hasError

def positionOf (source : Source) (offset : Nat) : Position :=
  positionOfByte source.text.toList offset

def startOf (source : Source) (cursor : Cursor) : Position := source.positionOf cursor.start

def stopOf (source : Source) (cursor : Cursor) : Position := source.positionOf cursor.stop

/-- The text that a node covers. -/
def charsOf (source : Source) (cursor : Cursor) : List Char :=
  slice cursor.start cursor.stop source.text.toList

def textOf (source : Source) (cursor : Cursor) : String := String.ofList (source.charsOf cursor)

def nodeAt? (source : Source) (start stop : Nat) : Option Cursor :=
  covering? source.root start stop

end Source

end Inlay
