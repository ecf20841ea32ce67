/-!
Cutting a text at a character or at a piece of text.
-/

namespace Inlay.Text

/-- The pieces between the separators. There is one more piece than there are separators. -/
def splitAt (separator : Char) : List Char → List (List Char)
  | [] => [[]]
  | c :: rest =>
    if c = separator then [] :: splitAt separator rest
    else
      match splitAt separator rest with
      | piece :: later => (c :: piece) :: later
      | [] => [[c]]

/-- What follows the given start, if the text has it. -/
def after? : List Char → List Char → Option (List Char)
  | [], text => some text
  | _ :: _, [] => none
  | p :: start, c :: text => if p = c then after? start text else none

/-- The text before and after the first place where the mark occurs. -/
def cutAt? (mark : List Char) : List Char → Option (List Char × List Char)
  | [] => (after? mark []).map (([], ·))
  | c :: rest =>
    match after? mark (c :: rest) with
    | some tail => some ([], tail)
    | none => (cutAt? mark rest).map fun (head, tail) => (c :: head, tail)

/-- Whether the mark occurs anywhere in the text. -/
def occursIn (mark text : List Char) : Bool := (cutAt? mark text).isSome

/-- The characters with each `old` replaced. -/
def replaceChar (old new : Char) (text : List Char) : List Char :=
  text.map fun c => if c = old then new else c

end Inlay.Text
