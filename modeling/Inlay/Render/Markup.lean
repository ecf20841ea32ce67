/-!
Console markup, in which a word in square brackets gives a style and a backslash in front of the
bracket takes it as text.
-/

namespace Inlay.Render

/-- Whether a style closes before another bracket opens. -/
def closes : List Char → Bool
  | [] => false
  | c :: rest => if c = ']' then true else if c = '[' then false else closes rest

/-- Whether what follows an opening bracket makes it a style. -/
def startsStyle : List Char → Bool
  | [] => false
  | c :: rest => ('a' ≤ c && c ≤ 'z' || c == '#' || c == '/' || c == '@') && closes rest

def backslashes (n : Nat) : List Char := List.replicate n '\\'

/-- Escapes a text. `slashes` counts the backslashes just read, and `inStyle` tells that the text
goes on inside brackets. -/
def escapeFrom (slashes : Nat) (inStyle : Bool) : List Char → List Char
  | [] => backslashes slashes
  | c :: rest =>
    if inStyle then c :: escapeFrom 0 (c != ']') rest
    else if c = '\\' then escapeFrom (slashes + 1) false rest
    else if c = '[' ∧ startsStyle rest then
      backslashes (2 * slashes + 1) ++ c :: escapeFrom 0 true rest
    else backslashes slashes ++ c :: escapeFrom 0 false rest

/-- Doubles a single backslash at the end, so that it does not touch what follows. -/
def guardEnd (text : List Char) : List Char :=
  match text.reverse with
  | '\\' :: '\\' :: _ => text
  | '\\' :: _ => text ++ ['\\']
  | _ => text

/-- What is seen of a text whose escaped form is shown: a backslash in front of a bracket that
makes no style is lost. The arguments are those of `escapeFrom`. -/
def seenFrom (slashes : Nat) (inStyle : Bool) : List Char → List Char
  | [] => backslashes slashes
  | c :: rest =>
    if inStyle then c :: seenFrom 0 (c != ']') rest
    else if c = '\\' then seenFrom (slashes + 1) false rest
    else if c = '[' then
      let style := startsStyle rest
      backslashes (if style then slashes else slashes - 1) ++ c :: seenFrom 0 style rest
    else backslashes slashes ++ c :: seenFrom 0 false rest

/-- The markup that shows a text as it is. -/
def escapeMarkup (text : List Char) : List Char := guardEnd (escapeFrom 0 false text)

/-- What is seen of a text that is shown in its escaped form. -/
def seen (text : List Char) : List Char := guardEnd (seenFrom 0 false text)

end Inlay.Render
