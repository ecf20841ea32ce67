import Inlay.Number.Whole
import Inlay.Text.Lowercase
import Inlay.Text.Split

/-!
Colours of labels.

A colour is `default`, a known name, `#` and six hexadecimal digits, `color(N)`, or `rgb(R,G,B)`.
Case and blanks around it do not matter.
-/

namespace Inlay.Colour

open Inlay.Text

def names : List String :=
  ["aquamarine1", "aquamarine3", "black", "blue", "blue1", "blue3", "blue_violet", "bright_black",
   "bright_blue", "bright_cyan", "bright_green", "bright_magenta", "bright_red", "bright_white",
   "bright_yellow", "cadet_blue", "chartreuse1", "chartreuse2", "chartreuse3", "chartreuse4",
   "cornflower_blue", "cornsilk1", "cyan", "cyan1", "cyan2", "cyan3", "dark_blue", "dark_cyan",
   "dark_goldenrod", "dark_green", "dark_khaki", "dark_magenta", "dark_olive_green1",
   "dark_olive_green2", "dark_olive_green3", "dark_orange", "dark_orange3", "dark_red",
   "dark_sea_green", "dark_sea_green1", "dark_sea_green2", "dark_sea_green3", "dark_sea_green4",
   "dark_slate_gray1", "dark_slate_gray2", "dark_slate_gray3", "dark_turquoise", "dark_violet",
   "deep_pink1", "deep_pink2", "deep_pink3", "deep_pink4", "deep_sky_blue1", "deep_sky_blue2",
   "deep_sky_blue3", "deep_sky_blue4", "dodger_blue1", "dodger_blue2", "dodger_blue3", "gold1",
   "gold3", "gray0", "gray100", "gray11", "gray15", "gray19", "gray23", "gray27", "gray3",
   "gray30", "gray35", "gray37", "gray39", "gray42", "gray46", "gray50", "gray53", "gray54",
   "gray58", "gray62", "gray63", "gray66", "gray69", "gray7", "gray70", "gray74", "gray78",
   "gray82", "gray84", "gray85", "gray89", "gray93", "green", "green1", "green3", "green4",
   "green_yellow", "grey0", "grey100", "grey11", "grey15", "grey19", "grey23", "grey27", "grey3",
   "grey30", "grey35", "grey37", "grey39", "grey42", "grey46", "grey50", "grey53", "grey54",
   "grey58", "grey62", "grey63", "grey66", "grey69", "grey7", "grey70", "grey74", "grey78",
   "grey82", "grey84", "grey85", "grey89", "grey93", "honeydew2", "hot_pink", "hot_pink2",
   "hot_pink3", "indian_red", "indian_red1", "khaki1", "khaki3", "light_coral", "light_cyan1",
   "light_cyan3", "light_goldenrod1", "light_goldenrod2", "light_goldenrod3", "light_green",
   "light_pink1", "light_pink3", "light_pink4", "light_salmon1", "light_salmon3",
   "light_sea_green", "light_sky_blue1", "light_sky_blue3", "light_slate_blue",
   "light_slate_gray", "light_slate_grey", "light_steel_blue", "light_steel_blue1",
   "light_steel_blue3", "light_yellow3", "magenta", "magenta1", "magenta2", "magenta3",
   "medium_orchid", "medium_orchid1", "medium_orchid3", "medium_purple", "medium_purple1",
   "medium_purple2", "medium_purple3", "medium_purple4", "medium_spring_green",
   "medium_turquoise", "medium_violet_red", "misty_rose1", "misty_rose3", "navajo_white1",
   "navajo_white3", "navy_blue", "orange1", "orange3", "orange4", "orange_red1", "orchid",
   "orchid1", "orchid2", "pale_green1", "pale_green3", "pale_turquoise1", "pale_turquoise4",
   "pale_violet_red1", "pink1", "pink3", "plum1", "plum2", "plum3", "plum4", "purple", "purple3",
   "purple4", "red", "red1", "red3", "rosy_brown", "royal_blue1", "salmon1", "sandy_brown",
   "sea_green1", "sea_green2", "sea_green3", "sky_blue1", "sky_blue2", "sky_blue3", "slate_blue1",
   "slate_blue3", "spring_green1", "spring_green2", "spring_green3", "spring_green4",
   "steel_blue", "steel_blue1", "steel_blue3", "tan", "thistle1", "thistle3", "turquoise2",
   "turquoise4", "violet", "wheat1", "wheat4", "white", "yellow", "yellow1", "yellow2", "yellow3",
   "yellow4"]

/-- Why a text is no colour. -/
inductive Error
  | unknown (given : String)
  | numberTooLarge (colour : String)
  | notThreeComponents (given : String)
  | unreadableComponent (cause : Whole.Error)
  | componentTooLarge (given : String)
  deriving DecidableEq, Repr

def Error.message : Error → String
  | .unknown given => quoted given ++ " is not a valid color"
  | .numberTooLarge colour => "color number must be <= 255 in " ++ quoted colour
  | .notThreeComponents given => "expected three components in " ++ quoted given
  | .unreadableComponent cause => cause.message
  | .componentTooLarge given => "color components must be <= 255 in " ++ quoted given

/-- The form in which a colour is compared and shown. -/
def canonical (given : String) : String := String.ofList (strip (lower given.toList))

def isHexDigit (c : Char) : Bool := '0' ≤ c && c ≤ '9' || 'a' ≤ c && c ≤ 'f'

/-- What stands between the given opening and a closing parenthesis at the end. -/
def argument? (opening : String) (colour : List Char) : Option (List Char) :=
  match after? opening.toList colour with
  | none => none
  | some rest =>
    match rest.reverse with
    | ')' :: inner => some inner.reverse
    | _ => none

/-- The number of `color(N)`: one to three digits. -/
def number? (colour : List Char) : Option Nat :=
  match argument? "color(" colour with
  | none => none
  | some digits =>
    if digits.length ≤ 3 then plainNumber? digits else none

/-- The components of `rgb(...)`: digits and blanks between commas. -/
def components? (colour : List Char) : Option (List (List Char)) :=
  match argument? "rgb(" colour with
  | none => none
  | some inner =>
    if !inner.isEmpty && inner.all (fun c => (digit? c).isSome || isBlank c || c == ',') then
      some (splitAt ',' inner)
    else none

/-- The components as numbers, in order. -/
def readComponents : List (List Char) → Except Error (List Int)
  | [] => .ok []
  | component :: rest =>
    match Whole.read component with
    | .error cause => .error (.unreadableComponent cause)
    | .ok n => (readComponents rest).map (n :: ·)

def isHexColour : List Char → Bool
  | '#' :: digits => digits.length == 6 && digits.all isHexDigit
  | _ => false

/-- Accepts a colour. -/
def check (given : String) : Except Error Unit :=
  let colour := strip (lower given.toList)
  if String.ofList colour ∈ "default" :: names || isHexColour colour then .ok ()
  else
    match number? colour, components? colour with
    | some n, _ => if n ≤ 255 then .ok () else .error (.numberTooLarge (canonical given))
    | none, some components =>
      if components.length ≠ 3 then .error (.notThreeComponents given)
      else
        match readComponents components with
        | .error e => .error e
        | .ok numbers =>
          if numbers.all (· ≤ 255) then .ok () else .error (.componentTooLarge given)
    | none, none => .error (.unknown given)

end Inlay.Colour
