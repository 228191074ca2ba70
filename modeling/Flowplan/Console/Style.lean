import Flowplan.Text.Basic
import Flowplan.Unicode.Case

namespace Flowplan.Console

open Unicode (lower isBlank)

/-- The attributes of a style in the order in which they are written. -/
def attributes : List String :=
  ["bold", "dim", "italic", "underline", "blink", "blink2", "reverse", "conceal", "strike",
    "underline2", "frame", "encircle", "overline"]

def shortAttributes : List (String × String) :=
  [("d", "dim"), ("b", "bold"), ("i", "italic"), ("u", "underline"), ("r", "reverse"),
    ("c", "conceal"), ("s", "strike"), ("uu", "underline2"), ("o", "overline")]

def attribute? (word : String) : Option String :=
  if attributes.contains word then some word else shortAttributes.lookup word

def colourNames : List (List String) := [
  ["black", "red", "green", "yellow", "blue", "magenta", "cyan", "white", "bright_black",
    "bright_red", "bright_green", "bright_yellow", "bright_blue", "bright_magenta", "bright_cyan",
    "bright_white", "grey0", "gray0", "navy_blue", "dark_blue", "blue3", "blue1", "dark_green",
    "deep_sky_blue4", "dodger_blue3", "dodger_blue2", "green4", "spring_green4", "turquoise4",
    "deep_sky_blue3", "dodger_blue1", "green3", "spring_green3", "dark_cyan", "light_sea_green",
    "deep_sky_blue2", "deep_sky_blue1", "spring_green2", "cyan3", "dark_turquoise"],
  ["turquoise2", "green1", "spring_green1", "medium_spring_green", "cyan2", "cyan1", "dark_red",
    "deep_pink4", "purple4", "purple3", "blue_violet", "orange4", "grey37", "gray37",
    "medium_purple4", "slate_blue3", "royal_blue1", "chartreuse4", "dark_sea_green4",
    "pale_turquoise4", "steel_blue", "steel_blue3", "cornflower_blue", "chartreuse3",
    "cadet_blue", "sky_blue3", "steel_blue1", "pale_green3", "sea_green3", "aquamarine3",
    "medium_turquoise", "chartreuse2", "sea_green2", "sea_green1", "aquamarine1",
    "dark_slate_gray2", "dark_magenta", "dark_violet", "purple", "light_pink4"],
  ["plum4", "medium_purple3", "slate_blue1", "yellow4", "wheat4", "grey53", "gray53",
    "light_slate_grey", "light_slate_gray", "medium_purple", "light_slate_blue",
    "dark_olive_green3", "dark_sea_green", "light_sky_blue3", "sky_blue2", "dark_sea_green3",
    "dark_slate_gray3", "sky_blue1", "chartreuse1", "light_green", "pale_green1",
    "dark_slate_gray1", "red3", "medium_violet_red", "magenta3", "dark_orange3", "indian_red",
    "hot_pink3", "medium_orchid3", "medium_orchid", "medium_purple2", "dark_goldenrod",
    "light_salmon3", "rosy_brown", "grey63", "gray63", "medium_purple1", "gold3", "dark_khaki",
    "navajo_white3"],
  ["grey69", "gray69", "light_steel_blue3", "light_steel_blue", "yellow3", "dark_sea_green2",
    "light_cyan3", "light_sky_blue1", "green_yellow", "dark_olive_green2", "dark_sea_green1",
    "pale_turquoise1", "deep_pink3", "magenta2", "hot_pink2", "orchid", "medium_orchid1",
    "orange3", "light_pink3", "pink3", "plum3", "violet", "light_goldenrod3", "tan",
    "misty_rose3", "thistle3", "plum2", "khaki3", "light_goldenrod2", "light_yellow3", "grey84",
    "gray84", "light_steel_blue1", "yellow2", "dark_olive_green1", "honeydew2", "light_cyan1",
    "red1", "deep_pink2", "deep_pink1"],
  ["magenta1", "orange_red1", "indian_red1", "hot_pink", "dark_orange", "salmon1", "light_coral",
    "pale_violet_red1", "orchid2", "orchid1", "orange1", "sandy_brown", "light_salmon1",
    "light_pink1", "pink1", "plum1", "gold1", "navajo_white1", "misty_rose1", "thistle1",
    "yellow1", "light_goldenrod1", "khaki1", "wheat1", "cornsilk1", "grey100", "gray100", "grey3",
    "gray3", "grey7", "gray7", "grey11", "gray11", "grey15", "gray15", "grey19", "gray19",
    "grey23", "gray23", "grey27"],
  ["gray27", "grey30", "gray30", "grey35", "gray35", "grey39", "gray39", "grey42", "gray42",
    "grey46", "gray46", "grey50", "gray50", "grey54", "gray54", "grey58", "gray58", "grey62",
    "gray62", "grey66", "gray66", "grey70", "gray70", "grey74", "gray74", "grey78", "gray78",
    "grey82", "gray82", "grey85", "gray85", "grey89", "gray89", "grey93", "gray93"]]

def isHexColour (cs : List Char) : Bool :=
  match cs with
  | '#' :: rest => rest.length == 6 && rest.all fun c => c.isDigit || ('a' ≤ c && c ≤ 'f')
  | _ => false

def isByte (cs : List Char) : Bool :=
  !cs.isEmpty && cs.all Char.isDigit && cs.foldl (fun n c => n * 10 + (c.toNat - 48)) 0 ≤ 255

/-- What stands between the parentheses after a word. -/
def argument? (word : String) (cs : List Char) : Option (List Char) :=
  let opening := word.toList ++ ['(']
  if opening.isPrefixOf cs && cs.getLast? == some ')' then
    some ((cs.drop opening.length).dropLast)
  else none

def isColour (word : String) : Bool :=
  let cs := word.toList
  word == "default" || colourNames.any (·.contains word) || isHexColour cs ||
  (argument? "color" cs).any (fun n => n.length ≤ 3 && isByte n) ||
  (argument? "rgb" cs).any fun ns =>
    let parts := Text.pieces ',' ns
    parts.length == 3 && parts.all isByte

/-- What a style sets. -/
structure Style where
  switches : List (String × Bool) := []
  colour : Option String := none
  background : Option String := none
  link : Option String := none
deriving DecidableEq, Repr

namespace Style

def ofWords? (s : Style) : List String → Option Style
  | [] => some s
  | word :: rest =>
    match lower word, rest with
    | "on", colour :: rest =>
      if isColour (lower colour) then ofWords? { s with background := some (lower colour) } rest
      else none
    | "on", [] => none
    | "not", name :: rest => match attribute? name with
      | some a => ofWords? { s with switches := (a, false) :: s.switches } rest
      | none => none
    | "not", [] => none
    | "link", target :: rest => ofWords? { s with link := some target } rest
    | "link", [] => none
    | word, rest => match attribute? word with
      | some a => ofWords? { s with switches := (a, true) :: s.switches } rest
      | none => if isColour word then ofWords? { s with colour := some word } rest else none

def switchText (s : Style) (a : String) : Option String :=
  (s.switches.lookup a).map fun on => if on then a else "not " ++ a

def text (s : Style) : String :=
  let parts := attributes.filterMap s.switchText ++ s.colour.toList ++
    (s.background.map ("on " ++ ·)).toList ++ (s.link.map ("link " ++ ·)).toList
  if parts.isEmpty then "none" else String.intercalate " " parts

/-- One spelling for all descriptions of a style; what describes none stands for itself. -/
def normalized (description : String) : String :=
  let words := ((Text.pieces ' ' (description.toList.map fun c =>
    if isBlank c then ' ' else c)).filter (!·.isEmpty)).map String.ofList
  if Text.trim description == "none" then "none"
  else match ofWords? {} words with
    | some s => s.text
    | none => lower (Text.trim description)

end Style
end Flowplan.Console
