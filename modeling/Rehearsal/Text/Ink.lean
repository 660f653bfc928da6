/-!
Coloured text on a terminal.

Text in ink begins with a code for the ink and ends with one that turns every ink off. Where
such an end stands inside the text, the ink is turned on again behind it.
-/

namespace Rehearsal.Text

inductive Ink where
  | red
  | green
  | yellow
  | cyan
  | dimmed
  | boldBlue
  | boldWhite
  deriving DecidableEq, Repr

def Ink.number : Ink → String
  | .red => "31"
  | .green => "32"
  | .yellow => "33"
  | .cyan => "36"
  | .dimmed => "2"
  | .boldBlue => "1;34"
  | .boldWhite => "1;37"

def Ink.code (ink : Ink) : String :=
  "\x1b[" ++ ink.number ++ "m"

def Ink.off : String := "\x1b[0m"

/-- Puts a code behind every end of an ink. -/
def resume (code : List Char) : List Char → List Char
  | '\x1b' :: '[' :: '0' :: 'm' :: rest => '\x1b' :: '[' :: '0' :: 'm' :: (code ++ resume code rest)
  | c :: rest => c :: resume code rest
  | [] => []

abbrev Palette := Bool

def Palette.paint (shown : Palette) (ink : Ink) (text : String) : String :=
  if shown then
    ink.code ++ String.ofList (resume ink.code.toList text.toList) ++ Ink.off
  else text

end Rehearsal.Text
