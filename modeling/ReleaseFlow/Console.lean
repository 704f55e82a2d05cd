import ReleaseFlow.Labels
import ReleaseFlow.Warning

/-!
# Lines for the console

The lines that tell a user what goes on, plain or with colors.

* `Palette`, `paint`: text with or without color;
* `successLine`, `statusLine`, `warningLine`: one line each;
* `decisionLines`: a proposed version change.
-/

namespace ReleaseFlow.Console

/-- Whether text is colored. -/
inductive Palette where
  | plain
  | colored
  deriving DecidableEq, Repr

/-- The ways in which text is set off. -/
inductive Ink where
  | bold
  | red
  | green
  | yellow
  deriving DecidableEq, Repr

/-- The number by which a terminal knows the ink. -/
def Ink.code : Ink → String
  | bold => "1"
  | red => "31"
  | green => "32"
  | yellow => "33"

/-- The text in the given ink, if the palette has colors. -/
def paint (palette : Palette) (ink : Ink) (text : String) : String :=
  match palette with
  | .plain => text
  | .colored => "\x1b[" ++ ink.code ++ "m" ++ text ++ "\x1b[0m"

def successLine (palette : Palette) (message : String) : String :=
  paint palette .green "✓" ++ " " ++ message ++ "\n"

def statusLine (palette : Palette) (message : String) : String :=
  paint palette .yellow "→" ++ " " ++ message ++ "\n"

def warningLine (palette : Palette) (warning : Warning) : String :=
  paint palette .yellow "⚠ WARNING:" ++ " " ++ warning.text ++ "\n"

/-- The lines that report a proposed version change. -/
def decisionLines (palette : Palette) (d : Decision) : String :=
  "\n" ++ paint palette .bold "Proposed Version Change:" ++ "\n" ++
    "  From: " ++ paint palette .red d.previous.text ++ "\n" ++
    "  To:   " ++ paint palette .green d.next.text ++ "\n" ++
    "  Bump: " ++ d.bump.text ++ " (" ++ d.labelText ++ ")\n"

end ReleaseFlow.Console
