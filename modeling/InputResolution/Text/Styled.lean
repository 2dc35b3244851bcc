import InputResolution.Text.Printable

namespace InputResolution

/-! Text with styles, for readers that show them and for readers that do not. -/

inductive Style where
  | heading
  | failure
  | literal
  | rejected
  deriving DecidableEq, Repr

def Style.opening : Style → Text
  | .heading => "\x1b[1m\x1b[4m".toList
  | .failure => "\x1b[1m\x1b[31m".toList
  | .literal => "\x1b[1m".toList
  | .rejected => "\x1b[33m".toList

def Style.closing : Text := "\x1b[0m".toList

structure StyledPart where
  style : Option Style
  text : Text
  deriving DecidableEq, Repr

abbrev StyledText := List StyledPart

namespace StyledText

def plain (text : Text) : StyledText := [⟨none, text⟩]

def styled (style : Style) (text : Text) : StyledText := [⟨some style, text⟩]

/-- Without styles each part is shown as a terminal would show it. -/
def unstyled (text : StyledText) : Text :=
  text.flatMap fun part => Text.printable part.text

/-- With styles each part is written as it is, between the marks of its
style. -/
def marked (text : StyledText) : Text :=
  text.flatMap fun part =>
    match part.style with
    | none => part.text
    | some style => style.opening ++ part.text ++ Style.closing

def render (text : StyledText) (showsStyles : Bool) : Text :=
  if showsStyles then text.marked else text.unstyled

def unlines (lines : List StyledText) : StyledText :=
  lines.flatMap fun line => line ++ plain ['\n']

end StyledText

end InputResolution
