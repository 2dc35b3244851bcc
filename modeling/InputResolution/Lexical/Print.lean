import InputResolution.Lexical.Path

namespace InputResolution.Lexical.Path

/-! Texts of a normalized path: its own, and its portable form, in which every
root begins with a slash and the working drive is left out. -/

def relativeText (path : Path) : Text :=
  Text.join '/' path.segments ++ if path.trailing then ['/'] else []

/-- A relative path without segments is written as a dot. -/
def text (path : Path) : Text :=
  if path.root = .relative ∧ path.segments = [] then dot
  else path.root.text ++ path.relativeText

/-- Paths of other drives keep their drive after the slash, so that they stay
apart. -/
def portableText (path workDir : Path) : Text :=
  match path.root with
  | .relative => path.text
  | .slash => '/' :: path.relativeText
  | .doubleSlash => '/' :: '/' :: path.relativeText
  | .drive letter =>
      if (Root.drive letter).agrees workDir.root then '/' :: path.relativeText
      else '/' :: letter :: ':' :: '/' :: path.relativeText

@[simp] theorem text_relative_nil (trailing : Bool) :
    text ⟨.relative, [], trailing⟩ = dot := rfl

theorem text_of_isRooted {path : Path} (h : path.isRooted = true) :
    path.text = path.root.text ++ path.relativeText := by
  rw [text, if_neg]
  rintro ⟨hroot, -⟩
  simp [isRooted, hroot] at h

end InputResolution.Lexical.Path
