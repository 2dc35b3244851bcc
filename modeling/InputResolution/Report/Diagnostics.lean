import InputResolution.Report.Event
import InputResolution.Text.Lines

namespace InputResolution

/-! The lines meant for the user: each skipped input as it is met, and the
failure last. -/

structure Diagnostics where
  lines : List Text
  deriving DecidableEq, Repr

namespace Diagnostics

def empty : Diagnostics := ⟨[]⟩

def isEmpty (diagnostics : Diagnostics) : Bool :=
  diagnostics.lines.isEmpty

/-- A warning is one line, whatever it holds. -/
def warn (diagnostics : Diagnostics) (message : Text) : Diagnostics :=
  ⟨diagnostics.lines ++ [message]⟩

/-- A failure takes as many lines as its message has. -/
def fail (diagnostics : Diagnostics) (failure : Failure) : Diagnostics :=
  ⟨diagnostics.lines ++ failure.message.lines⟩

def record (diagnostics : Diagnostics) : Event → Diagnostics
  | .skipped skip => diagnostics.warn skip.message
  | .failed failure => diagnostics.fail failure
  | _ => diagnostics

def recordAll (diagnostics : Diagnostics) (events : List Event) : Diagnostics :=
  events.foldl record diagnostics

def text (diagnostics : Diagnostics) : Text :=
  Text.unlines diagnostics.lines

@[simp] theorem recordAll_nil (diagnostics : Diagnostics) :
    diagnostics.recordAll [] = diagnostics := rfl

@[simp] theorem recordAll_append (diagnostics : Diagnostics)
    (first second : List Event) :
    diagnostics.recordAll (first ++ second) =
      (diagnostics.recordAll first).recordAll second := by
  simp [recordAll]

end Diagnostics

end InputResolution
