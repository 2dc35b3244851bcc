import InputResolution.Disk.FileSystem
import InputResolution.Native.Path

namespace InputResolution.Disk

/-! The real place of a path that need not exist: the longest part of it that
has a real place, followed by the rest of its components, applied to the text of
that place. -/

def descend (place : Text) : Native.Component → Text
  | .root => ['/']
  | .current => place
  | .parent => (Native.parent? place).getD place
  | .name text => Native.join place text

/-- Takes components off the end until what is left has a real place.  `shallow`
are the components still to be taken, the last of the path first; `deep` are the
taken ones, in path order. -/
def climb (fs : FileSystem) (path left : Text) :
    (shallow deep : List Native.Component) → Text
  | [], _ => path
  | component :: shallow, deep =>
      match Native.parent? left with
      | none => path
      | some shorter =>
          match fs.canonicalize shorter with
          | .ok place => (component :: deep).foldl descend place
          | .error _ => climb fs path shorter shallow (component :: deep)

/-- A path no part of which has a real place stands for itself. -/
def weaklyCanonical (fs : FileSystem) (path : Text) : Text :=
  match fs.canonicalize path with
  | .ok place => place
  | .error _ => climb fs path path (Native.components path).reverse []

theorem weaklyCanonical_of_ok {fs : FileSystem} {path place : Text}
    (h : fs.canonicalize path = .ok place) :
    weaklyCanonical fs path = place := by
  simp [weaklyCanonical, h]

end InputResolution.Disk
