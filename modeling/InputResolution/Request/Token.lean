import InputResolution.Request.Remapping

namespace InputResolution

/-! Positional tokens of a command line. -/

def stdinMarker : Text := ['-']

inductive Token where
  | remapping (parsed : Remapping)
  | badRemapping (token : Text)
  | stdin
  | path (token : Text)
  deriving DecidableEq, Repr

namespace Token

def classify (token : Text) : Token :=
  if token = stdinMarker then .stdin
  else if Remapping.isWrittenAs token then
    match Remapping.parse? token with
    | some parsed => .remapping parsed
    | none => .badRemapping token
  else .path token

def path? : Token → Option Text
  | .path token => some token
  | _ => none

def remapping? : Token → Option Remapping
  | .remapping parsed => some parsed
  | _ => none

def isStdin : Token → Bool
  | .stdin => true
  | _ => false

end Token

end InputResolution
