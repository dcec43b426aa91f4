import Keytape.Json.Fault

/-! Why a run fails. -/

set_option autoImplicit false

namespace Keytape

inductive Failure where
  | invalidArgument (message : String)
  /-- A malformed binding, quoted as it was given. -/
  | invalidBinding (input reason : String)
  | stream (message : String)
  | document (error : Json.Error)

def Failure.message : Failure → String
  | .invalidArgument message => s!"Invalid argument: {message}"
  | .invalidBinding input reason => s!"Invalid binding '{input}': {reason}"
  | .stream message => s!"I/O error: {message}"
  | .document error => s!"JSON error: {error.message}"

end Keytape
