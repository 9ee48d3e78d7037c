import RecruFlow.Python.Value

/-!
# The outcome of a fetch
-/

namespace RecruFlow.Connectors

/-- What a fetch with proxy rotation comes to. -/
inductive Fetched (α : Type) where
  /-- The last attempt was answered with 403 or 429. -/
  | blocked (statusCode : Nat)
  /-- Another failure, or a page of an unexpected shape. -/
  | failed
  | got (value : α)
  deriving DecidableEq

/-- The status code of a fetch that was blocked. -/
def Fetched.blockedStatus {α : Type} : Fetched α → Option Nat
  | .blocked statusCode => some statusCode
  | _ => none

end RecruFlow.Connectors
