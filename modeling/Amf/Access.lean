import Amf.Json.Named

/-!
# Access types and connection states
-/

namespace Amf

/-- The access over which a UE is registered or a session runs. -/
inductive AccessType where
  | threeGpp | nonThreeGpp
  deriving DecidableEq, Repr, Inhabited

/-- An access type has its name of the service interface. -/
instance : Named AccessType where
  values := [.threeGpp, .nonThreeGpp]
  name
    | .threeGpp => "3GPP_ACCESS"
    | .nonThreeGpp => "NON_3GPP_ACCESS"

/-- Every access type is read from its name. -/
theorem AccessType.ofName?_name (a : AccessType) : Named.ofName? (Named.name a) = some a := by
  cases a <;> decide

/-- Whether a UE has an NG signalling connection. -/
inductive ConnectionState where
  | idle | connected
  deriving DecidableEq, Repr, Inhabited

end Amf
