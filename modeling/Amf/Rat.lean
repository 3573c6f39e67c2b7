import Amf.Json.Named

/-!
# Radio access technologies

The access technologies of a serving cell or of a subscriber's restrictions, and their names.
-/

namespace Amf

/-- A radio access technology. -/
inductive RatType where
  | nr | eutra | wlan | virtual | nbiot | wireline | wirelineCable | wirelineBbf | lteM | nrU | eutraU
  | trustedN3ga | trustedWlan | utra | gera | nrLeo | nrMeo | nrGeo | nrOtherSat | nrRedcap
  deriving DecidableEq, Repr, Inhabited

/-- An access technology has its name of the service interface. -/
instance : Named RatType where
  values :=
    [.nr, .eutra, .wlan, .virtual, .nbiot, .wireline, .wirelineCable, .wirelineBbf, .lteM, .nrU,
     .eutraU, .trustedN3ga, .trustedWlan, .utra, .gera, .nrLeo, .nrMeo, .nrGeo, .nrOtherSat, .nrRedcap]
  name
    | .nr => "NR"
    | .eutra => "EUTRA"
    | .wlan => "WLAN"
    | .virtual => "VIRTUAL"
    | .nbiot => "NBIOT"
    | .wireline => "WIRELINE"
    | .wirelineCable => "WIRELINE_CABLE"
    | .wirelineBbf => "WIRELINE_BBF"
    | .lteM => "LTE-M"
    | .nrU => "NR_U"
    | .eutraU => "EUTRA_U"
    | .trustedN3ga => "TRUSTED_N3GA"
    | .trustedWlan => "TRUSTED_WLAN"
    | .utra => "UTRA"
    | .gera => "GERA"
    | .nrLeo => "NR_LEO"
    | .nrMeo => "NR_MEO"
    | .nrGeo => "NR_GEO"
    | .nrOtherSat => "NR_OTHER_SAT"
    | .nrRedcap => "NR_REDCAP"

/-- Every access technology is read from its name. -/
theorem RatType.ofName?_name (rat : RatType) : Named.ofName? (Named.name rat) = some rat := by
  cases rat <;> decide

end Amf
