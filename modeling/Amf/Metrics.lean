/-!
# Metrics

Two gauges and two counters of 64 bits. A count that is raised wraps around; one that is lowered stops
at zero.

| metric | name | kind |
| --- | --- | --- |
| `ranUes` | `ran_ue` | gauge |
| `sessions` | `amf_session` | gauge |
| `pagingRequests` | `fivegs_amffunction_mm_paging5greq` | counter |
| `pagingSuccesses` | `fivegs_amffunction_mm_paging5gsucc` | counter |
-/

namespace Amf

/-- A metric. -/
inductive Metric where
  | ranUes | sessions | pagingRequests | pagingSuccesses
  deriving DecidableEq, Repr, Inhabited

namespace Metric

/-- Every metric, in the order of the exposition. -/
def all : List Metric := [ranUes, sessions, pagingRequests, pagingSuccesses]

/-- The exported name of a metric. -/
def name : Metric → String
  | ranUes => "ran_ue"
  | sessions => "amf_session"
  | pagingRequests => "fivegs_amffunction_mm_paging5greq"
  | pagingSuccesses => "fivegs_amffunction_mm_paging5gsucc"

/-- What a metric counts. -/
def help : Metric → String
  | ranUes => "RAN UEs"
  | sessions => "AMF Sessions"
  | pagingRequests => "Number of 5G paging procedures initiated at the AMF"
  | pagingSuccesses => "Number of successful 5G paging procedures initiated at the AMF"

/-- A metric that goes down as well as up. -/
def isGauge : Metric → Bool
  | ranUes | sessions => true
  | pagingRequests | pagingSuccesses => false

/-- The name of a metric's kind. -/
def kind (m : Metric) : String := if m.isGauge then "gauge" else "counter"

end Metric

/-- The value of every metric. -/
structure Metrics where
  /-- UEs with a connection to the radio network. -/
  ranUes : UInt64 := 0
  /-- PDU sessions. -/
  sessions : UInt64 := 0
  /-- Paging messages sent. -/
  pagingRequests : UInt64 := 0
  /-- Pagings that the UE answered. -/
  pagingSuccesses : UInt64 := 0
  deriving DecidableEq, Repr, Inhabited

namespace Metrics

/-- The value of a metric. -/
def get (ms : Metrics) : Metric → UInt64
  | .ranUes => ms.ranUes
  | .sessions => ms.sessions
  | .pagingRequests => ms.pagingRequests
  | .pagingSuccesses => ms.pagingSuccesses

/-- The metrics with the value of one set. -/
def set (ms : Metrics) (m : Metric) (v : UInt64) : Metrics :=
  match m with
  | .ranUes => { ms with ranUes := v }
  | .sessions => { ms with sessions := v }
  | .pagingRequests => { ms with pagingRequests := v }
  | .pagingSuccesses => { ms with pagingSuccesses := v }

@[simp] theorem get_set_self (ms : Metrics) (m : Metric) (v : UInt64) : (ms.set m v).get m = v := by
  cases m <;> rfl

theorem get_set_of_ne (ms : Metrics) {m n : Metric} (v : UInt64) (h : n ≠ m) :
    (ms.set m v).get n = ms.get n := by
  cases m <;> cases n <;> first | rfl | exact absurd rfl h

/-- One more. -/
def inc (ms : Metrics) (m : Metric) : Metrics := ms.set m (ms.get m + 1)

/-- One less than a count, and no less than zero. -/
def lower (v : UInt64) : UInt64 := if v = 0 then 0 else v - 1

theorem toNat_lower (v : UInt64) : (lower v).toNat = v.toNat - 1 := by
  unfold lower
  split
  · rename_i zero
    rw [zero]
    rfl
  · rename_i positive
    have : v.toNat ≠ 0 := fun is => positive (UInt64.toNat.inj is)
    rw [UInt64.toNat_sub_of_le v 1 (UInt64.le_iff_toNat_le.2 (Nat.one_le_iff_ne_zero.2 this))]
    rfl

/-- One less, and no less than zero. -/
def dec (ms : Metrics) (m : Metric) : Metrics := ms.set m (lower (ms.get m))

/-- The lines of a metric in the text exposition. -/
def exposition (ms : Metrics) (m : Metric) : String :=
  "# HELP " ++ m.name ++ " " ++ m.help ++ "\n" ++
  "# TYPE " ++ m.name ++ " " ++ m.kind ++ "\n" ++
  m.name ++ " " ++ toString (ms.get m).toNat ++ "\n"

/-- The text exposition of every metric. -/
def exportText (ms : Metrics) : String := String.join (Metric.all.map ms.exposition)

/-- Every metric by name, between braces. -/
def summary (ms : Metrics) : String :=
  let entry (m : Metric) := "\"" ++ m.name ++ "\": " ++ toString (ms.get m).toNat
  "\x7b" ++ ", ".intercalate (Metric.all.map entry) ++ "\x7d"

end Metrics
end Amf
