import Amf.Context.Basic
import Amf.Json.Text
import Amf.Yaml.Document

/-!
# Configuration

The section `amf` of a configuration file, and the context that an AMF starts with:

| setting | type | default |
| --- | --- | --- |
| `sbi.server.scheme` | text | `http` |
| `sbi.server.address` | text | `127.0.0.5` |
| `sbi.server.port` | 16 bits | 7777 |
| `sbi.max_clients` | 64 bits | 512 |
| `guami` | list | none |
| `time.t3513.value` | milliseconds, 64 bits | 2000 |
| `time.t3513.max_count` | 32 bits | 2, or 0 beside a `value` |
| `max.ue` | 64 bits | 1024 |

A section may be null, which is a section without settings. Unknown settings are ignored, and so are the
tags of values and names, but for those of the codes of a network. A file without the section, and no
file at all, stand for the defaults.

An AMF takes twice as many legs as UEs. A double that does not fit into 64 bits breaks the start off, or
wraps around where arithmetic is not checked (`Config.start_eq_ok_iff`).
-/

namespace Amf

/-- The settings of the timers, with retries and milliseconds for paging when they are configured. -/
def TimerConfigs.ofPaging : Option (Nat × Nat) → TimerConfigs
  | none => {}
  | some (maxRetries, millis) => { t3513 := { maxRetries, millis } }

theorem TimerConfigs.enabled_ofPaging (paging : Option (Nat × Nat)) (kind : TimerKind) :
    ((ofPaging paging).of kind).enabled = true := by
  cases paging <;> cases kind <;> rfl

/-- The configuration of an AMF. -/
structure Config where
  /-- The scheme of its server, as it is written. -/
  scheme : String := "http"
  /-- The address of its server. -/
  address : String := "127.0.0.5"
  /-- The port of its server. -/
  port : UInt16 := 7777
  /-- The most clients towards peers. -/
  maxClients : UInt64 := 512
  /-- The identifiers that it serves under. -/
  guamis : List Guami := []
  /-- The settings of the timers. -/
  timers : TimerConfigs := {}
  /-- No configuration disables a timer. -/
  timers_enabled : ∀ kind, (timers.of kind).enabled = true := by
    exact TimerConfigs.enabled_ofPaging none
  /-- The most UEs. -/
  maxUes : UInt64 := 1024
  deriving DecidableEq, Repr, Inhabited

/-- Why a text is no configuration. -/
inductive ConfigError where
  /-- The text is not YAML. -/
  | notYaml
  /-- The section is not one of an AMF. -/
  | invalidSection
  deriving DecidableEq, Repr, Inhabited

/-- The error in words. -/
def ConfigError.message : ConfigError → String
  | notYaml => "Failed to parse YAML config"
  | invalidSection => "Invalid 'amf' section"

/-! ## Arithmetic -/

/-- What becomes of arithmetic that does not fit into 64 bits. -/
inductive Arithmetic where
  /-- It breaks the program off. -/
  | checked
  /-- Its result is taken modulo 2 ^ 64. -/
  | wrapping
  deriving DecidableEq, Repr, Inhabited

/-- Why arithmetic breaks a program off. -/
inductive Panic where
  /-- A product does not fit into 64 bits. -/
  | product
  deriving DecidableEq, Repr, Inhabited

/-- The panic in words. -/
def Panic.message : Panic → String
  | product => "attempt to multiply with overflow"

namespace Arithmetic

variable {a : Arithmetic} {x y z : UInt64} {p : Panic}

/-- The product of two numbers of 64 bits. -/
def mul (a : Arithmetic) (x y : UInt64) : Except Panic UInt64 :=
  match a with
  | checked => if x.toNat * y.toNat < UInt64.size then .ok (x * y) else .error .product
  | wrapping => .ok (x * y)

theorem mul_eq_ok_iff : a.mul x y = .ok z ↔
    (a = .checked → x.toNat * y.toNat < UInt64.size) ∧ z = x * y := by
  cases a with
  | checked => by_cases fits : x.toNat * y.toNat < UInt64.size <;> simp [mul, fits, eq_comm]
  | wrapping => simp [mul, eq_comm]

theorem mul_eq_error_iff : a.mul x y = .error p ↔
    a = .checked ∧ ¬x.toNat * y.toNat < UInt64.size ∧ p = .product := by
  cases a with
  | checked => by_cases fits : x.toNat * y.toNat < UInt64.size <;> simp [mul, fits, eq_comm]
  | wrapping => simp [mul]

end Arithmetic

namespace Config

/-! ## Settings -/

/-- A text. -/
def text? (y : Yaml) : Option String := y.untag.asText?

/-- The settings of a section, by name; the names of settings are texts. -/
def settings? (y : Yaml) : Option (List (String × Yaml)) :=
  match y.untag with
  | .scalar .null => some []
  | .map members => members.mapM fun (name, value) => (text? name).map (·, value)
  | _ => none

/-- The items of a list; null is a list without any. -/
def items? (y : Yaml) : Option (List Yaml) :=
  match y.untag with
  | .scalar .null => some []
  | .seq items => some items
  | _ => none

/-- An integer without tag, from zero to below a bound. -/
def below? (bound : Nat) : Yaml → Option Nat
  | .scalar (.int n) => if 0 ≤ n ∧ n < bound then some n.toNat else none
  | _ => none

/-- An integer from zero to below a bound. -/
def natural? (bound : Nat) (y : Yaml) : Option Nat := below? bound y.untag

/-- An integer of 8 bits. -/
def uint8? (y : Yaml) : Option UInt8 := (natural? UInt8.size y).map UInt8.ofNat

/-- An integer of 16 bits. -/
def uint16? (y : Yaml) : Option UInt16 := (natural? UInt16.size y).map UInt16.ofNat

/-- An integer of 64 bits. -/
def uint64? (y : Yaml) : Option UInt64 := (natural? UInt64.size y).map UInt64.ofNat

/-- The setting of a name, if there is one; two of a name are refused. -/
def setting? (settings : List (String × Yaml)) (name : String) : Option (Option Yaml) :=
  match settings.filter (·.1 = name) with
  | [] => some none
  | [m] => some (some m.2)
  | _ => none

/-- A setting that has to be there. -/
def required (settings : List (String × Yaml)) (name : String) (read : Yaml → Option α) : Option α :=
  (setting? settings name).bind fun y => y.bind read

/-- A setting with a value to take when it is absent. -/
def withDefault (settings : List (String × Yaml)) (name : String) (read : Yaml → Option α)
    (dflt : α) : Option α :=
  (setting? settings name).bind fun
    | some y => read y
    | none => some dflt

/-- A section within a section, read as if null when it is absent. -/
def subsection (settings : List (String × Yaml)) (name : String) : Option (List (String × Yaml)) :=
  withDefault settings name settings? []

/-- A code of digits without tag: a text, or an integer in at least `width` digits. -/
def code? (width : Nat) (y : Yaml) : Option String :=
  match y.asText? with
  | some s => some s
  | none => (below? UInt64.size y).map fun n =>
    String.ofList (Text.zeroFill width (Text.decimal n))

/-- A network, by its two codes. -/
def plmn? (y : Yaml) : Option Plmn := do
  let settings ← settings? y
  let mcc ← required settings "mcc" (code? 3)
  let mnc ← required settings "mnc" (code? 2)
  return .ofCodes mcc mnc

/-- An AMF within a network. -/
def amfId? (y : Yaml) : Option AmfId := do
  let settings ← settings? y
  let region ← required settings "region" uint8?
  let set ← required settings "set" uint16?
  let pointer ← withDefault settings "pointer" uint8? 0
  return { region, set, pointer }

/-- An identifier that the AMF serves under. -/
def guami? (y : Yaml) : Option Guami := do
  let settings ← settings? y
  let plmn ← required settings "plmn_id" plmn?
  let amf ← required settings "amf_id" amfId?
  return { plmn, amf }

/-- The retries and the milliseconds of a timer, unless they are null. -/
def timer? : Yaml → Option (Option (Nat × Nat))
  | .scalar .null => some none
  | y => do
    let settings ← settings? y
    let millis ← required settings "value" (natural? UInt64.size)
    let maxRetries ← withDefault settings "max_count" (natural? UInt32.size) 0
    return some (maxRetries, millis)

/-- The configuration of a section. -/
def ofSection? (y : Yaml) : Option Config := do
  let settings ← settings? y
  let sbi ← subsection settings "sbi"
  let server ← subsection sbi "server"
  let time ← subsection settings "time"
  let max ← subsection settings "max"
  let d : Config := {}
  let scheme ← withDefault server "scheme" text? d.scheme
  let address ← withDefault server "address" text? d.address
  let port ← withDefault server "port" uint16? d.port
  let maxClients ← withDefault sbi "max_clients" uint64? d.maxClients
  let guamis ← withDefault settings "guami" (fun y => (items? y).bind (·.mapM guami?)) d.guamis
  let t3513 ← withDefault time "t3513" timer? none
  let maxUes ← withDefault max "ue" uint64? d.maxUes
  return {
    scheme, address, port, maxClients, guamis, maxUes
    timers := .ofPaging t3513
    timers_enabled := TimerConfigs.enabled_ofPaging t3513 }

/-! ## Documents -/

/-- The configuration of a document: that of its section `amf`, or the defaults without one. -/
def ofYaml (y : Yaml) : Except ConfigError Config :=
  match y.get? "amf" with
  | none => .ok {}
  | some body =>
    match ofSection? body with
    | some config => .ok config
    | none => .error .invalidSection

/-- The configuration of a text. -/
def ofText (s : String) : Except ConfigError Config :=
  match Yaml.ofText? s with
  | some y => ofYaml y
  | none => .error .notYaml

/-- The configuration of a JSON value, whose text is one of YAML. -/
def ofJson (j : Json) : Except ConfigError Config := ofText j.text

/-- The configuration of a file's text, or the defaults when there is no file to read. -/
def load (text : Option String) : Except ConfigError Config :=
  match text with
  | some s => ofText s
  | none => .ok {}

/-! ## The context -/

/-- The server of the AMF: over `https` if the scheme says so in either case, and else over `http`. -/
def origin (c : Config) : Origin :=
  ⟨if c.scheme.toLower = "https" then .https else .http, c.address, c.port⟩

/-- The identifier that an AMF serves under when no other is configured. -/
def defaultGuami : Guami :=
  { plmn := .ofCodes "999" "70", amf := { region := 2, set := 1, pointer := 0 } }

/-- The identifier that the AMF serves under: the first of those configured. -/
def guami (c : Config) : Guami := c.guamis.head?.getD defaultGuami

/-- The context of an AMF that takes a number of legs at most. -/
def contextWith (c : Config) (maxLegs : UInt64) : Context :=
  { guami := c.guami
    origin := c.origin
    timers := { configs := c.timers }
    clients := { capacity := c.maxClients.toNat }
    maxUes := c.maxUes.toNat
    maxLegs := maxLegs.toNat }

/-- The context that an AMF starts with: twice as many legs as UEs. -/
def start (c : Config) (a : Arithmetic) : Except Panic Context :=
  (a.mul c.maxUes 2).map c.contextWith

/-- The context that an AMF starts with when the double wraps around. An AMF that starts at all starts
with this one (`start_eq_ok_iff`). -/
def context (c : Config) : Context := c.contextWith (c.maxUes * 2)

section
variable {c : Config} {a : Arithmetic} {d : Context} {p : Panic}

/-- **An AMF starts with its context**, unless arithmetic is checked and the double does not fit. -/
theorem start_eq_ok_iff :
    c.start a = .ok d ↔ (a = .checked → 2 * c.maxUes.toNat < UInt64.size) ∧ d = c.context := by
  unfold start
  rw [Nat.mul_comm]
  cases product : a.mul c.maxUes 2 with
  | ok z =>
    obtain ⟨fits, rfl⟩ := Arithmetic.mul_eq_ok_iff.1 product
    exact ⟨fun same => ⟨fits, (Except.ok.inj same).symm⟩, fun same => same.2 ▸ rfl⟩
  | error q =>
    obtain ⟨is, broken, -⟩ := Arithmetic.mul_eq_error_iff.1 product
    exact ⟨nofun, fun fits => absurd (fits.1 is) broken⟩

/-- **A start is broken off exactly if arithmetic is checked and the double does not fit.** -/
theorem start_eq_error_iff :
    c.start a = .error p ↔ a = .checked ∧ ¬2 * c.maxUes.toNat < UInt64.size ∧ p = .product := by
  unfold start
  rw [Nat.mul_comm]
  cases product : a.mul c.maxUes 2 with
  | ok z =>
    obtain ⟨fits, -⟩ := Arithmetic.mul_eq_ok_iff.1 product
    exact ⟨nofun, fun ⟨is, broken, _⟩ => absurd (fits is) broken⟩
  | error q =>
    obtain ⟨is, broken, rfl⟩ := Arithmetic.mul_eq_error_iff.1 product
    exact ⟨fun same => ⟨is, broken, (Except.error.inj same).symm⟩, fun same => same.2.2 ▸ rfl⟩

end

end Config
end Amf
