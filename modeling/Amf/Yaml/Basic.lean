import Amf.Yaml.Scalar

/-!
# YAML values

Scalars, lists, mappings whose keys are values of any kind, and values with a tag. Mappings are the same
whatever the order of their members, and a key occurs in a mapping once.
-/

namespace Amf

/-- A YAML value. -/
inductive Yaml where
  /-- A scalar. -/
  | scalar (s : Yaml.Scalar)
  /-- A list. -/
  | seq (items : List Yaml)
  /-- A mapping, a key and a value each. -/
  | map (members : List (Yaml × Yaml))
  /-- A value with a tag. -/
  | tagged (tag : String) (value : Yaml)
  deriving Inhabited

namespace Yaml

/-- A value without its tags. -/
def untag : Yaml → Yaml
  | tagged _ y => y.untag
  | y => y

/-- The text that a value is. -/
def asText? : Yaml → Option String
  | scalar (.str s) => some s
  | _ => none

/-- The member of a text in a mapping. -/
def get? (name : String) (y : Yaml) : Option Yaml :=
  match y.untag with
  | map members => (members.find? fun m => m.1.asText? = some name).map (·.2)
  | _ => none

mutual

/-- Two values are the same, up to the order of members. -/
def same : Yaml → Yaml → Bool
  | scalar s, scalar t => s = t
  | seq items, seq others => sameItems items others
  | map members, map others => members.length = others.length && allAmong members others
  | tagged tag y, tagged other z => tag = other && same y z
  | _, _ => false

/-- Two lists hold the same values in the same order. -/
def sameItems : List Yaml → List Yaml → Bool
  | [], [] => true
  | y :: ys, z :: zs => same y z && sameItems ys zs
  | _, _ => false

/-- All members are among others. -/
def allAmong : List (Yaml × Yaml) → List (Yaml × Yaml) → Bool
  | [], _ => true
  | (k, v) :: ms, others => (others.any fun m => same k m.1 && same v m.2) && allAmong ms others

end

/-- Every value occurs once. -/
def distinct : List Yaml → Bool
  | [] => true
  | y :: ys => !(ys.any y.same) && distinct ys

/-- A mapping, unless a key occurs twice. -/
def mapping? (members : List (Yaml × Yaml)) : Option Yaml :=
  if distinct (members.map (·.1)) then some (map members) else none

end Yaml
end Amf
