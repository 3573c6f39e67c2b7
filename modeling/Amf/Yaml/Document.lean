import Amf.Yaml.Basic
import Amf.Yaml.Node

/-!
# YAML documents

The value of a text that is one document. Nodes become values, aliases the values of the nodes that they
stand for, and tags of an application's own stay with their values. There are bounds on what is read:
collections are at most 128 deep in one another, and aliases are followed at most 100 times for each
mark of the document, which a document that holds itself, or one that grows by its aliases, is beyond.
-/

namespace Amf
namespace Yaml

/-- The text of octets, if they are UTF-8. -/
def utf8? (octets : List UInt8) : Option String := String.fromUTF8? octets.toByteArray

/-- A name without an exclamation mark in front, unless it is nothing else. -/
def withoutBang (name : String) : String :=
  match name.toList with
  | '!' :: c :: cs => String.ofList (c :: cs)
  | _ => name

/-- The name of a tag of an application's own, which begins with an exclamation mark: what follows it,
or the mark itself. -/
def ownTag? : Option (List UInt8) → Option String
  | some (first :: name) =>
    if first = bang then (utf8? (if name.isEmpty then [bang] else name)).map withoutBang else none
  | _ => none

/-- A value with the tag of its node, if it is of an application's own; others are dropped. -/
def withTag (own : Option String) (y : Yaml) : Yaml :=
  match own with
  | some name => tagged name y
  | none => y

/-- The scalar of a text whose tag is not of an application's own; one that begins like those counts for
nothing. -/
def ofForeign? (tag : Option (List UInt8)) (text : String) (plain : Bool) : Option Scalar :=
  match tag with
  | none => Scalar.ofText? plain text
  | some tag =>
    if tag.head? = some bang then Scalar.ofText? plain text
    else Scalar.ofTagged? ((utf8? tag).getD "") text

/-- A reader of nodes: the number of times that aliases may still be followed goes along. -/
abbrev Resolver := StateT Nat Option

/-- The node that a node stands for, given those that have an anchor: of several with the same number,
the last. -/
def follow (anchored : List (Nat × Node)) : Node → Resolver Node
  | .reference number => do
    let left ← get
    if left = 0 then failure
    set (left - 1)
    match anchored.reverse.lookup number with
    | some n => return n
    | none => failure
  | n => return n

/-- The value of a scalar. -/
def ofScalar? (p : Properties) (text : String) (plain : Bool) : Option Yaml :=
  match ownTag? p.tag with
  | some name => (Scalar.ofText? plain text).map fun s => tagged name (scalar s)
  | none => (ofForeign? p.tag text plain).map scalar

/-- The value of a node, whose collections are at most `depth` deep in one another. -/
def ofNode (anchored : List (Nat × Node)) (depth : Nat) (n : Node) : Resolver Yaml := do
  let n ← follow anchored n
  match depth, n with
  | _, .reference _ => failure
  | _, .scalar p text plain => ofScalar? p text plain
  | 0, _ => failure
  | depth + 1, .seq p items => do
    let ys ← items.mapM (ofNode anchored depth)
    return withTag (ownTag? p.tag) (seq ys)
  | depth + 1, .map p members => do
    let ms ← members.mapM fun (k, v) => do
      let key ← ofNode anchored depth k
      return (key, ← ofNode anchored depth v)
    return withTag (ownTag? p.tag) (← mapping? ms)

/-- The deepest that collections may be in one another. -/
def maxDepth : Nat := 128

/-- The times that aliases may be followed for each mark of a document. -/
def aliasesPerMark : Nat := 100

/-- The value of a text; that of an empty one is null. -/
def ofText? (s : String) : Option Yaml := do
  let ts ← tokens? s
  match ← Node.ofTokens? ts with
  | none => return scalar .null
  | some n => (ofNode n.anchored maxDepth n).run' (n.marks * aliasesPerMark)

end Yaml
end Amf
