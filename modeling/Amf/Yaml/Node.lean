import Amf.Yaml.Token

/-!
# Nodes

The tree of a document: scalars, lists and mappings as they are written, with their tags, and aliases
that stand for other nodes. `Node.ofTokens?` reads it:

| node | tokens |
| --- | --- |
| properties | an anchor and a tag, either or both, in either order |
| alias, scalar | one token, for a scalar after its properties |
| list by indentation | `blockSequence`, then `blockEntry` and an item each, then `blockEnd` |
| mapping by indentation | `blockMapping`, then `key`, a key, `value`, a value each, then `blockEnd` |
| list as the key or value of a mapping | `blockEntry` and an item each, as deep as the mapping |
| list between brackets | `flowSequence`, items or single members, `flowSequenceEnd` |
| mapping between brackets | `flowMapping`, members, `flowMappingEnd` |

An item, key or value may be left out, which is an empty plain scalar. Anchors are numbered: the number
of a new anchor is that of the names known so far.
-/

namespace Amf
namespace Yaml

/-- What is said of a node in front of it. -/
structure Properties where
  /-- The number that aliases refer to. -/
  anchor : Option Nat := none
  /-- The octets of the tag in full. -/
  tag : Option (List UInt8) := none
  deriving DecidableEq, Repr, Inhabited

/-- A node. -/
inductive Node where
  /-- The node of a number. -/
  | reference (anchor : Nat)
  /-- A scalar, plain or not. -/
  | scalar (p : Properties) (text : String) (plain : Bool)
  /-- A list. -/
  | seq (p : Properties) (items : List Node)
  /-- A mapping, a key and a value each. -/
  | map (p : Properties) (members : List (Node × Node))
  deriving Inhabited

namespace Node

/-- A scalar that is left out. -/
def empty : Node := scalar {} "" true

mutual

/-- The marks that a node consists of: one for a scalar or alias, and two that enclose a collection. -/
def marks : Node → Nat
  | reference _ | scalar _ _ _ => 1
  | seq _ items => marksOfItems items + 2
  | map _ members => marksOfMembers members + 2

/-- The marks of nodes. -/
def marksOfItems : List Node → Nat
  | [] => 0
  | n :: ns => n.marks + marksOfItems ns

/-- The marks of the members of a mapping. -/
def marksOfMembers : List (Node × Node) → Nat
  | [] => 0
  | (k, v) :: ms => k.marks + v.marks + marksOfMembers ms

end

/-- The entry of a node that has an anchor. -/
def entry (p : Properties) (n : Node) : List (Nat × Node) :=
  (p.anchor.map fun a => (a, n)).toList

mutual

/-- The nodes that have an anchor, in the order in which they begin. -/
def anchored : Node → List (Nat × Node)
  | reference _ => []
  | scalar p text plain => entry p (scalar p text plain)
  | seq p items => entry p (seq p items) ++ anchoredItems items
  | map p members => entry p (map p members) ++ anchoredMembers members

/-- The nodes that have an anchor in a list. -/
def anchoredItems : List Node → List (Nat × Node)
  | [] => []
  | n :: ns => n.anchored ++ anchoredItems ns

/-- The nodes that have an anchor in a mapping. -/
def anchoredMembers : List (Node × Node) → List (Nat × Node)
  | [] => []
  | (k, v) :: ms => k.anchored ++ v.anchored ++ anchoredMembers ms

end

/-! ## Reading -/

/-- The tokens that are left, and what was said in front of them. -/
structure Reading where
  /-- The tokens. -/
  tokens : List Token
  /-- The names of the anchors and their numbers. -/
  names : List (String × Nat) := []
  /-- What handles stand for. -/
  handles : List (String × List UInt8) := []

/-- A reader of tokens. -/
abbrev Reader := StateT Reading Option

/-- The next token is one of some. -/
def nextIn (ts : List Token) : Reader Bool := do
  return (← get).tokens.head?.any ts.contains

/-- The next token goes by. -/
def pass : Reader Unit := modify fun r => { r with tokens := r.tokens.drop 1 }

/-- The next token goes by, if it is the given one. -/
def take (t : Token) : Reader Bool := do
  let here ← nextIn [t]
  if here then pass
  return here

/-- The number for a new anchor of a name. -/
def anchorNamed (name : String) : Reader Nat := do
  let r ← get
  let number := r.names.length
  set { r with names := (name, number) :: r.names.filter (·.1 ≠ name) }
  return number

/-- The octets of a tag in full. -/
def tagInFull (t : Tag) : Reader (List UInt8) := do
  if t.handle.isEmpty then return t.suffix
  match (← get).handles.lookup t.handle with
  | some uri => return uri ++ t.suffix
  | none => failure

/-- An anchor, if one is next. -/
def anchor? : Reader (Option Nat) := do
  match (← get).tokens with
  | .anchor name :: _ => do
    pass
    return some (← anchorNamed name)
  | _ => return none

/-- A tag, if one is next. -/
def tagged? : Reader (Option (List UInt8)) := do
  match (← get).tokens with
  | .tag t :: _ => do
    pass
    return some (← tagInFull t)
  | _ => return none

/-- An anchor and a tag, as far as they are next, in either order. -/
def properties : Reader Properties := do
  let first ← anchor?
  let tag ← tagged?
  let anchor ← if first.isNone then anchor? else pure first
  return { anchor, tag }

/-- The node of an alias. -/
def aliasNamed (name : String) : Reader Node := do
  match (← get).names.lookup name with
  | some number => return reference number
  | none => failure

mutual

/-- A node; `inBlock` tells that it may be a collection by indentation, and `inMapping` that it may be
a list as deep as the mapping around it. `fuel` bounds the number of readers in one another. -/
def node (fuel : Nat) (inBlock inMapping : Bool) : Reader Node :=
  match fuel with
  | 0 => failure
  | fuel + 1 => do
    match (← get).tokens with
    | .reference name :: _ => do
      pass
      aliasNamed name
    | _ => do
      let p ← properties
      match (← get).tokens with
      | .blockEntry :: _ => if inMapping then return seq p (← entries fuel) else bare p
      | .scalar text plain :: _ => do
        pass
        return scalar p text plain
      | .flowSequence :: _ => do
        pass
        return seq p (← flowItems fuel true)
      | .flowMapping :: _ => do
        pass
        return map p (← flowMembers fuel true)
      | .blockSequence :: _ =>
        if inBlock then do
          pass
          return seq p (← items fuel)
        else bare p
      | .blockMapping :: _ =>
        if inBlock then do
          pass
          return map p (← members fuel)
        else bare p
      | _ => bare p

/-- Properties that no node follows are those of a scalar that is left out. -/
def bare (p : Properties) : Reader Node :=
  if p = {} then failure else return scalar p "" true

/-- A node, unless one of some tokens follows in its place. -/
def nodeUnless (fuel : Nat) (ts : List Token) (inBlock inMapping : Bool) : Reader Node :=
  match fuel with
  | 0 => failure
  | fuel + 1 => do if ← nextIn ts then return empty else node fuel inBlock inMapping

/-- The items of a list by indentation, through its end. -/
def items (fuel : Nat) : Reader (List Node) :=
  match fuel with
  | 0 => failure
  | fuel + 1 => do
    if ← take .blockEnd then return []
    if ← take .blockEntry then
      let n ← nodeUnless fuel [.blockEntry, .blockEnd] true false
      return n :: (← items fuel)
    failure

/-- The items of a list as deep as the mapping around it. -/
def entries (fuel : Nat) : Reader (List Node) :=
  match fuel with
  | 0 => failure
  | fuel + 1 => do
    if ← take .blockEntry then
      let n ← nodeUnless fuel [.blockEntry, .key, .value, .blockEnd] true false
      return n :: (← entries fuel)
    return []

/-- The members of a mapping by indentation, through its end. -/
def members (fuel : Nat) : Reader (List (Node × Node)) :=
  match fuel with
  | 0 => failure
  | fuel + 1 => do
    if ← take .blockEnd then return []
    if ← take .key then
      let k ← nodeUnless fuel [.key, .value, .blockEnd] true true
      let v ← if ← take .value then nodeUnless fuel [.key, .value, .blockEnd] true true
        else pure empty
      return (k, v) :: (← members fuel)
    failure

/-- The items of a list between brackets, through its closing bracket. A single member is a mapping;
where its key is left out, so is the token in the key's place. -/
def flowItems (fuel : Nat) (isFirst : Bool) : Reader (List Node) :=
  match fuel with
  | 0 => failure
  | fuel + 1 => do
    if ← take .flowSequenceEnd then return []
    unless isFirst do unless ← take .flowEntry do failure
    if ← take .flowSequenceEnd then return []
    if ← take .key then
      let k ← if ← nextIn [.value, .flowEntry, .flowSequenceEnd] then do pass; pure empty
        else node fuel false false
      let v ← if ← take .value then nodeUnless fuel [.flowEntry, .flowSequenceEnd] false false
        else pure empty
      return map {} [(k, v)] :: (← flowItems fuel false)
    let n ← node fuel false false
    return n :: (← flowItems fuel false)

/-- The members of a mapping between brackets, through its closing bracket. -/
def flowMembers (fuel : Nat) (isFirst : Bool) : Reader (List (Node × Node)) :=
  match fuel with
  | 0 => failure
  | fuel + 1 => do
    if ← take .flowMappingEnd then return []
    unless isFirst do unless ← take .flowEntry do failure
    if ← take .flowMappingEnd then return []
    if ← take .key then
      let k ← nodeUnless fuel [.value, .flowEntry, .flowMappingEnd] false false
      let v ← if ← take .value then nodeUnless fuel [.flowEntry, .flowMappingEnd] false false
        else pure empty
      return (k, v) :: (← flowMembers fuel false)
    let k ← node fuel false false
    return (k, empty) :: (← flowMembers fuel false)

end

/-! ## Documents -/

/-- A directive at the head of a document; the version is 1.1 or 1.2 and given once, and so is what a
handle stands for. -/
def obey (version : Bool) (handles : List (String × List UInt8)) :
    Directive → Option (Bool × List (String × List UInt8))
  | .version major minor =>
    if !version && major = 1 && (minor = 1 || minor = 2) then some (true, handles) else none
  | .handle name uri =>
    if (handles.lookup name).isSome then none else some (version, (name, uri) :: handles)

/-- What the directives at the head of a document make handles stand for, and the tokens after them. -/
def directives? (version : Bool) (handles : List (String × List UInt8)) :
    List Token → Option (List (String × List UInt8) × List Token)
  | .directive d :: ts => do
    let (version, handles) ← obey version handles d
    directives? version handles ts
  | ts => some (handles, ts)

/-- What handles stand for where no directive says so. -/
def defaultHandles : List (String × List UInt8) :=
  [("!", [bang]), ("!!", "tag:yaml.org,2002:".toUTF8.toList)]

/-- A directive. -/
def isDirective : Token → Bool
  | .directive _ => true
  | _ => false

/-- The node of a document after the mark that opens it. -/
def explicit (fuel : Nat) : Reader Node := do
  match (← get).tokens with
  | [] => return empty
  | t :: _ =>
    if isDirective t || t = .documentStart || t = .documentEnd then return empty
    else node fuel true false

/-- The tokens read are those of one document: at most marks that close it are left. -/
def isLast (r : Reading) : Bool := r.tokens.all (· = .documentEnd)

/-- The node of tokens that are one document; no tokens are none. -/
def ofTokens? (ts : List Token) : Option (Option Node) := do
  let fuel := 3 * ts.length + 3
  match ts with
  | [] => return none
  | t :: _ =>
    let (n, r) ← if isDirective t || t = .documentStart then do
        let (handles, ts) ← directives? false [] ts
        let handles := handles ++ defaultHandles
        match ts with
        | .documentStart :: ts => explicit fuel { tokens := ts, handles }
        | _ => none
      else node fuel true false { tokens := ts, handles := defaultHandles }
    if isLast r then return some n else none

end Node
end Yaml
end Amf
