import CommandSchema.Yaml.Node.OfTokens
import CommandSchema.Yaml.Plain

/-!
# YAML values

A YAML document as a value: every scalar has its kind, every alias has been replaced by what it
stands for, and no mapping has two equal keys.

* `Value.same`: equality of values; the order of the entries of a mapping does not matter.
* `Value.ofNode?`: the value of a node, if it can be held.
* `Value.read?`: the value of a text.
-/

namespace CommandSchema.Yaml

/-- A YAML value. -/
inductive Value where
  | null
  | boolean (value : Bool)
  | number (value : Number)
  | text (value : String)
  | sequence (items : List Value)
  | mapping (entries : List (Value × Value))
  /-- A value under a tag of the document's own. -/
  | tagged (tag : String) (content : Value)

namespace Value

/-! ## Equality -/

mutual

/-- The same value. -/
def same : Value → Value → Bool
  | .null, .null => true
  | .boolean a, .boolean b => a == b
  | .number a, .number b => a.same b
  | .text a, .text b => a == b
  | .sequence a, .sequence b => sameItems a b
  | .mapping a, .mapping b => a.length == b.length && sameEntries a b
  | .tagged t a, .tagged u b => t == u && same a b
  | _, _ => false

/-- The same items in the same order. -/
def sameItems : List Value → List Value → Bool
  | [], [] => true
  | a :: as, b :: bs => same a b && sameItems as bs
  | _, _ => false

/-- Every entry of the first list occurs in the second one. -/
def sameEntries : List (Value × Value) → List (Value × Value) → Bool
  | [], _ => true
  | (k, v) :: entries, others =>
    others.any (fun o => same k o.1 && same v o.2) && sameEntries entries others

end

/-- Two entries of a mapping have the same key. -/
def hasRepeatedKey : List (Value × Value) → Bool
  | [] => false
  | (k, _) :: entries => entries.any (fun e => k.same e.1) || hasRepeatedKey entries

/-! ## Tags -/

/-- The start of the tags that the language itself defines. -/
def coreTag (name : String) : Octets := octets ("tag:yaml.org,2002:" ++ name).toList

/-- The name of a tag of the document's own: what follows the exclamation mark, as text. -/
def ownTag? : Option Octets → Option String
  | some (33 :: name) => String.fromUTF8? ⟨name.toArray⟩
  | _ => none

/-! ## Scalars -/

/-- The value of a plain scalar without a tag. -/
def ofPlain? (text : String) : Option Value :=
  match Plain.ofText text with
  | .null => some .null
  | .boolean b => some (.boolean b)
  | .number n => some (.number n)
  | .tooLarge => none
  | .text => some (.text text)

/-- The value of a scalar under a core tag, a tag of no known kind, or none. -/
def ofScalar? (tag : Option Octets) (isPlain : Bool) (text : String) : Option Value :=
  match tag with
  | none => if isPlain then ofPlain? text else some (.text text)
  | some tag =>
    if tag = coreTag "bool" then (parseBoolean? text).map .boolean
    else if tag = coreTag "int" then
      match parseInteger text with
      | .fits n => some (.number (.integer n))
      | _ => none
    else if tag = coreTag "float" then (parseFloat? text).map .number
    else if tag = coreTag "null" then if isNullWord text then some .null else none
    else if tag.head? = some 33 && isPlain then ofPlain? text
    else some (.text text)

/-! ## Nodes -/

/-- What aliases stand for. -/
abbrev Targets := List (Nat × Node Nat)

/-- The target of a slot: the last node to get it. -/
def Targets.find? (targets : Targets) (slot : Nat) : Option (Node Nat) :=
  (targets.reverse.find? (·.1 == slot)).map (·.2)

/-- A node that is no alias: itself or its target. The second part says whether it is a target. -/
def Targets.follow? (targets : Targets) : Node Nat → Option (Node Nat × Bool)
  | .alias slot => (targets.find? slot).map fun n => (n, true)
  | n => some (n, false)

/-- Readers of values count down the aliases that may still be followed. -/
abbrev Expansion := StateT Nat Option

/-- Follows an alias, if one more may be followed. -/
def followed (targets : Targets) (n : Node Nat) : Expansion (Node Nat × Bool) := do
  match targets.follow? n with
  | none => failure
  | some (n, true) =>
    match ← get with
    | 0 => failure
    | left + 1 =>
      set left
      return (n, true)
  | some (n, false) => return (n, false)

/-- A value under the tag of its node, if that is a tag of the document's own and has not been
taken off already. A tag without a name is refused. -/
def underTag (tag : Option Octets) (isTaken : Bool) (content : Expansion Value) :
    Expansion Value := do
  match if isTaken then none else ownTag? tag with
  | none => content
  | some "" => failure
  | some name => return .tagged name (← content)

/-- A mapping, unless two of its keys are equal. -/
def ofEntries (entries : List (Value × Value)) : Expansion Value :=
  if hasRepeatedKey entries then failure else return .mapping entries

/-- The value of a node, with collections at most `depth` deep. A key is read as if the tag of its
mapping, where there is one, had taken the place of the key's own. -/
def expand (targets : Targets) (depth : Nat) (isTaken : Bool) (n : Node Nat) :
    Expansion Value := do
  let (n, isTarget) ← followed targets n
  let isTaken := isTaken && !isTarget
  match n with
  | .alias _ => failure
  | .scalar p isPlain s =>
    if isTaken then StateT.lift (ofScalar? none isPlain s)
    else underTag p.tag false (StateT.lift (ofScalar? p.tag isPlain s))
  | .sequence p items =>
    match depth with
    | 0 => failure
    | depth + 1 =>
      underTag p.tag isTaken do
        return .sequence (← items.mapM (expand targets depth false))
  | .mapping p entries =>
    match depth with
    | 0 => failure
    | depth + 1 =>
      let keyTaken := isTaken || (ownTag? p.tag).isSome
      underTag p.tag isTaken do
        ofEntries (← entries.mapM fun e => do
          let k ← expand targets depth keyTaken e.1
          let v ← expand targets depth false e.2
          return (k, v))

/-- How deep collections may lie in one another. -/
def maxDepth : Nat := 128

/-- How many aliases may be followed for everything that is written. -/
def maxExpansion : Nat := 100

/-- The value of a document's node. -/
def ofNode? (n : Node Nat) : Option Value :=
  (expand n.anchored maxDepth false n (maxExpansion * n.size)).map (·.1)

/-- The value of a document; one without a node is null. -/
def ofDocument? : Document → Option Value
  | none => some .null
  | some n => ofNode? n

/-- The value of a text. -/
def read? (text : String) : Option Value := Document.ofText? text >>= ofDocument?

end Value

end CommandSchema.Yaml
