import CommandSchema.Yaml.Token

/-!
# YAML nodes

A YAML document as a tree, before any of its scalars has a kind. Aliases stand in it as leaves.

* `Node`: the tree; its anchors and aliases carry labels.
* `Node.link?`: replaces the names of anchors and aliases by slots, so that every alias points at
  an anchor before it.
* `Node.anchored`: the nodes with an anchor, in the order of their starts.
* `Node.size`: how much is written in a tree, to bound what its aliases may expand to.
-/

namespace CommandSchema.Yaml

/-- What stands in front of a node. -/
structure Properties (label : Type) where
  anchor : Option label
  tag : Option Octets
  deriving DecidableEq, Repr

/-- A node without anchor and tag. -/
def Properties.none {label : Type} : Properties label := ⟨.none, .none⟩

/-- A node of a document; anchors and aliases are told apart by labels. -/
inductive Node (label : Type) where
  | alias (target : label)
  | scalar (properties : Properties label) (isPlain : Bool) (text : String)
  | sequence (properties : Properties label) (items : List (Node label))
  | mapping (properties : Properties label) (entries : List (Node label × Node label))

namespace Node

variable {label : Type}

/-- The node that stands where nothing is written. -/
def empty : Node label := .scalar .none true ""

/-! ## Labels -/

/-- The anchors that have been seen: every name with the slot it got last. -/
abbrev Slots := List (String × Nat)

/-- Gives a name the next slot: the number of names before it. A name that is anchored again
moves to a slot of its own, but counts as one name only. -/
def Slots.bind (slots : Slots) (name : String) : Slots × Nat :=
  ((name, slots.length) :: slots.filter (·.1 != name), slots.length)

/-- The properties with a slot in place of the name. -/
def linkProperties (slots : Slots) (p : Properties String) : Slots × Properties Nat :=
  match p.anchor with
  | none => (slots, ⟨none, p.tag⟩)
  | some name =>
    let (slots, slot) := slots.bind name
    (slots, ⟨some slot, p.tag⟩)

mutual

/-- A tree with slots in place of names, from the slots before it; also the slots after it. There
is none if an alias names no anchor before it. -/
def linkFrom? (slots : Slots) : Node String → Option (Slots × Node Nat)
  | .alias name => (slots.lookup name).map fun slot => (slots, .alias slot)
  | .scalar p isPlain text =>
    let (slots, p) := linkProperties slots p
    some (slots, .scalar p isPlain text)
  | .sequence p items =>
    let (slots, p) := linkProperties slots p
    (linkItems? slots items).map fun (slots, items) => (slots, .sequence p items)
  | .mapping p entries =>
    let (slots, p) := linkProperties slots p
    (linkEntries? slots entries).map fun (slots, entries) => (slots, .mapping p entries)

/-- `linkFrom?` for the items of a sequence. -/
def linkItems? (slots : Slots) : List (Node String) → Option (Slots × List (Node Nat))
  | [] => some (slots, [])
  | n :: items => do
    let (slots, n) ← linkFrom? slots n
    let (slots, items) ← linkItems? slots items
    return (slots, n :: items)

/-- `linkFrom?` for the entries of a mapping. -/
def linkEntries? (slots : Slots) :
    List (Node String × Node String) → Option (Slots × List (Node Nat × Node Nat))
  | [] => some (slots, [])
  | (k, v) :: entries => do
    let (slots, k) ← linkFrom? slots k
    let (slots, v) ← linkFrom? slots v
    let (slots, entries) ← linkEntries? slots entries
    return (slots, (k, v) :: entries)

end

/-- A tree with slots in place of names. -/
def link? (n : Node String) : Option (Node Nat) := (linkFrom? [] n).map (·.2)

/-- A node under its anchor, if it has one. -/
def underAnchor (p : Properties label) (n : Node label) : List (label × Node label) :=
  match p.anchor with
  | none => []
  | some a => [(a, n)]

mutual

/-- The nodes with an anchor, in the order of their starts. -/
def anchored : Node label → List (label × Node label)
  | .alias _ => []
  | .scalar p isPlain text => underAnchor p (.scalar p isPlain text)
  | .sequence p items => underAnchor p (.sequence p items) ++ anchoredItems items
  | .mapping p entries => underAnchor p (.mapping p entries) ++ anchoredEntries entries

/-- `anchored` for the items of a sequence. -/
def anchoredItems : List (Node label) → List (label × Node label)
  | [] => []
  | n :: items => anchored n ++ anchoredItems items

/-- `anchored` for the entries of a mapping. -/
def anchoredEntries : List (Node label × Node label) → List (label × Node label)
  | [] => []
  | (k, v) :: entries => anchored k ++ anchored v ++ anchoredEntries entries

end

mutual

/-- How much is written in a tree: every leaf counts once, every collection twice. -/
def size : Node label → Nat
  | .alias _ => 1
  | .scalar .. => 1
  | .sequence _ items => 2 + itemsSize items
  | .mapping _ entries => 2 + entriesSize entries

/-- `size` for the items of a sequence. -/
def itemsSize : List (Node label) → Nat
  | [] => 0
  | n :: items => size n + itemsSize items

/-- `size` for the entries of a mapping. -/
def entriesSize : List (Node label × Node label) → Nat
  | [] => 0
  | (k, v) :: entries => size k + size v + entriesSize entries

end

end Node

end CommandSchema.Yaml
