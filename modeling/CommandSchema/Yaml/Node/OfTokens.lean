import CommandSchema.Yaml.Node
import CommandSchema.Yaml.Token.OfSource

/-!
# From tokens to nodes

The grammar of YAML over tokens: a stream holds at most one document, a document one node.

* `Reader.node?` and its companions: the node that a list of tokens starts with.
* `Document.ofText?`: the document of a text, with its anchors and aliases linked. A text without
  a document is well formed; `none` inside `some` stands for it.
-/

namespace CommandSchema.Yaml

/-- The meanings of tag handles. -/
abbrev Handles := List (String × Octets)

/-- The handles that every document has. -/
def standardHandles : Handles := [("!", octets ['!']), ("!!", octets "tag:yaml.org,2002:".toList)]

/-- A tag in full. -/
def fullTag? (handles : Handles) (handle : String) (rest : Octets) : Option Octets :=
  if handle = "" then some rest else (handles.lookup handle).map (· ++ rest)

/-- The properties in front of a node: at most one anchor and one tag, in either order. -/
def readProperties? (handles : Handles) : List Token → Option (Properties String × List Token)
  | .anchor a :: .tag handle rest :: ts | .tag handle rest :: .anchor a :: ts =>
    (fullTag? handles handle rest).map fun tag => (⟨some a, some tag⟩, ts)
  | .anchor a :: ts => some (⟨some a, none⟩, ts)
  | .tag handle rest :: ts =>
    (fullTag? handles handle rest).map fun tag => (⟨none, some tag⟩, ts)
  | ts => some (⟨none, none⟩, ts)

/-- The properties of a scalar that is written: the tag of one mark says as much as none. -/
def scalarProperties (p : Properties String) : Properties String :=
  if p.tag = some (octets ['!']) then { p with tag := none } else p

/-- Where a node stands. -/
inductive Place where
  /-- Between brackets or braces. -/
  | flow
  /-- At an indentation of its own. -/
  | block
  /-- After a key or a colon, where the hyphens of a sequence need no indentation. -/
  | entry
  deriving DecidableEq, Repr

/-- Nothing is written between a hyphen and this token. -/
def endsItem : List Token → Bool
  | .blockEntry :: _ | .blockEnd :: _ => true
  | _ => false

/-- Nothing is written between a hyphen without indentation and this token. -/
def endsBareItem : List Token → Bool
  | .blockEntry :: _ | .key :: _ | .value :: _ | .blockEnd :: _ => true
  | _ => false

/-- Nothing is written between a key or value indicator of a block and this token. -/
def endsBlockEntry : List Token → Bool
  | .key :: _ | .value :: _ | .blockEnd :: _ => true
  | _ => false

/-- Nothing is written between the key indicator of a braced mapping and this token. -/
def endsFlowKey : List Token → Bool
  | .value :: _ | .flowEntry :: _ | .flowMappingEnd :: _ => true
  | _ => false

/-- Nothing is written between the value indicator of a braced mapping and this token. -/
def endsFlowValue : List Token → Bool
  | .flowEntry :: _ | .flowMappingEnd :: _ => true
  | _ => false

/-- Nothing is written between the key indicator inside brackets and this token. -/
def endsPairKey : List Token → Bool
  | .value :: _ | .flowEntry :: _ | .flowSequenceEnd :: _ => true
  | _ => false

/-- Nothing is written between the value indicator inside brackets and this token. -/
def endsPairValue : List Token → Bool
  | .flowEntry :: _ | .flowSequenceEnd :: _ => true
  | _ => false

namespace Reader

mutual

/-- A node. Every call takes one of `fuel`. -/
def node? (handles : Handles) (fuel : Nat) (place : Place) (ts : List Token) :
    Option (Node String × List Token) :=
  match fuel with
  | 0 => none
  | fuel + 1 =>
    match ts with
    | .alias name :: ts => some (.alias name, ts)
    | ts =>
      match readProperties? handles ts with
      | none => none
      | some (p, ts) =>
        match place, ts with
        | .entry, .blockEntry :: _ => do
          let (items, ts) ← bareItems? handles fuel ts
          return (.sequence p items, ts)
        | _, .scalar isPlain text :: ts => some (.scalar (scalarProperties p) isPlain text, ts)
        | _, .flowSequenceStart :: ts => do
          let (items, ts) ← flowItems? handles fuel true ts
          return (.sequence p items, ts)
        | _, .flowMappingStart :: ts => do
          let (entries, ts) ← flowEntries? handles fuel true ts
          return (.mapping p entries, ts)
        | .block, .blockSequenceStart :: ts | .entry, .blockSequenceStart :: ts => do
          let (items, ts) ← blockItems? handles fuel ts
          return (.sequence p items, ts)
        | .block, .blockMappingStart :: ts | .entry, .blockMappingStart :: ts => do
          let (entries, ts) ← blockEntries? handles fuel ts
          return (.mapping p entries, ts)
        | _, ts => if p = ⟨none, none⟩ then none else some (.scalar p true "", ts)

/-- A node, or the empty one where nothing is written. -/
def optionalNode? (handles : Handles) (fuel : Nat) (place : Place) (isAbsent : List Token → Bool)
    (ts : List Token) : Option (Node String × List Token) :=
  match fuel with
  | 0 => none
  | fuel + 1 => if isAbsent ts then some (.empty, ts) else node? handles fuel place ts

/-- The items of an indented sequence, and its end. -/
def blockItems? (handles : Handles) (fuel : Nat) (ts : List Token) :
    Option (List (Node String) × List Token) :=
  match fuel with
  | 0 => none
  | fuel + 1 =>
    match ts with
    | .blockEntry :: ts => do
      let (n, ts) ← optionalNode? handles fuel .block endsItem ts
      let (items, ts) ← blockItems? handles fuel ts
      return (n :: items, ts)
    | .blockEnd :: ts => some ([], ts)
    | _ => none

/-- The items of a sequence without indentation, which ends where no hyphen follows. -/
def bareItems? (handles : Handles) (fuel : Nat) (ts : List Token) :
    Option (List (Node String) × List Token) :=
  match fuel with
  | 0 => none
  | fuel + 1 =>
    match ts with
    | .blockEntry :: ts => do
      let (n, ts) ← optionalNode? handles fuel .block endsBareItem ts
      let (items, ts) ← bareItems? handles fuel ts
      return (n :: items, ts)
    | ts => some ([], ts)

/-- The value of an entry of a block mapping, empty without an indicator. -/
def blockValue? (handles : Handles) (fuel : Nat) (ts : List Token) :
    Option (Node String × List Token) :=
  match fuel with
  | 0 => none
  | fuel + 1 =>
    match ts with
    | .value :: ts => optionalNode? handles fuel .entry endsBlockEntry ts
    | ts => some (.empty, ts)

/-- The entries of a block mapping, and its end. -/
def blockEntries? (handles : Handles) (fuel : Nat) (ts : List Token) :
    Option (List (Node String × Node String) × List Token) :=
  match fuel with
  | 0 => none
  | fuel + 1 =>
    match ts with
    | .key :: ts => do
      let (k, ts) ← optionalNode? handles fuel .entry endsBlockEntry ts
      let (v, ts) ← blockValue? handles fuel ts
      let (entries, ts) ← blockEntries? handles fuel ts
      return ((k, v) :: entries, ts)
    | .blockEnd :: ts => some ([], ts)
    | _ => none

/-- A mapping of one entry inside brackets, after its key indicator. A key indicator with nothing
after it takes the next token with it. -/
def pair? (handles : Handles) (fuel : Nat) (ts : List Token) :
    Option ((Node String × Node String) × List Token) :=
  match fuel with
  | 0 => none
  | fuel + 1 => do
    let (k, ts) ← if endsPairKey ts then some (.empty, ts.drop 1) else node? handles fuel .flow ts
    match ts with
    | .value :: ts =>
      let (v, ts) ← optionalNode? handles fuel .flow endsPairValue ts
      return ((k, v), ts)
    | ts => return ((k, .empty), ts)

/-- The items between brackets, and the closing one; a comma stands before every item but the
first. -/
def flowItems? (handles : Handles) (fuel : Nat) (isFirst : Bool) (ts : List Token) :
    Option (List (Node String) × List Token) :=
  match fuel with
  | 0 => none
  | fuel + 1 =>
    match isFirst, ts with
    | _, .flowSequenceEnd :: ts => some ([], ts)
    | false, .flowEntry :: .flowSequenceEnd :: ts => some ([], ts)
    | false, .flowEntry :: ts => flowItem? handles fuel ts
    | false, _ => none
    | true, ts => flowItem? handles fuel ts

/-- An item between brackets and those after it. -/
def flowItem? (handles : Handles) (fuel : Nat) (ts : List Token) :
    Option (List (Node String) × List Token) :=
  match fuel with
  | 0 => none
  | fuel + 1 =>
    match ts with
    | .key :: ts => do
      let (entry, ts) ← pair? handles fuel ts
      let (items, ts) ← flowItems? handles fuel false ts
      return (.mapping .none [entry] :: items, ts)
    | ts => do
      let (n, ts) ← node? handles fuel .flow ts
      let (items, ts) ← flowItems? handles fuel false ts
      return (n :: items, ts)

/-- The value of an entry between braces, empty without an indicator. -/
def flowValue? (handles : Handles) (fuel : Nat) (ts : List Token) :
    Option (Node String × List Token) :=
  match fuel with
  | 0 => none
  | fuel + 1 =>
    match ts with
    | .value :: ts => optionalNode? handles fuel .flow endsFlowValue ts
    | ts => some (.empty, ts)

/-- The entries between braces, and the closing one; a comma stands before every entry but the
first. -/
def flowEntries? (handles : Handles) (fuel : Nat) (isFirst : Bool) (ts : List Token) :
    Option (List (Node String × Node String) × List Token) :=
  match fuel with
  | 0 => none
  | fuel + 1 =>
    match isFirst, ts with
    | _, .flowMappingEnd :: ts => some ([], ts)
    | false, .flowEntry :: .flowMappingEnd :: ts => some ([], ts)
    | false, .flowEntry :: ts => flowEntry? handles fuel ts
    | false, _ => none
    | true, ts => flowEntry? handles fuel ts

/-- An entry between braces and those after it. A key without an indicator has no value. -/
def flowEntry? (handles : Handles) (fuel : Nat) (ts : List Token) :
    Option (List (Node String × Node String) × List Token) :=
  match fuel with
  | 0 => none
  | fuel + 1 =>
    match ts with
    | .key :: ts => do
      let (k, ts) ← optionalNode? handles fuel .flow endsFlowKey ts
      let (v, ts) ← flowValue? handles fuel ts
      let (entries, ts) ← flowEntries? handles fuel false ts
      return ((k, v) :: entries, ts)
    | ts => do
      let (k, ts) ← node? handles fuel .flow ts
      let (entries, ts) ← flowEntries? handles fuel false ts
      return ((k, .empty) :: entries, ts)

end

end Reader

/-! ## Documents -/

/-- The directives in front of a document: at most one version, of the first two of the language,
and every handle once. -/
def readDirectives? (hasVersion : Bool) (handles : Handles) :
    List Token → Option (Handles × List Token)
  | .version major minor :: ts =>
    if hasVersion || major != 1 || (minor != 1 && minor != 2) then none
    else readDirectives? true handles ts
  | .handle name meaning :: ts =>
    if handles.any (·.1 == name) then none
    else readDirectives? hasVersion (handles ++ [(name, meaning)]) ts
  | ts => some (handles ++ standardHandles, ts)

/-- A directive comes next. -/
def startsDirective : List Token → Bool
  | .version .. :: _ | .handle .. :: _ => true
  | _ => false

/-- The content of a document after its start marker: nothing, if the next token belongs to no
node. -/
def endsDocument : List Token → Bool
  | [] | .documentStart :: _ | .documentEnd :: _ => true
  | ts => startsDirective ts

/-- The tokens after the end markers of a document. -/
def skipDocumentEnds (ts : List Token) : List Token := ts.dropWhile (· == .documentEnd)

/-- The node of a document. At most four calls lie between two tokens. -/
def readRoot? (handles : Handles) (ts : List Token) : Option (Node String × List Token) :=
  Reader.node? handles (4 * ts.length + 4) .block ts

/-- The node of a document and what follows it. -/
def readDocument? (ts : List Token) : Option (Node String × List Token) :=
  if startsDirective ts || ts.head? == some .documentStart then
    match readDirectives? false [] ts with
    | some (handles, .documentStart :: ts) =>
      if endsDocument ts then some (.empty, ts) else readRoot? handles ts
    | _ => none
  else readRoot? standardHandles ts

/-- A document: the node that it holds, if it holds one. -/
abbrev Document := Option (Node Nat)

/-- The document of a list of tokens; nothing but end markers may follow it. -/
def Document.ofTokens? : List Token → Option Document
  | [] => some none
  | ts =>
    match readDocument? ts with
    | none => none
    | some (n, ts) => if skipDocumentEnds ts = [] then n.link?.map some else none

/-- The document of a text. -/
def Document.ofText? (text : String) : Option Document := do
  let s ← Source.ofText? text
  let ts ← Token.ofSource? s
  Document.ofTokens? ts

end CommandSchema.Yaml
