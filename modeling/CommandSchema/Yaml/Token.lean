/-!
# YAML tokens

What a YAML text is made of once white space and comments are gone. Indentation has become tokens
that open and close collections, and every key of a mapping has a token in front.
-/

namespace CommandSchema.Yaml

/-- The octets of a tag. Escapes in a tag may write octets that are no text. -/
abbrev Octets := List UInt8

/-- One token. -/
inductive Token where
  /-- A directive that names the version of the language. -/
  | version (major minor : Nat)
  /-- A directive that gives a tag handle its meaning. -/
  | handle (name : String) (meaning : Octets)
  | documentStart
  | documentEnd
  | blockSequenceStart
  | blockMappingStart
  | blockEnd
  | flowSequenceStart
  | flowSequenceEnd
  | flowMappingStart
  | flowMappingEnd
  /-- The hyphen in front of an item. -/
  | blockEntry
  /-- The comma between items or entries. -/
  | flowEntry
  /-- In front of a key. -/
  | key
  /-- In front of a value. -/
  | value
  | alias (name : String)
  | anchor (name : String)
  /-- A tag: a handle, empty for a tag that is written in full, and the rest. -/
  | tag (handle : String) (rest : Octets)
  /-- A scalar; only the kind of a plain one depends on its text. -/
  | scalar (isPlain : Bool) (text : String)
  deriving DecidableEq, Repr

end CommandSchema.Yaml
