/-!
# Identifiers

Names of ASCII letters, digits and underscores that do not start with a digit.

* `isIdentifier`: the whole text is such a name.
-/

namespace CommandSchema.Text

/-- A character that an identifier may start with. -/
def isIdentifierStart (c : Char) : Bool := c.isAlpha || c == '_'

/-- A character that an identifier may go on with. -/
def isIdentifierRest (c : Char) : Bool := c.isAlphanum || c == '_'

/-- A letter or an underscore, then letters, digits and underscores, all of ASCII. -/
def isIdentifier (s : String) : Bool :=
  match s.toList with
  | [] => false
  | c :: cs => isIdentifierStart c && cs.all isIdentifierRest

end CommandSchema.Text
