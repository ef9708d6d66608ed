import Lexis.Dictionary
import Lexis.Kind
import Lexis.Numeral

/-!
What a scan depends on beside its text: the keyword table, the width of integers, and the name of
texts that have no name of their own. A `Config` holds only what makes sense: its table maps words
to keywords, and its width is positive. `Lexis.Config.Settings` checks settings of other origin.
-/

namespace Lexis

/-- Checked settings of a scan. -/
structure Config where
  keywords : Dictionary String Keyword
  bits : Nat
  file : String
  words : ∀ e ∈ keywords.entries, IsWord e.1.toList
  bits_pos : 0 < bits

namespace Config

/-- The table of the reserved words of the language. -/
def standardTable : Dictionary String Keyword := ⟨Keyword.standard, by decide⟩

theorem isWord_of_mem_standard : ∀ e ∈ Keyword.standard, IsWord e.1.toList := by decide

def standardBits : Nat := 32

def unknownFile : String := "<unknown>"

/-- The settings where nothing else is set. -/
def standard : Config where
  keywords := standardTable
  bits := standardBits
  file := unknownFile
  words := isWord_of_mem_standard
  bits_pos := by decide

def maxInteger (config : Config) : Nat := Limit.greatest config.bits

/-- The limit for numerals, if it can be written. -/
def limit (config : Config) : Except Decimal.TooLong Limit := Limit.ofBits config.bits

/-- The greatest integer in decimal digits, if they are not too many. -/
def maxIntegerText (config : Config) : Except Decimal.TooLong String :=
  config.limit.map fun limit => String.ofList limit.digits

/-- The name of a text: its own, or the one that is set. -/
def fileName (config : Config) (own : Option String) : String := own.getD config.file

/-- Both have the same width, the same name and the same keywords, in whatever order. -/
def Same (a b : Config) : Prop :=
  a.bits = b.bits ∧ a.file = b.file ∧ a.keywords.Same b.keywords

instance (a b : Config) : Decidable (Same a b) :=
  inferInstanceAs (Decidable (_ ∧ _ ∧ _))

end Config

end Lexis
