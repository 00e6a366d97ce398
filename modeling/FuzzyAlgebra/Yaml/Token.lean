import FuzzyAlgebra.Yaml.Cursor

/-!
# Tokens of YAML texts

The pieces that the structure of a text is built of. Indentation is made explicit: a block that is
indented further than the one around it starts and ends with tokens of its own.
-/

namespace FuzzyAlgebra.Yaml

inductive Token where
  /-- The version of the format that the text says it is in. -/
  | versionDirective (major minor : Nat)
  /-- A handle and what it stands for at the front of tags. -/
  | tagDirective (handle expansion : String)
  | otherDirective
  | documentStart
  | documentEnd
  | blockSequenceStart
  | blockMappingStart
  | blockEnd
  | flowSequenceStart
  | flowSequenceEnd
  | flowMappingStart
  | flowMappingEnd
  | blockEntry
  | flowEntry
  | key
  | value
  | alias (name : String)
  | anchor (name : String)
  | tag (handle : Option String) (suffix : String)
  | scalar (text : String) (plain : Bool)
  /-- The end of the text. -/
  | streamEnd
  /-- The place where no further token can be read. -/
  | broken (p : Problem)

end FuzzyAlgebra.Yaml
