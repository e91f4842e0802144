import ReplaceRules.Yaml.Encoding

/-!
# YAML tokens

The marks and the scalars of a YAML file. The structure of blocks, which the file shows by indentation, has tokens of its own.
Of a tag only its handle is kept, since a handle has to be declared.
-/

namespace ReplaceRules.Yaml

/-- A mark or a scalar. -/
inductive Token where
  | streamStart (encoding : Encoding)
  | streamEnd
  | versionDirective (major minor : Nat)
  | tagDirective (handle : String)
  | documentStart
  | documentEnd
  | blockSequenceStart
  | blockMappingStart
  | blockEnd
  | flowSequenceStart
  | flowSequenceEnd
  | flowMappingStart
  | flowMappingEnd
  | blockEntry
  | flowEntry
  | key
  | value
  | alias
  | anchor
  | tag (handle : String)
  | scalar (value : String)
  deriving DecidableEq, Repr

end ReplaceRules.Yaml
