import ReplaceRules.Yaml.Encoding

/-!
# YAML events

The content of a YAML file as a sequence of events: what begins and ends, and the scalars in between. A file that is not
well-formed has the events up to the first fault, and then the fault.
-/

namespace ReplaceRules.Yaml

/-- A piece of the content of a file. -/
inductive Event where
  /-- The encoding is missing where it is not known. -/
  | streamStart (encoding : Option Encoding)
  | streamEnd
  | documentStart
  | documentEnd
  | alias
  | scalar (value : String)
  | sequenceStart
  | sequenceEnd
  | mappingStart
  | mappingEnd
  deriving DecidableEq, Repr

/-- What a reader of events gets: an event, or the news that the file is not well-formed. -/
inductive Item where
  | event (event : Event)
  | fault
  deriving DecidableEq, Repr

end ReplaceRules.Yaml
