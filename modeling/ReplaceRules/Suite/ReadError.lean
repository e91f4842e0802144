import ReplaceRules.Text.Quoted
import ReplaceRules.Yaml.Event

/-!
# Why a test file is refused
-/

namespace ReplaceRules

open Yaml (Item Encoding)

/-- Why a test file is refused. Where an event of another sort was found it is part of the reason; nothing is found where the
items have ended. -/
inductive ReadError where
  | scalarExpected (found : Option Item)
  | sequenceEndExpected (found : Option Item)
  | mappingStartExpected (found : Option Item)
  | streamStartExpected
  | streamEndExpected
  | documentStartExpected
  | documentEndExpected
  | sequenceStartExpected
  | mappingEndExpected
  | unsupportedEncoding (encoding : Encoding)
  | unknownKind (kind : String)
  | invalidXfail
  | unknownKey (key : String)
  | noPairs
  | noRules
  deriving DecidableEq, Repr

/-- The name of an encoding. -/
def Yaml.Encoding.text : Encoding → String
  | .utf8 => "Utf8"
  | .utf16le => "Utf16Le"
  | .utf16be => "Utf16Be"

/-- The wording of a refusal. -/
def ReadError.message : ReadError → String
  | .scalarExpected _ => "Scalar expected"
  | .sequenceEndExpected _ => "Sequence end expected"
  | .mappingStartExpected _ => "Mapping start expected"
  | .streamStartExpected => "Stream start expected"
  | .streamEndExpected => "Stream end expected"
  | .documentStartExpected => "Document start expected"
  | .documentEndExpected => "Document end expected"
  | .sequenceStartExpected => "Sequence start expected"
  | .mappingEndExpected => "Mapping end expected"
  | .unsupportedEncoding encoding => "Encoding " ++ encoding.text ++ " not supported"
  | .unknownKind kind => "Invalid rule kind " ++ quoted kind
  | .invalidXfail => "Invalid xfail value"
  | .unknownKey key => "Invalid token " ++ quoted key
  | .noPairs => "Rules without pairs"
  | .noRules => "Tests without preceding rules"

end ReplaceRules
