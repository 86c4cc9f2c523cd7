import FleetSharding.Config
import FleetSharding.Yaml.Decode

/-!
# Configuration files

A configuration file is one YAML document; what it does not say stays at its default.  The document
is read while its text is, so whatever is wrong with a value comes before what is wrong with the
text behind it, and before a second document.  -/

namespace FleetSharding

/-- Why a text gives no configuration. -/
inductive ConfigFault where
  /-- It is not one well-formed document. -/
  | illFormed
  /-- The document does not hold a configuration. -/
  | data (error : DecodeError)
  deriving DecidableEq, Repr

namespace FleetConfig

/-- The configuration in a text, with what a reader makes of the text. -/
def parse (load : String → Yaml.Loaded) (text : String) : Except ConfigFault FleetConfig :=
  match FleetConfig.read (load text).document.whole with
  | .error .illFormed => .error .illFormed
  | .error e => .error (.data e)
  | .ok c => if (load text).isWhole then .ok c else .error .illFormed

def ofYaml (text : String) : Except ConfigFault FleetConfig :=
  parse Yaml.load text

end FleetConfig

end FleetSharding
