import RouteClient.Json.Decoder
import RouteClient.Settings

/-!
# Settings documents

Settings are read from JSON records in which every field may be left out and no unknown key may
occur. A document that has the right shape must also be valid.
-/

namespace RouteClient

namespace Settings

open Json.Decoder (Field Schema)

/-- Settings in a document. -/
def schema : Schema Settings where
  name := "GeneratorConfig"
  strict := true
  fields := Setting.all.map fun setting =>
    Field.of setting.key false Json.Decoder.string fun value s => s.set setting value

/-- Decodes settings. -/
def decode : Json.Decoder Settings :=
  schema.decode {}

/-- Reads settings from a document. -/
def parse (text : String) : Except Failure Settings :=
  match decode.run text.toList with
  | .error fault =>
    let cause := fault.message text
    .error (.serialization cause (some cause))
  | .ok s => do
    s.validate
    return s

/-- Settings as they are written. -/
def toJson (s : Settings) : Json :=
  .object (Setting.all.map fun setting => (setting.key, .string (s.get setting)))

end Settings

end RouteClient
