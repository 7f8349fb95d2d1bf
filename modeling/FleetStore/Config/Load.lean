import FleetStore.Config.Validation
import FleetStore.Yaml.Reader

/-! # Loading configurations

A configuration is loaded from the text of a file: the text is read as YAML,
decoded and validated. What is wrong with a part of the document counts before
what is wrong with the text behind it.
-/

namespace FleetStore.Config

def read (text : String) : Read Config := do
  let document := Yaml.Document.read text
  let c ← decode document.root
  if document.isWhole then return c else throw .malformed

/-- The configuration in a file, of which the text is given if it can be read. -/
def load (file : Option String) : Except ConfigError Config :=
  match file with
  | none => .error .unreadable
  | some text =>
      match read text with
      | .error fault => .error (.unread fault)
      | .ok c =>
          match c.validate with
          | .error fault => .error (.invalid fault)
          | .ok () => .ok c

end FleetStore.Config
