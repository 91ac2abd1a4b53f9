import RetailReport.Config.Basic
import RetailReport.Toml.Reader

/-!
# Configurations as TOML

A configuration is written as a TOML text, which is decoded in the dialect of that format.

## Main definitions

* `ReportConfig.parse`: the configuration of a text.
* `ReportConfig.load`: the configuration of a file.
-/

namespace RetailReport.ReportConfig

/-- **The configuration of a text**, if its values can be used. -/
def parse (text : String) : Except ConfigError ReportConfig :=
  match Toml.parse? text with
  | none => .error .unparsable
  | some t =>
    match decodeIn .toml t.toJson with
    | .error _ => .error .unparsable
    | .ok c =>
      match c.check with
      | .ok () => .ok c
      | .error fault => .error (.invalid fault)

/-- The configuration of a file, given its content unless it cannot be read. -/
def load (path : String) (content : Option String) : Except ConfigError ReportConfig :=
  match content with
  | some text => parse text
  | none => .error (.unreadable path)

/-- The configuration of a file, or the default one. -/
def loadOrDefault (path : String) (content : Option String) : ReportConfig :=
  match load path content with
  | .ok c => c
  | .error _ => {}

end RetailReport.ReportConfig
