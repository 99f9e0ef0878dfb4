import TimingReport.FileFault
import TimingReport.Path
import TimingReport.Settings.Toml
import TimingReport.Settings.Yaml
import TimingReport.Text.Utf8

/-!
# Loading settings

Settings are loaded from a text of one of two languages and are checked, so that loaded
settings have usable rules. The name of a file tells the language.
-/

namespace TimingReport

/-- Why settings cannot be loaded or used. -/
inductive SettingsFault where
  | unreadable (cause : FileFault)
  | badToml (cause : Settings.Misfit)
  | badYaml (cause : Settings.Misfit)
  | badRules (cause : RuleFault)

namespace SettingsFault

/-- The wording of a fault of settings. -/
def message : SettingsFault → String
  | unreadable cause => "IO error: " ++ cause.message
  | badToml cause => "TOML parse error: " ++ cause.message
  | badYaml cause => "YAML parse error: " ++ cause.message
  | badRules cause => "Invalid configuration: " ++ cause.message

/-- The faults behind a fault of settings. -/
def causes : SettingsFault → List String
  | unreadable cause => [cause.message]
  | badToml cause => [cause.message]
  | badYaml cause => [cause.message]
  | badRules _ => []

end SettingsFault

namespace Settings

/-- The languages of settings. -/
inductive Language where
  | toml
  | yaml
deriving DecidableEq

/-- The language of a file, which its extension tells. -/
def Language.ofPath (path : String) : Language :=
  match Path.extension? path with
  | some "yaml" => yaml
  | some "yml" => yaml
  | _ => toml

/-- The settings, if their rules are usable. -/
def checked (s : Settings) : Except SettingsFault Settings :=
  match s.check with
  | .ok () => .ok s
  | .error fault => .error (.badRules fault)

/-- The settings of a text. -/
def ofText (language : Language) (text : String) : Except SettingsFault Settings :=
  match language with
  | .toml => (decodeToml text).mapError .badToml >>= checked
  | .yaml => (decodeYaml text).mapError .badYaml >>= checked

/-- The settings of bytes, which must be a text. -/
def ofBytes (language : Language) (bytes : List UInt8) : Except SettingsFault Settings :=
  match Text.Utf8.decode? bytes with
  | some text => ofText language text
  | none => .error (.unreadable .noText)

/-- The table of the settings, whose rules must be usable. -/
def usableTable (s : Settings) : Except SettingsFault RuleTable := s.table.mapError .badRules

end Settings

end TimingReport
