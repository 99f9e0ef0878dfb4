import TimingReport.Proofs.Settings.TomlReading
import TimingReport.Proofs.Settings.Usable
import TimingReport.Proofs.Settings.YamlReading

/-!
# One meaning in two languages

The same settings, written in TOML and in YAML, are loaded from both texts as they were, so
they ask for the same table of rules in both.
-/

namespace TimingReport.Settings

/-- A text that decodes to settings with usable rules is loaded as these settings. -/
theorem ofText_of_decode {s : Settings} (husable : ∀ rule ∈ s.rules, rule.IsUsable)
    {language : Language} {text : String}
    (hdecode : (match language with
      | .toml => decodeToml text
      | .yaml => decodeYaml text) = .ok s) : ofText language text = .ok s := by
  have hchecked : s.checked = .ok s := checked_eq_ok_iff.mpr ⟨rfl, check_eq_ok_iff.mpr husable⟩
  cases language with
  | toml =>
      rw [ofText, show decodeToml text = .ok s from hdecode]
      exact hchecked
  | yaml =>
      rw [ofText, show decodeYaml text = .ok s from hdecode]
      exact hchecked

/-- Settings whose rules are usable are loaded as they were from their text in either
language, and both ways they give the table of these rules, or the standard one if there are
none. -/
theorem ofText_toml_yaml (s : Settings) (husable : ∀ rule ∈ s.rules, rule.IsUsable) :
    ofText .toml (Write.toml s) = .ok s ∧ ofText .yaml (Write.yaml s) = .ok s ∧
    ∃ table : RuleTable, (if s.rules = [] then .standard else ⟨s.rules⟩) = table ∧
      (ofText .toml (Write.toml s) >>= usableTable) = .ok table ∧
      (ofText .yaml (Write.yaml s) >>= usableTable) = .ok table := by
  have htoml : ofText .toml (Write.toml s) = .ok s :=
    ofText_of_decode husable (decodeToml_toml s)
  have hyaml : ofText .yaml (Write.yaml s) = .ok s :=
    ofText_of_decode husable (Yaml.decodeYaml_yaml s)
  have htable : s.usableTable = .ok (if s.rules = [] then .standard else ⟨s.rules⟩) :=
    usableTable_eq_ok_iff.mpr ⟨check_eq_ok_iff.mpr husable, rfl⟩
  refine ⟨htoml, hyaml, _, rfl, ?_, ?_⟩
  · rw [htoml]
    exact htable
  · rw [hyaml]
    exact htable

/-- Settings with an absent and an empty field, and with characters that must be escaped. -/
def sampleSettings : Settings where
  input := some "a\"b\\c\n€"
  format := some .markdown
  title := some ""
  rules := [⟨.core, ["x", "y z"]⟩, ⟨.other, ["\x00😀"]⟩]

theorem ofText_toml_yaml_sample :
    (∀ rule ∈ sampleSettings.rules, rule.IsUsable) ∧
    ofText .toml (Write.toml sampleSettings) = .ok sampleSettings ∧
    ofText .yaml (Write.yaml sampleSettings) = .ok sampleSettings ∧
    ∃ table : RuleTable, ⟨sampleSettings.rules⟩ = table ∧
      (ofText .toml (Write.toml sampleSettings) >>= usableTable) = .ok table ∧
      (ofText .yaml (Write.yaml sampleSettings) >>= usableTable) = .ok table := by
  have husable : ∀ rule ∈ sampleSettings.rules, rule.IsUsable := by
    simp [sampleSettings, Rule.IsUsable]
  exact ⟨husable, ofText_toml_yaml sampleSettings husable⟩

end TimingReport.Settings
