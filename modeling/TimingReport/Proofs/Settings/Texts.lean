import Mathlib.Tactic.Ring
import TimingReport.Settings
import TimingReport.Settings.Misfit
import TimingReport.Toml.Text

/-!
# Settings as text

Settings written as a document of TOML and as one of YAML. Strings stand between double
quotes, and in them every character but printable ASCII, and every quote and backslash, is
written with the eight digits of its code point. So both documents are plain lines.
-/

namespace TimingReport.Settings.Write

/-! ## Strings -/

/-- A digit to base sixteen. -/
def hexDigit (n : Nat) : Char := (Nat.digitChar n).toUpper

/-- The last `count` digits of a number to base sixteen. -/
def hexDigits : Nat → Nat → List Char
  | 0, _ => []
  | count + 1, n => hexDigit (n / 16 ^ count % 16) :: hexDigits count n

/-- The character stands between quotes as it is. -/
def isVerbatim (c : Char) : Bool :=
  0x20 ≤ c.toNat && c.toNat ≤ 0x7E && c != '"' && c != '\\'

/-- A character between quotes. -/
def quotedChar (c : Char) : List Char :=
  if isVerbatim c then [c] else '\\' :: 'U' :: hexDigits 8 c.toNat

/-- A text between quotes. -/
def quoted (text : String) : List Char := '"' :: text.toList.flatMap quotedChar ++ ['"']

/-- A list of texts in brackets. -/
def list (texts : List String) : List Char :=
  '[' :: List.intercalate [',', ' '] (texts.map quoted) ++ [']']

/-! ## Documents -/

/-- A setting that may be absent, with its name and its text. -/
def given (name : String) (text : Option String) : List (String × String) :=
  text.toList.map fun text => (name, text)

/-- The settings that are given, but for the rules. -/
def entries (s : Settings) : List (String × String) := List.flatten [
  given "input" s.input, given "output" s.output,
  given "format" (s.format.map Format.name), given "title" s.title]

/-- A line that sets a key, with a mark between the key and its value. -/
def line (mark name : String) (value : List Char) : List Char :=
  name.toList ++ mark.toList ++ value ++ ['\n']

/-- A line of TOML that sets a key. -/
def tomlLine : String → List Char → List Char := line " = "

/-- A rule as a table of TOML. -/
def tomlRule (rule : Rule) : List Char :=
  "[[rules]]\n".toList ++ tomlLine categoryField (quoted rule.category.key)
    ++ tomlLine patternsField (list rule.patterns)

/-- Settings as a document of TOML. -/
def toml (s : Settings) : String :=
  String.ofList ((entries s).flatMap (fun entry => tomlLine entry.1 (quoted entry.2))
    ++ s.rules.flatMap tomlRule)

/-- A line of YAML that sets a key, behind its indentation. -/
def yamlLine : String → List Char → List Char := line ": "

/-- A rule as an item of a YAML sequence. -/
def yamlRule (rule : Rule) : List Char :=
  "  - ".toList ++ yamlLine categoryField (quoted rule.category.key)
    ++ "    ".toList ++ yamlLine patternsField (list rule.patterns)

/-- The rules as a YAML sequence, which is left out if there are none. -/
def yamlRules (rules : List Rule) : List Char :=
  if rules = [] then [] else "rules:\n".toList ++ rules.flatMap yamlRule

/-- Settings as a document of YAML. -/
def yaml (s : Settings) : String :=
  String.ofList ((entries s).flatMap (fun entry => yamlLine entry.1 (quoted entry.2))
    ++ yamlRules s.rules)

example : toml { title := some "a\n", rules := [⟨.core, ["x", "y z"]⟩] } =
    "title = \"a\\U0000000A\"\n[[rules]]\ncategory = \"core\"\ncontains = [\"x\", \"y z\"]\n" :=
  by decide

example : yaml { title := some "a\n", rules := [⟨.core, ["x", "y z"]⟩] } =
    "title: \"a\\U0000000A\"\nrules:\n  - category: \"core\"\n    contains: [\"x\", \"y z\"]\n" :=
  by rfl

/-! ## Names -/

theorem map_fst_given (name : String) (text : Option String) :
    ((given name text).map Prod.fst).Sublist [name] := by
  cases text with
  | none => exact List.nil_sublist _
  | some text => exact List.Sublist.refl _

/-- The names of the settings that are given, and then that of the rules, stand in the order
of all names. -/
theorem map_fst_entries (s : Settings) :
    ((entries s).map Prod.fst ++ ["rules"]).Sublist fieldNames := by
  simp only [entries, List.flatten_cons, List.flatten_nil, List.append_nil, List.map_append]
  have hinner := (map_fst_given "format" (s.format.map Format.name)).append
    (map_fst_given "title" s.title)
  exact ((map_fst_given "input" s.input).append
    ((map_fst_given "output" s.output).append hinner)).append_right ["rules"]

theorem mem_fieldNames_of_mem_entries {s : Settings} {entry : String × String}
    (hentry : entry ∈ entries s) : entry.1 ∈ fieldNames :=
  (map_fst_entries s).subset (List.mem_append_left _ (List.mem_map_of_mem hentry))

/-- No name is written twice. -/
theorem nodup_names (s : Settings) : ((entries s).map Prod.fst ++ ["rules"]).Nodup :=
  (map_fst_entries s).nodup (by decide)

/-! ## Characters -/

/-- A hexadecimal digit moves from what is to be read to what was read. -/
theorem hexDigits_value (value n count : Nat) :
    (value * 16 + n / 16 ^ count % 16) * 16 ^ count + n % 16 ^ count =
      value * 16 ^ (count + 1) + n % 16 ^ (count + 1) := by
  rw [Nat.mod_pow_succ]
  ring

/-- A written digit has the value that it was written for. -/
theorem hexValue?_hexDigit : ∀ d < 16, Toml.hexValue? (hexDigit d) = some d := by
  decide

/-- The code point of a character is read as it. -/
theorem charOf?_toNat (c : Char) : Toml.charOf? c.toNat = some c :=
  dif_pos c.valid

/-- Eight digits are enough for every character. -/
theorem toNat_lt (c : Char) : c.toNat < 16 ^ 8 := by
  have hsize := c.val.toNat_lt
  exact hsize

/-! ## Plain texts -/

/-- The character is printable ASCII or a line feed. -/
def IsPlain (c : Char) : Prop := c = '\n' ∨ 0x20 ≤ c.toNat ∧ c.toNat ≤ 0x7E

instance (c : Char) : Decidable (IsPlain c) := inferInstanceAs (Decidable (_ ∨ _))

theorem isPlain_hexDigit : ∀ d < 16, IsPlain (hexDigit d) := by decide

theorem isPlain_of_isVerbatim {c : Char} (hc : isVerbatim c) : IsPlain c := by
  simp only [isVerbatim, Bool.and_eq_true, decide_eq_true_eq] at hc
  exact .inr ⟨hc.1.1.1, hc.1.1.2⟩

theorem isPlain_of_mem_hexDigits {c : Char} {n count : Nat} (hc : c ∈ hexDigits count n) :
    IsPlain c := by
  induction count with
  | zero => cases hc
  | succ count ih =>
      rcases List.mem_cons.mp hc with rfl | hc
      · exact isPlain_hexDigit _ (Nat.mod_lt _ (by decide))
      · exact ih hc

/-- A character is written with visible characters of ASCII only. -/
theorem isPlain_of_mem_quotedChar {c d : Char} (hc : c ∈ quotedChar d) : IsPlain c := by
  by_cases hd : isVerbatim d
  · rw [quotedChar, if_pos hd, List.mem_singleton] at hc
    exact hc ▸ isPlain_of_isVerbatim hd
  · rw [quotedChar, if_neg hd, List.mem_cons, List.mem_cons] at hc
    rcases hc with rfl | rfl | hc
    · decide
    · decide
    · exact isPlain_of_mem_hexDigits hc

/-- The text is made of printable ASCII and line feeds. -/
def Plain (text : List Char) : Prop := ∀ c ∈ text, IsPlain c

instance (text : List Char) : Decidable (Plain text) := List.decidableBAll IsPlain text

theorem Plain.append {first second : List Char} (hfirst : Plain first) (hsecond : Plain second) :
    Plain (first ++ second) :=
  List.forall_mem_append.mpr ⟨hfirst, hsecond⟩

theorem Plain.flatMap {α : Type} {write : α → List Char} {l : List α}
    (hwrite : ∀ a ∈ l, Plain (write a)) : Plain (l.flatMap write) := by
  intro c hc
  obtain ⟨a, ha, hc⟩ := List.mem_flatMap.mp hc
  exact hwrite a ha c hc

/-- Quoted texts are plain. -/
theorem plain_quoted (text : String) : Plain (quoted text) := by
  have hchars : Plain (text.toList.flatMap quotedChar) :=
    Plain.flatMap fun _ _ _ => isPlain_of_mem_quotedChar
  exact ((show Plain ['"'] by decide).append hchars).append (by decide)

theorem plain_list (texts : List String) : Plain (list texts) := by
  have htexts : Plain (List.intercalate [',', ' '] (texts.map quoted)) := by
    induction texts with
    | nil => exact fun _ hc => absurd hc List.not_mem_nil
    | cons text texts ih =>
        cases texts with
        | nil => simpa using plain_quoted text
        | cons other others =>
            rw [List.map_cons, List.map_cons, List.intercalate_cons_cons]
            exact ((plain_quoted text).append (by decide)).append ih
  exact ((show Plain ['['] by decide).append htexts).append (by decide)

theorem plain_line {mark name : String} {value : List Char} (hmark : Plain mark.toList)
    (hname : Plain name.toList) (hvalue : Plain value) : Plain (line mark name value) :=
  ((hname.append hmark).append hvalue).append (by decide)

theorem plain_entries {mark : String} (hmark : Plain mark.toList) (s : Settings) :
    Plain ((entries s).flatMap fun entry => line mark entry.1 (quoted entry.2)) := by
  have hnames : ∀ name ∈ fieldNames, Plain name.toList := by decide
  exact Plain.flatMap fun entry hentry =>
    plain_line hmark (hnames _ (mem_fieldNames_of_mem_entries hentry)) (plain_quoted entry.2)

/-- Settings are written as plain text in TOML. -/
theorem plain_toml (s : Settings) : Plain (toml s).toList := by
  rw [toml, String.toList_ofList]
  have hmark : Plain " = ".toList := by decide
  refine (plain_entries hmark s).append (Plain.flatMap fun rule _ => ?_)
  exact ((show Plain "[[rules]]\n".toList by decide).append
    (plain_line hmark (by decide) (plain_quoted _))).append
    (plain_line hmark (by decide) (plain_list _))

/-- Settings are written as plain text in YAML. -/
theorem plain_yaml (s : Settings) : Plain (yaml s).toList := by
  rw [yaml, String.toList_ofList]
  have hmark : Plain ": ".toList := by decide
  have hrule (rule : Rule) : Plain (yamlRule rule) :=
    (((show Plain "  - ".toList by decide).append
      (plain_line hmark (by decide) (plain_quoted _))).append (by decide)).append
      (plain_line hmark (by decide) (plain_list _))
  refine (plain_entries hmark s).append ?_
  by_cases hrules : s.rules = []
  · rw [yamlRules, if_pos hrules]
    decide
  · rw [yamlRules, if_neg hrules]
    exact (show Plain "rules:\n".toList by decide).append (Plain.flatMap fun rule _ => hrule rule)

end TimingReport.Settings.Write
