import TimingReport.Command.Options
import TimingReport.Proofs.Settings.Usable

/-!
# What a job is resolved from

Each setting of a job is what the command line says of it, else what the settings of a file say,
else what holds when nothing is said. Nothing else matters to it, with one exception: the name
of the output that holds when none is given ends as the format asks for.
-/

namespace TimingReport.Command

/-! ## One setting -/

/-- A setting is what an option says, else what a file says, else the standard. -/
inductive Settles {α : Type} (standard : α) : Option α → Option α → α → Prop
  | option {a : α} {file : Option α} : Settles standard (some a) file a
  | file {a : α} : Settles standard none (some a) a
  | standard : Settles standard none none standard

theorem settles_iff {α : Type} {standard a : α} {option file : Option α} :
    Settles standard option file a ↔ (option.or file).getD standard = a := by
  constructor
  · rintro (_ | _ | _) <;> rfl
  · rintro rfl
    cases option with
    | some a => exact .option
    | none =>
      cases file with
      | some a => exact .file
      | none => exact .standard

theorem Settles.unique {α : Type} {standard a b : α} {option file : Option α}
    (hfirst : Settles standard option file a) (hsecond : Settles standard option file b) :
    a = b :=
  (settles_iff.mp hfirst).symm.trans (settles_iff.mp hsecond)

/-- A standard that is not used does not matter. -/
theorem Settles.unique_of_said {α : Type} {standard other a b : α} {option file : Option α}
    (hsaid : option ≠ none ∨ file ≠ none) (hfirst : Settles standard option file a)
    (hsecond : Settles other option file b) : a = b := by
  cases hfirst with
  | option => exact Settles.option.unique hsecond
  | file => exact Settles.file.unique hsecond
  | standard => exact absurd rfl (hsaid.elim id id)

/-! ## The output that is not named -/

/-- The output that is written in a format when none is named. -/
inductive StandardOutput : Format → String → Prop
  | html : StandardOutput .html "performance_report.html"
  | markdown : StandardOutput .markdown "performance_report.md"
  | csv : StandardOutput .csv "performance_report.csv"

theorem standardOutput_iff {format : Format} {output : String} :
    StandardOutput format output ↔ Options.outputFor format = output := by
  constructor
  · rintro (_ | _ | _) <;> decide
  · rintro rfl
    cases format with
    | html => exact .html
    | markdown => exact .markdown
    | csv => exact .csv

/-- The standard output tells the format. -/
theorem StandardOutput.eq_iff {format other : Format} {output otherOutput : String}
    (hfirst : StandardOutput format output) (hsecond : StandardOutput other otherOutput) :
    output = otherOutput ↔ format = other := by
  cases hfirst <;> cases hsecond <;> decide

/-! ## The job -/

/-- The job is what options and settings ask for. -/
structure Resolves (options : Options) (settings : Settings) (job : Job) : Prop where
  table : settings.usableTable = .ok job.table
  format : Settles .html options.format settings.format job.format
  input : Settles "benchmark_results.json" options.input settings.input job.input
  title : Settles "Performance Benchmark Report" options.title settings.title job.title
  output : ∃ standard, StandardOutput job.format standard ∧
    Settles standard options.output settings.output job.output

namespace Options

variable {options other : Options} {settings otherSettings : Settings} {job otherJob : Job}

/-- The job that is resolved once the table is known. -/
def jobWith (options : Options) (settings : Settings) (table : RuleTable) : Job :=
  let format := (options.format.or settings.format).getD .html
  { input := (options.input.or settings.input).getD Job.standardInput
    output := (options.output.or settings.output).getD (outputFor format)
    format
    title := (options.title.or settings.title).getD View.standardTitle
    table }

theorem resolve_eq_map (options : Options) (settings : Settings) :
    options.resolve settings = settings.usableTable.map (options.jobWith settings) := by
  unfold resolve
  cases settings.usableTable <;> rfl

theorem resolve_eq_ok_iff : options.resolve settings = .ok job ↔ Resolves options settings job := by
  rw [resolve_eq_map, Outcome.map_eq_ok_iff]
  constructor
  · rintro ⟨table, htable, rfl⟩
    exact {
      table := htable
      format := settles_iff.mpr rfl
      input := settles_iff.mpr rfl
      title := settles_iff.mpr rfl
      output := ⟨_, standardOutput_iff.mpr rfl, settles_iff.mpr rfl⟩ }
  · rintro ⟨htable, hformat, hinput, htitle, standard, hstandard, houtput⟩
    refine ⟨job.table, htable, ?_⟩
    obtain ⟨input, output, format, title, table⟩ := job
    dsimp only at hformat hinput htitle hstandard houtput ⊢
    obtain rfl := settles_iff.mp hformat
    obtain rfl := standardOutput_iff.mp hstandard
    obtain rfl := settles_iff.mp hinput
    obtain rfl := settles_iff.mp htitle
    obtain rfl := settles_iff.mp houtput
    rfl

theorem resolve_eq_error_iff {fault : SettingsFault} :
    options.resolve settings = .error fault ↔ settings.usableTable = .error fault := by
  rw [resolve_eq_map, Outcome.map_eq_error_iff]

end Options

/-! ## Two jobs -/

/-- What two jobs have in common because the command lines and the settings that they are
resolved from say the same of a setting, whatever is said of the others. An output that is not
named goes with the format. -/
structure ResolveAlike (options other : Options) (settings otherSettings : Settings)
    (job otherJob : Job) : Prop where
  table : settings.rules = otherSettings.rules → job.table = otherJob.table
  format : options.format = other.format → settings.format = otherSettings.format →
    job.format = otherJob.format
  input : options.input = other.input → settings.input = otherSettings.input →
    job.input = otherJob.input
  title : options.title = other.title → settings.title = otherSettings.title →
    job.title = otherJob.title
  output : options.output = other.output → settings.output = otherSettings.output →
    if options.output = none ∧ settings.output = none then
      job.output = otherJob.output ↔ job.format = otherJob.format
    else job.output = otherJob.output

theorem Resolves.alike {options other : Options} {settings otherSettings : Settings}
    {job otherJob : Job} (hjob : Resolves options settings job)
    (hother : Resolves other otherSettings otherJob) :
    ResolveAlike options other settings otherSettings job otherJob where
  table hrules := by
    have htable := Settings.usableTable_congr hrules
    rw [hjob.table, hother.table] at htable
    exact Except.ok.inj htable
  format hoption hfile := (hoption ▸ hfile ▸ hjob.format).unique hother.format
  input hoption hfile := (hoption ▸ hfile ▸ hjob.input).unique hother.input
  title hoption hfile := (hoption ▸ hfile ▸ hjob.title).unique hother.title
  output hoption hfile := by
    obtain ⟨standard, hstandard, houtput⟩ := hjob.output
    obtain ⟨otherStandard, hotherStandard, hotherOutput⟩ := hother.output
    rw [← hoption, ← hfile] at hotherOutput
    split
    next hnone =>
      rw [hnone.1, hnone.2] at houtput hotherOutput
      rw [houtput.unique .standard, hotherOutput.unique .standard]
      exact hstandard.eq_iff hotherStandard
    next hsome =>
      exact Settles.unique_of_said (Classical.not_and_iff_not_or_not.mp hsome) houtput hotherOutput

/-- A job is refused exactly for what is wrong with the rules, and otherwise each of its settings
is resolved from what is said of that setting alone. What a command line or a file says of other
settings does not matter to it, but for the format that an output without a name goes with. -/
theorem Options.resolve_from_sources :
    (∀ (options : Options) (settings : Settings),
      (∀ fault, options.resolve settings = .error fault ↔ settings.usableTable = .error fault) ∧
      ∀ job, options.resolve settings = .ok job ↔ Resolves options settings job) ∧
    ∀ (options other : Options) (settings otherSettings : Settings),
      (settings.rules = otherSettings.rules → ∀ fault,
        options.resolve settings = .error fault ↔ other.resolve otherSettings = .error fault) ∧
      ∀ job otherJob, options.resolve settings = .ok job →
        other.resolve otherSettings = .ok otherJob →
        ResolveAlike options other settings otherSettings job otherJob := by
  refine ⟨fun options settings => ⟨fun fault => resolve_eq_error_iff,
    fun job => resolve_eq_ok_iff⟩, fun options other settings otherSettings => ⟨?_, ?_⟩⟩
  · intro hrules fault
    rw [resolve_eq_error_iff, resolve_eq_error_iff, Settings.usableTable_congr hrules]
  · intro job otherJob hjob hother
    exact (resolve_eq_ok_iff.mp hjob).alike (resolve_eq_ok_iff.mp hother)

/-- The format of the option decides the ending of the output that is not named, not that of
the file. -/
example : ({ format := some .csv } : Options).resolve { format := some .markdown } = .ok
    { input := "benchmark_results.json", output := "performance_report.csv", format := .csv } := by
  rfl

end TimingReport.Command
