import Mathlib.Data.List.GetD
import TimingReport.Proofs.Amount.Tiers
import TimingReport.Proofs.Decimal.Places
import TimingReport.Proofs.Timings.Arithmetic
import TimingReport.Proofs.View.Sections

/-!
# The shape of durations

A duration is shown as digits, a point, two more digits, a blank and a unit of time. A sign
stands before it exactly when the number has one, and of all timings only the negative zero
does.
-/

namespace TimingReport

open Binary64

/-! ## Amounts -/

namespace Amount

open Load

/-- A number with two places, a blank and one of the symbols. -/
def IsAmount (symbols : List String) (text : String) : Prop :=
  ∃ number symbol, Decimal.IsPointed 2 number ∧ symbol ∈ symbols ∧
    text = number ++ " " ++ symbol

/-- An amount begins with a digit. -/
theorem IsAmount.head? {symbols : List String} {text : String} (hamount : IsAmount symbols text) :
    ∃ c, text.toList.head? = some c ∧ c.isDigit := by
  obtain ⟨_, symbol, ⟨whole, fraction, rfl, hne, hdigits, _⟩, _, rfl⟩ := hamount
  cases whole with
  | nil => contradiction
  | cons c rest =>
      refine ⟨c, ?_, hdigits c List.mem_cons_self⟩
      simp [String.toList_append]

variable {scale : Scale} {x : Binary64}

/-- In each tier a timing without a sign is divided by a whole number, so it keeps none. -/
theorem isAmount_text (hscale : 0 < scale.step ∧ scale.step ^ scale.larger.length ≤ maxWhole)
    (hx : IsTiming x) (hsign : x.negative = false) :
    IsAmount (scale.first :: scale.larger) (scale.text x) := by
  have htier : scale.tier x ≤ scale.larger.length := scale.tierUpTo_le x _
  have hpos : 0 < Nat.pow scale.step (scale.tier x) := Nat.pow_pos hscale.1
  have hmax : Nat.pow scale.step (scale.tier x) ≤ maxWhole :=
    (Nat.pow_le_pow_right hscale.1 htier).trans hscale.2
  have hnegative : (x / scale.divisor (scale.tier x)).negative = false := by
    have hdiv := (hx.div_of_isFinite hpos (isFinite_ofNat (hmax.trans maxWhole_le))).2
    rw [hsign] at hdiv
    exact Bool.eq_false_iff.mpr fun hnegative => Bool.false_ne_true (hdiv hnegative)
  exact ⟨_, _, Decimal.isPointed_fixed Nat.two_pos (hx.div hpos).1 hnegative,
    Scale.symbol_mem htier, rfl⟩

/-- The timing is shown without a sign, unless it is the negative zero. -/
def ShowsDuration (time : Binary64) (text : String) : Prop :=
  if time = .zero true then text = "-0.00 ns" else IsAmount ["ns", "μs", "ms", "s"] text

theorem negative_eq_false (hx : IsTiming x) (hne : x ≠ .zero true) : x.negative = false := by
  refine Bool.eq_false_iff.mpr fun hnegative => hne ?_
  obtain ⟨negative, magnitude, _⟩ := x
  obtain rfl : negative = true := hnegative
  obtain rfl : magnitude = 0 := (IsTiming.iff_magnitude.mp hx).2 rfl
  rfl

theorem showsDuration_durationText (hx : IsTiming x) : ShowsDuration x (durationText x) := by
  unfold ShowsDuration
  split
  next hzero =>
    rw [hzero]
    decide +kernel
  next hne =>
    have hscale : 0 < time.step ∧ time.step ^ time.larger.length ≤ maxWhole := by decide
    exact isAmount_text hscale hx (negative_eq_false hx hne)

end Amount

/-! ## Rows -/

theorem Load.isTiming_of_ofText {source text : String} {run : Run}
    (hload : ofText source text = .ok run) :
    ∀ r ∈ run.records, IsTiming r.realTime ∧ IsTiming r.cpuTime :=
  isTiming_of_ofSymbols hload

namespace View

variable (run : Run) (table : RuleTable) (title : String) (now : Timestamp)

/-- The rows of a report that was loaded show every timing without a sign, except for the
negative zero, which is not below zero and is shown with one. -/
theorem rows_showDurations {source text : String} {run : Run}
    (hload : Load.ofText source text = .ok run) :
    ∀ s ∈ (ofRun run table title now).sections, ∀ row ∈ s.rows,
      Amount.ShowsDuration row.record.realTime row.realTime ∧
        Amount.ShowsDuration row.record.cpuTime row.cpuTime := by
  intro s hs row hrow
  obtain ⟨record, hrecord, rfl⟩ := (mem_rows_iff run table title now).mp ⟨s, hs, hrow⟩
  obtain ⟨hreal, hcpu⟩ := Load.isTiming_of_ofText hload record hrecord
  exact ⟨Amount.showsDuration_durationText hreal, Amount.showsDuration_durationText hcpu⟩

theorem rows_showDurations_milliseconds :
    let text := "\x7b\"benchmarks\":[\x7b\"real_time\":1.5,\"time_unit\":\"ms\"\x7d]\x7d"
    let now : Timestamp := ⟨2024, 5, 1, 12, 0, 0, 0⟩
    ∃ run, Load.ofText "results.json" text = .ok run ∧
      ∀ s ∈ (ofRun run .standard standardTitle now).sections, ∀ row ∈ s.rows,
        Amount.ShowsDuration row.record.realTime row.realTime ∧
          Amount.ShowsDuration row.record.cpuTime row.cpuTime := by
  intro text now
  let run : Run := {
    machine := {}
    records := [{ name := unknownName, realTime := .ofNat 1_500_000 }]
    source := "results.json" }
  have hload : (Load.ofText "results.json" text).toOption = some run := by decide +kernel
  have hload := Outcome.toOption_eq_some_iff.mp hload
  exact ⟨run, hload, rows_showDurations .standard standardTitle now hload⟩

/-- A real time written as a negative zero is loaded, and its row shows a sign. -/
theorem rows_negativeZero :
    let text := "\x7b\"benchmarks\":[\x7b\"real_time\":-0.0\x7d]\x7d"
    let now : Timestamp := ⟨2024, 5, 1, 12, 0, 0, 0⟩
    ∃ run, Load.ofText "results.json" text = .ok run ∧
      ∃ s ∈ (ofRun run .standard standardTitle now).sections, ∃ row ∈ s.rows,
        row.realTime = "-0.00 ns" ∧ ¬Amount.IsAmount ["ns", "μs", "ms", "s"] row.realTime := by
  intro text now
  let record : Record := { name := unknownName, realTime := .zero true }
  let run : Run := { machine := {}, records := [record], source := "results.json" }
  have hload : (Load.ofText "results.json" text).toOption = some run := by decide +kernel
  have hrow : (Row.ofRecord record).realTime = "-0.00 ns" := by decide +kernel
  obtain ⟨s, hs, hmem⟩ :=
    (mem_rows_iff run .standard standardTitle now).mpr ⟨record, List.mem_cons_self, rfl⟩
  refine ⟨run, Outcome.toOption_eq_some_iff.mp hload, s, hs, _, hmem, hrow, fun hamount => ?_⟩
  obtain ⟨c, hc, hdigit⟩ := hamount.head?
  rw [hrow] at hc
  obtain rfl := Option.some.inj hc
  exact absurd hdigit (by decide)

end View

end TimingReport
