import TimingReport.Category

/-!
# Statistics of timings

Timings are put in the total order of all binary64 patterns first, so every statistic
depends only on which timings there are, and not on their order.
-/

namespace TimingReport

/-- Statistics of a nonempty list of timings. -/
structure Timings where
  count : Nat
  mean : Binary64
  median : Binary64
  least : Binary64
  greatest : Binary64

namespace Timings

/-- The timings in ascending total order. -/
def sort (values : List Binary64) : List Binary64 := values.mergeSort Binary64.totalLe

/-- The sum from the left, which starts at the negative zero so that it keeps one. -/
def sum (values : List Binary64) : Binary64 := values.foldl (· + ·) (.zero true)

/-- The middle of an ascending list, or half the sum of its two middle timings. -/
def middle (sorted : List Binary64) : Binary64 :=
  let half := sorted.length / 2
  let upper := sorted.getD half .nan
  if sorted.length % 2 = 0 then (sorted.getD (half - 1) .nan + upper) / .ofNat 2 else upper

/-- The statistics of a list of timings, if there are any. -/
def ofList? (values : List Binary64) : Option Timings :=
  match sort values with
  | [] => none
  | least :: rest =>
      let sorted := least :: rest
      some {
        count := sorted.length
        mean := sum sorted / .ofNat sorted.length
        median := middle sorted
        least
        greatest := rest.getLastD least }

end Timings

/-- The statistics of one category and its records in input order. -/
structure Summary where
  category : Category
  timings : Timings
  members : List Record

namespace Summary

/-- The records in ascending order of real time; equal times keep their input order. -/
def byTime (records : List Record) : List Record :=
  records.mergeSort fun a b => a.realTime.totalLe b.realTime

/-- The summary of a category's records, if it has any. -/
def ofRecords? (category : Category) (records : List Record) : Option Summary :=
  (Timings.ofList? (records.map (·.realTime))).map fun timings =>
    { category, timings, members := records }

end Summary

end TimingReport
