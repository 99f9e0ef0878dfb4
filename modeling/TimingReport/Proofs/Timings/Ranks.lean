import Mathlib.Data.List.GetD
import TimingReport.Proofs.Timings

/-!
# Ranks among timings

The timing of a rank is found by counting: at most so many timings come before it, and more
than that come before it or are the same. The statistics of a list are determined in this way
without sorting it, for any patterns, infinite ones and those that are not a number included.
-/

namespace TimingReport

open Binary64

namespace Timings

variable {values sorted : List Binary64} {rank : Nat} {x y : Binary64}

/-! ## Counting -/

/-- At most `rank` timings come before this one, and more do not come after it. -/
structure HasRank (values : List Binary64) (rank : Nat) (x : Binary64) : Prop where
  mem : x ∈ values
  before : values.countP (·.totalLt x) ≤ rank
  notAfter : rank < values.countP (·.totalLe x)

theorem HasRank.of_perm {other : List Binary64} (hperm : values.Perm other)
    (hx : HasRank values rank x) : HasRank other rank x where
  mem := hperm.mem_iff.mp hx.mem
  before := hperm.countP_eq _ ▸ hx.before
  notAfter := hperm.countP_eq _ ▸ hx.notAfter

/-- No two timings have one rank. -/
theorem HasRank.unique (hx : HasRank values rank x) (hy : HasRank values rank y) : x = y := by
  have hle : ∀ {x y : Binary64}, HasRank values rank x → HasRank values rank y →
      x.totalLe y := by
    intro x y hx hy
    by_contra hlt
    -- what does not come after `y` comes before `x`, which is too much for the rank of `x`
    have hcount : values.countP (·.totalLe y) ≤ values.countP (·.totalLt x) := by
      refine List.countP_mono_left fun z _ hz => totalLt_iff.mpr ?_
      rw [totalLe_iff] at hlt hz
      omega
    have hbefore := hx.before
    have hnotAfter := hy.notAfter
    omega
  exact totalLe_antisymm (hle hx hy) (hle hy hx)

/-- In ascending order none from a place on comes before the timing there. -/
theorem countP_totalLt_getElem_le (hsorted : sorted.Pairwise (·.totalLe ·))
    (hrank : rank < sorted.length) : sorted.countP (·.totalLt sorted[rank]) ≤ rank := by
  have hnone : (sorted.drop rank).countP (·.totalLt sorted[rank]) = 0 := by
    refine List.countP_eq_zero.mpr fun z hz => not_totalLt_iff.mpr ?_
    obtain ⟨i, hi, rfl⟩ := List.mem_drop_iff_getElem.mp hz
    rcases Nat.eq_zero_or_pos i with rfl | hpos
    · exact totalLe_refl _
    · exact List.pairwise_iff_getElem.mp hsorted _ _ hrank (by omega) (by omega)
  calc
    sorted.countP (·.totalLt sorted[rank])
        = (sorted.take rank ++ sorted.drop rank).countP (·.totalLt sorted[rank]) := by
      rw [List.take_append_drop]
    _ ≤ (sorted.take rank).length := by
      rw [List.countP_append, hnone, Nat.add_zero]
      exact List.countP_le_length
    _ ≤ rank := List.length_take_le _ _

/-- In ascending order none up to a place comes after the timing there. -/
theorem lt_countP_totalLe_getElem (hsorted : sorted.Pairwise (·.totalLe ·))
    (hrank : rank < sorted.length) : rank < sorted.countP (·.totalLe sorted[rank]) := by
  have hall : (sorted.take (rank + 1)).countP (·.totalLe sorted[rank]) = rank + 1 := by
    rw [List.countP_eq_length.mpr, List.length_take_of_le hrank]
    intro z hz
    obtain ⟨i, hi, rfl⟩ := List.mem_take_iff_getElem.mp hz
    rcases Nat.lt_or_ge i rank with hlt | hge
    · exact List.pairwise_iff_getElem.mp hsorted _ _ _ hrank hlt
    · obtain rfl : i = rank := by omega
      exact totalLe_refl _
  have hle := (List.take_sublist (rank + 1) sorted).countP_le (p := (·.totalLe sorted[rank]))
  omega

/-- In ascending order the rank of a timing is its place. -/
theorem hasRank_getElem (hsorted : sorted.Pairwise (·.totalLe ·)) (hrank : rank < sorted.length) :
    HasRank sorted rank sorted[rank] where
  mem := List.getElem_mem hrank
  before := countP_totalLt_getElem_le hsorted hrank
  notAfter := lt_countP_totalLe_getElem hsorted hrank

theorem hasRank_iff : HasRank values rank x ↔ (sort values)[rank]? = some x := by
  have hperm := sort_perm values
  constructor
  · intro hx
    have hrank : rank < (sort values).length := by
      rw [hperm.length_eq]
      exact Nat.lt_of_lt_of_le hx.notAfter List.countP_le_length
    rw [List.getElem?_eq_getElem hrank]
    exact congrArg some
      ((hasRank_getElem (sort_pairwise values) hrank).unique (hx.of_perm hperm.symm))
  · intro hget
    obtain ⟨hrank, rfl⟩ := List.getElem?_eq_some_iff.mp hget
    exact (hasRank_getElem (sort_pairwise values) hrank).of_perm hperm

theorem hasRank_iff_eq (hrank : rank < values.length) (x : Binary64) :
    HasRank values rank x ↔ x = (sort values).getD rank .nan := by
  rw [← (sort_perm values).length_eq] at hrank
  rw [hasRank_iff, List.getD_eq_getElem _ _ hrank, List.getElem?_eq_getElem hrank,
    Option.some_inj, eq_comm]

/-- Of an odd number of timings the middle one has no more than half before it and no more than
half behind it. -/
theorem hasRank_half_iff (hodd : values.length % 2 = 1) :
    HasRank values (values.length / 2) x ↔
      x ∈ values ∧ values.countP (·.totalLt x) ≤ values.length / 2 ∧
        values.countP (x.totalLt ·) ≤ values.length / 2 := by
  have hafter : values.length = values.countP (·.totalLe x) + values.countP (x.totalLt ·) := by
    rw [List.length_eq_countP_add_countP (·.totalLe x)]
    simp [totalLt, totalLe]
  constructor
  · rintro ⟨hmem, hbefore, hnotAfter⟩
    exact ⟨hmem, hbefore, by omega⟩
  · rintro ⟨hmem, hbefore, hbehind⟩
    exact ⟨hmem, hbefore, by omega⟩

/-! ## Statistics -/

/-- The statistics of a list, told by counting its timings. -/
structure Describes (timings : Timings) (values : List Binary64) : Prop where
  count : timings.count = values.length
  least : timings.least ∈ values ∧ ∀ x ∈ values, timings.least.totalLe x
  greatest : timings.greatest ∈ values ∧ ∀ x ∈ values, x.totalLe timings.greatest
  /-- The median of an odd number is the one with no more than half of them on either side. -/
  median_odd : values.length % 2 = 1 → ∀ x, x = timings.median ↔
    x ∈ values ∧ values.countP (·.totalLt x) ≤ values.length / 2 ∧
      values.countP (x.totalLt ·) ≤ values.length / 2
  /-- The median of an even number is half the sum of the two in the middle. -/
  median_even : values.length % 2 = 0 → ∃ lower upper,
    (∀ x, HasRank values (values.length / 2 - 1) x ↔ x = lower) ∧
      (∀ x, HasRank values (values.length / 2) x ↔ x = upper) ∧
      timings.median = (lower + upper) / .ofNat 2
  mean : ∃ sorted : List Binary64, sorted.Perm values ∧ sorted.Pairwise (·.totalLe ·) ∧
    timings.mean = sorted.foldl (· + ·) (.zero true) / .ofNat values.length

theorem ReadOff.describes {timings : Timings} (hread : timings.ReadOff (sort values))
    (hne : values ≠ []) : timings.Describes values := by
  have hperm := sort_perm values
  have hsorted := sort_pairwise values
  have hlength := List.length_pos_iff.mpr hne
  have hmedian := hread.median
  simp only [middle, hperm.length_eq] at hmedian
  refine ⟨hread.count.trans hperm.length_eq, ⟨hperm.mem_iff.mp hread.least_mem, ?_⟩,
    ⟨hperm.mem_iff.mp hread.greatest_mem, ?_⟩, ?_, ?_, ?_⟩
  · exact fun x hx => hread.least_totalLe hsorted (hperm.mem_iff.mpr hx)
  · exact fun x hx => hread.totalLe_greatest hsorted (hperm.mem_iff.mpr hx)
  · intro hodd x
    rw [if_neg (by omega)] at hmedian
    rw [hmedian, ← hasRank_half_iff hodd, hasRank_iff_eq (by omega)]
  · intro heven
    rw [if_pos heven] at hmedian
    exact ⟨_, _, hasRank_iff_eq (by omega), hasRank_iff_eq (by omega), hmedian⟩
  · exact ⟨sort values, hperm, hsorted, hperm.length_eq ▸ hread.mean⟩

/-- There are statistics of every list that is not empty, and what they are is told by counting
its timings. They do not change with the order of the list. -/
theorem ofList?_describes (values : List Binary64) :
    (ofList? values = none ↔ values = []) ∧
    (values ≠ [] → ∃ timings, ofList? values = some timings ∧ timings.Describes values) ∧
    ∀ other, other.Perm values → ofList? other = ofList? values := by
  refine ⟨ofList?_eq_none_iff, fun hne => ?_, fun _ => ofList?_eq_of_perm⟩
  obtain ⟨timings, htimings, hread⟩ := exists_readOff hne
  exact ⟨timings, htimings, hread.describes hne⟩

end Timings

end TimingReport
