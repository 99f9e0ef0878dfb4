import TimingReport.Proofs.Binary64.TotalOrder
import TimingReport.Proofs.StableSort
import TimingReport.Timings

/-!
# Sorted timings and records

Statistics depend only on which timings there are. A category's records are put in
ascending order of real time, and those with the same bits keep their input order.
-/

namespace TimingReport

/-! ## Timings -/

namespace Timings

/-- The total order compares timings by their bits. -/
theorem ordersBy : StableSort.OrdersBy Binary64.totalLe id where
  trans _ _ _ := Binary64.totalLe_trans
  total := Binary64.totalLe_total
  key_eq _ _ := Binary64.totalLe_antisymm
  le_of_key_eq x y (hxy : x = y) := hxy ▸ Binary64.totalLe_refl x

/-- Sorting loses and adds no timing. -/
theorem sort_perm (values : List Binary64) : (sort values).Perm values :=
  List.mergeSort_perm values _

/-- Sorted timings ascend. -/
theorem sort_pairwise (values : List Binary64) : (sort values).Pairwise (·.totalLe ·) :=
  StableSort.sorted_mergeSort ordersBy values

/-- The sorted timings depend only on which timings there are. -/
theorem sort_eq_of_perm {first second : List Binary64} (hperm : first.Perm second) :
    sort first = sort second :=
  List.Perm.eq_of_pairwise (fun _ _ _ _ => Binary64.totalLe_antisymm)
    (sort_pairwise first) (sort_pairwise second)
    ((sort_perm first).trans (hperm.trans (sort_perm second).symm))

/-- So do all statistics, the sum of a mean included: it runs over sorted timings. -/
theorem ofList?_eq_of_perm {first second : List Binary64} (hperm : first.Perm second) :
    ofList? first = ofList? second := by
  rw [ofList?, ofList?, sort_eq_of_perm hperm]

/-- There are no statistics exactly if there are no timings. -/
theorem ofList?_eq_none_iff {values : List Binary64} :
    ofList? values = none ↔ values = [] := by
  have hperm := sort_perm values
  unfold ofList?
  split
  next hsort => simpa [hsort] using hperm
  next least rest hsort =>
    rw [hsort] at hperm
    simpa using fun hnil => absurd (hnil ▸ hperm) (by simp)

/-- The statistics as they are read off timings in ascending order. -/
structure ReadOff (timings : Timings) (sorted : List Binary64) : Prop where
  count : timings.count = sorted.length
  mean : timings.mean = sum sorted / .ofNat sorted.length
  median : timings.median = middle sorted
  least : sorted.head? = some timings.least
  greatest : sorted.getLast? = some timings.greatest

/-- Statistics are read off the sorted timings. -/
theorem readOff_of_ofList? {values : List Binary64} {timings : Timings}
    (htimings : ofList? values = some timings) : timings.ReadOff (sort values) := by
  unfold ofList? at htimings
  split at htimings
  next => contradiction
  next least rest hsort =>
    obtain rfl := Option.some.inj htimings
    rw [hsort]
    refine ⟨rfl, rfl, rfl, rfl, ?_⟩
    rw [List.getLast?_cons, List.getLastD_eq_getLast?]

/-- Of one timing or more there are statistics. -/
theorem exists_readOff {values : List Binary64} (hne : values ≠ []) :
    ∃ timings, ofList? values = some timings ∧ timings.ReadOff (sort values) := by
  obtain ⟨timings, htimings⟩ := Option.ne_none_iff_exists'.mp (mt ofList?_eq_none_iff.mp hne)
  exact ⟨timings, htimings, readOff_of_ofList? htimings⟩

/-- The count is that of the timings. -/
theorem count_of_ofList? {values : List Binary64} {timings : Timings}
    (htimings : ofList? values = some timings) : timings.count = values.length :=
  (readOff_of_ofList? htimings).count.trans (sort_perm values).length_eq

namespace ReadOff

variable {timings : Timings} {sorted : List Binary64} {x : Binary64}

/-- The least timing is one of them. -/
theorem least_mem (hread : timings.ReadOff sorted) : timings.least ∈ sorted :=
  List.mem_of_head? hread.least

/-- The greatest timing is one of them. -/
theorem greatest_mem (hread : timings.ReadOff sorted) : timings.greatest ∈ sorted :=
  List.mem_of_getLast? hread.greatest

/-- No timing comes before the least one. -/
theorem least_totalLe (hread : timings.ReadOff sorted)
    (hsorted : sorted.Pairwise (·.totalLe ·)) (hx : x ∈ sorted) : timings.least.totalLe x := by
  obtain ⟨rest, rfl⟩ := List.head?_eq_some_iff.mp hread.least
  exact ordersBy.le_head hsorted hx

/-- No timing comes behind the greatest one. -/
theorem totalLe_greatest (hread : timings.ReadOff sorted)
    (hsorted : sorted.Pairwise (·.totalLe ·)) (hx : x ∈ sorted) : x.totalLe timings.greatest := by
  obtain ⟨rest, rfl⟩ := List.getLast?_eq_some_iff.mp hread.greatest
  rcases List.mem_append.mp hx with hrest | hlast
  · exact (List.pairwise_append.mp hsorted).2.2 x hrest _ List.mem_cons_self
  · exact List.mem_singleton.mp hlast ▸ Binary64.totalLe_refl _

end ReadOff

end Timings

/-! ## Records of a category -/

namespace Summary

/-- Records are compared by the bits of their real time. -/
theorem byTime_ordersBy :
    StableSort.OrdersBy (fun a b : Record => a.realTime.totalLe b.realTime)
      (fun record => record.realTime.toBits) where
  trans _ _ _ := Binary64.totalLe_trans
  total _ _ := Binary64.totalLe_total _ _
  key_eq _ _ hab hba := congrArg Binary64.toBits (Binary64.totalLe_antisymm hab hba)
  le_of_key_eq _ _ hbits := Binary64.toBits_inj.mp hbits ▸ Binary64.totalLe_refl _

/-- Putting records in order loses and adds none. -/
theorem byTime_perm (records : List Record) : (byTime records).Perm records :=
  List.mergeSort_perm records _

/-- Records are put in ascending order of their real times. -/
theorem byTime_pairwise (records : List Record) :
    (byTime records).Pairwise fun a b => a.realTime.totalLe b.realTime :=
  StableSort.sorted_mergeSort byTime_ordersBy records

@[simp] theorem byTime_nil : byTime [] = [] := List.mergeSort_nil

/-- A category has no summary exactly if it has no records. -/
theorem ofRecords?_eq_none_iff {category : Category} {records : List Record} :
    ofRecords? category records = none ↔ records = [] := by
  rw [ofRecords?, Option.map_eq_none_iff, Timings.ofList?_eq_none_iff, List.map_eq_nil_iff]

/-- A summary keeps its category and its records. -/
theorem eq_of_ofRecords? {category : Category} {records : List Record} {summary : Summary}
    (hsummary : ofRecords? category records = some summary) :
    summary.category = category ∧ summary.members = records := by
  obtain ⟨timings, _, rfl⟩ := Option.map_eq_some_iff.mp hsummary
  exact ⟨rfl, rfl⟩

/-- A summary counts its records. -/
theorem count_of_ofRecords? {category : Category} {records : List Record} {summary : Summary}
    (hsummary : ofRecords? category records = some summary) :
    summary.timings.count = summary.members.length := by
  obtain ⟨timings, htimings, rfl⟩ := Option.map_eq_some_iff.mp hsummary
  rw [Timings.count_of_ofList? htimings, List.length_map]

end Summary

end TimingReport
