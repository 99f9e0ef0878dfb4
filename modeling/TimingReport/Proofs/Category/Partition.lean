import TimingReport.Category

/-!
# Division of records by category

Records are put into buckets one after the other, and each into that of its category. So the
bucket of a category holds the records that the table puts there, in input order, and all
buckets together hold the records, each as often as it is given.
-/

namespace TimingReport

namespace RuleTable

variable (table : RuleTable) (records : List Record)

/-- The records of a category, in input order. -/
def members (category : Category) : List Record :=
  records.filter fun record => table.categoryOf record.name = category

theorem count_members (record : Record) (category : Category) :
    (table.members records category).count record =
      if table.categoryOf record.name = category then records.count record else 0 := by
  split
  next hcategory => exact List.count_filter (by simpa using hcategory)
  next hcategory => exact List.count_eq_zero.mpr (by simp [members, hcategory])

/-- No record is lost and none is doubled. -/
theorem members_perm : (Category.all.flatMap (table.members records)).Perm records := by
  refine List.perm_iff_count.mpr fun record => ?_
  -- one of the five categories counts the record, and the others do not
  simp only [Category.all, List.flatMap_cons, List.flatMap_nil, List.append_nil,
    List.count_append, count_members]
  cases table.categoryOf record.name <;> simp

end RuleTable

/-! ## Buckets -/

/-- Every category has a bucket of its own. -/
theorem Category.index_inj {category wanted : Category} :
    category.index = wanted.index ↔ category = wanted := by
  cases category <;> cases wanted <;> decide

namespace Classification

theorem members_empty (category : Category) : empty.members category = [] := by
  simp [members, empty]

/-- A record that is added goes behind those of its category. -/
theorem members_push (c : Classification) (category : Category) (record : Record)
    (wanted : Category) : (c.push category record).members wanted =
      if wanted = category then c.members wanted ++ [record] else c.members wanted := by
  simp only [members, push, Fin.getElem_fin, Vector.getElem_set, Fin.val_inj, Category.index_inj,
    eq_comm (a := category)]
  split
  next heq => rw [heq]
  next => rfl

/-- The bucket of a category is what the table filters out of the records. -/
theorem members_ofRecords (table : RuleTable) (records : List Record) (category : Category) :
    (ofRecords table records).members category = table.members records category := by
  suffices hfold : ∀ c : Classification,
      (records.foldl (fun c record => c.push (table.categoryOf record.name) record) c).members
        category = c.members category ++ table.members records category by
    rw [ofRecords, hfold, members_empty, List.nil_append]
  induction records with
  | nil => simp [RuleTable.members]
  | cons record rest ih =>
      intro c
      rw [List.foldl_cons, ih, members_push]
      by_cases hcategory : table.categoryOf record.name = category
      · simp [RuleTable.members, hcategory]
      · simp [RuleTable.members, hcategory, Ne.symm hcategory]

/-- The size is the number of records in the buckets of all categories. -/
theorem size_eq (c : Classification) : c.size = (Category.all.flatMap c.members).length := by
  rw [size, ← Vector.foldl_toList]
  obtain ⟨⟨⟨buckets⟩, hlength⟩⟩ := c
  rcases buckets with _ | ⟨a, _ | ⟨b, _ | ⟨c, _ | ⟨d, _ | ⟨e, _ | ⟨_, rest⟩⟩⟩⟩⟩⟩
  case cons.cons.cons.cons.cons.nil =>
    change 0 + a.length + b.length + c.length + d.length + e.length =
      (a ++ (b ++ (c ++ (d ++ (e ++ []))))).length
    simp only [List.length_append, List.length_nil]
    omega
  all_goals simp at hlength

theorem size_ofRecords (table : RuleTable) (records : List Record) :
    (ofRecords table records).size = records.length := by
  rw [size_eq, funext (members_ofRecords table records)]
  exact (table.members_perm records).length_eq

end Classification

end TimingReport
