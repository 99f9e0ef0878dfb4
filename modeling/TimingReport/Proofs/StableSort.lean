import Mathlib.Data.List.Basic

/-!
# Stable sorting by a key

A stable sort keeps the order of the members with one key. Its result is therefore
determined by those members, key by key: two lists that agree on them have the same
sorted list, and only such lists do.
-/

namespace TimingReport.StableSort

variable {α κ : Type} [DecidableEq κ]

/-- The members of a list with a given key, in order. -/
def fiber (key : α → κ) (k : κ) (members : List α) : List α := members.filter (key · = k)

/-- The comparison puts members in a total order of their keys. -/
structure OrdersBy (le : α → α → Bool) (key : α → κ) : Prop where
  trans : ∀ a b c, le a b → le b c → le a c
  total : ∀ a b, le a b || le b a
  key_eq : ∀ a b, le a b → le b a → key a = key b
  le_of_key_eq : ∀ a b, key a = key b → le a b

variable {le : α → α → Bool} {key : α → κ}

/-! ## Members with one key -/

@[simp] theorem fiber_cons_self (a : α) (members : List α) :
    fiber key (key a) (a :: members) = a :: fiber key (key a) members := by
  simp [fiber]

theorem fiber_cons_of_ne {a : α} {k : κ} (hne : key a ≠ k) (members : List α) :
    fiber key k (a :: members) = fiber key k members := by
  simp [fiber, hne]

@[simp] theorem mem_fiber {a : α} {k : κ} {members : List α} :
    a ∈ fiber key k members ↔ a ∈ members ∧ key a = k := by
  simp [fiber]

theorem fiber_fiber (k : κ) (members : List α) :
    fiber key k (fiber key k members) = fiber key k members := by
  simp [fiber]

/-- A member is among those that agree with another list's, key by key. -/
theorem mem_of_fiber_eq {first second : List α}
    (hfibers : ∀ k, fiber key k first = fiber key k second) {a : α} (ha : a ∈ first) :
    a ∈ second := by
  have hmem : a ∈ fiber key (key a) first := mem_fiber.mpr ⟨ha, rfl⟩
  rw [hfibers] at hmem
  exact (mem_fiber.mp hmem).1

/-! ## Sorted lists -/

omit [DecidableEq κ] in
theorem OrdersBy.le_head (horder : OrdersBy le key) {a b : α} {rest : List α}
    (hsorted : (a :: rest).Pairwise (le · ·)) (hb : b ∈ a :: rest) : le a b := by
  rcases List.mem_cons.mp hb with rfl | hrest
  · exact horder.le_of_key_eq b b rfl
  · exact (List.pairwise_cons.mp hsorted).1 b hrest

/-- A sorted list is determined by its members of each key. -/
theorem eq_of_sorted (horder : OrdersBy le key) {first second : List α}
    (hfirst : first.Pairwise (le · ·)) (hsecond : second.Pairwise (le · ·))
    (hfibers : ∀ k, fiber key k first = fiber key k second) : first = second := by
  induction first generalizing second with
  | nil =>
      cases second with
      | nil => rfl
      | cons b rest => exact absurd (hfibers (key b)) (by simp [fiber])
  | cons a rest ih =>
      cases second with
      | nil => exact absurd (hfibers (key a)) (by simp [fiber])
      | cons b others =>
          -- Each head is a member of the other list, so neither comes before the other.
          have hab : le a b :=
            horder.le_head hfirst
              (mem_of_fiber_eq (fun k => (hfibers k).symm) List.mem_cons_self)
          have hba : le b a :=
            horder.le_head hsecond (mem_of_fiber_eq hfibers List.mem_cons_self)
          have hkey : key a = key b := horder.key_eq a b hab hba
          have hheads := hfibers (key a)
          rw [fiber_cons_self, hkey, fiber_cons_self] at hheads
          obtain ⟨rfl, htails⟩ := List.cons.inj hheads
          have hrest : ∀ k, fiber key k rest = fiber key k others := by
            intro k
            by_cases hk : key a = k
            · exact hk ▸ htails
            · have hk' := hfibers k
              rwa [fiber_cons_of_ne hk, fiber_cons_of_ne hk] at hk'
          rw [ih hfirst.of_cons hsecond.of_cons hrest]

/-! ## The sort -/

omit [DecidableEq κ] in
theorem sorted_mergeSort (horder : OrdersBy le key) (members : List α) :
    (members.mergeSort le).Pairwise (le · ·) :=
  List.pairwise_mergeSort horder.trans horder.total members

/-- The sort keeps the members with one key in order. -/
theorem fiber_mergeSort (horder : OrdersBy le key) (k : κ) (members : List α) :
    fiber key k (members.mergeSort le) = fiber key k members := by
  have hties : (fiber key k members).Pairwise (le · ·) := by
    refine List.pairwise_of_forall_mem_list fun a ha b hb => ?_
    rw [mem_fiber] at ha hb
    exact horder.le_of_key_eq a b (ha.2.trans hb.2.symm)
  have hsub : (fiber key k members).Sublist (members.mergeSort le) :=
    List.sublist_mergeSort horder.trans horder.total hties List.filter_sublist
  have hkept : (fiber key k members).Sublist (fiber key k (members.mergeSort le)) := by
    rw [← fiber_fiber k members]
    exact hsub.filter _
  have hlength := ((List.mergeSort_perm members le).filter (key · = k)).length_eq
  exact (hkept.eq_of_length hlength.symm).symm

/-- Two lists are sorted into the same list exactly if they agree on each key. -/
theorem mergeSort_eq_iff (horder : OrdersBy le key) {first second : List α} :
    first.mergeSort le = second.mergeSort le ↔
      ∀ k, fiber key k first = fiber key k second := by
  constructor
  · intro hsorted k
    rw [← fiber_mergeSort horder k first, hsorted, fiber_mergeSort horder]
  · intro hfibers
    refine eq_of_sorted horder (sorted_mergeSort horder first)
      (sorted_mergeSort horder second) fun k => ?_
    rw [fiber_mergeSort horder, fiber_mergeSort horder, hfibers]

theorem perm_of_fiber_eq (horder : OrdersBy le key) {first second : List α}
    (hfibers : ∀ k, fiber key k first = fiber key k second) : first.Perm second :=
  calc
    first.Perm (first.mergeSort le) := (List.mergeSort_perm first le).symm
    _ = second.mergeSort le := (mergeSort_eq_iff horder).mpr hfibers
    List.Perm _ second := List.mergeSort_perm second le

end TimingReport.StableSort
