import Mathlib
import ContainerUsage.Metric.LabelSet

/-!
# Label sets by name

A `LabelSet` is read by name, and this file says what the reading sees: a label is in the set iff
looking its name up gives its value (`LabelSet.get?_eq_some_iff`), a list gives each name the last
of its values (`LabelSet.get?_ofList`), and the union of two sets gives the value of the second
wherever both have one (`LabelSet.get?_union`).
-/

namespace ContainerUsage

/-- In a list of pairs with different names, looking up a name finds the one pair with it. -/
theorem lookup_eq_some_iff_of_nodup {pairs : List Label} (h : (pairs.map Prod.fst).Nodup)
    (name value : String) :
    pairs.lookup name = some value ↔ (name, value) ∈ pairs := by
  induction pairs with
  | nil => simp
  | cons first rest ih =>
    obtain ⟨name', value'⟩ := first
    obtain ⟨hfirst, hrest⟩ := List.nodup_cons.1 h
    by_cases hname : name = name'
    · subst hname
      -- the name of the head does not come again
      have hnot : (name, value) ∉ rest := fun hmem =>
        hfirst (List.mem_map.2 ⟨(name, value), hmem, rfl⟩)
      rw [LabelSet.lookup_cons_self (name, value') rest, List.mem_cons]
      simp [hnot, eq_comm]
    · rw [LabelSet.lookup_cons_of_ne (p := (name', value')) hname, ih hrest, List.mem_cons]
      simp [hname]

/-- Names that rise strictly are different. -/
theorem nodup_names_of_sorted {pairs : List Label} (h : pairs.Pairwise fun a b => a.1 < b.1) :
    (pairs.map Prod.fst).Nodup :=
  List.pairwise_map.2 (h.imp ne_of_lt)

/-- In a list that is strictly sorted by name, looking up a name finds the one pair with it. -/
theorem lookup_eq_some_iff_of_sorted {pairs : List Label}
    (h : pairs.Pairwise fun a b => a.1 < b.1) (name value : String) :
    pairs.lookup name = some value ↔ (name, value) ∈ pairs :=
  lookup_eq_some_iff_of_nodup (nodup_names_of_sorted h) name value

namespace LabelSet

/-- A label is in the set iff its name has its value. -/
theorem get?_eq_some_iff (m : LabelSet) (name value : String) :
    m.get? name = some value ↔ (name, value) ∈ m.pairs :=
  lookup_eq_some_iff_of_sorted m.sorted name value

/-- A name is in the set iff some value stands with it. -/
theorem contains_eq_true_iff (m : LabelSet) (name : String) :
    m.contains name = true ↔ ∃ value, (name, value) ∈ m.pairs := by
  rw [contains, Option.isSome_iff_exists]
  simp only [get?_eq_some_iff]

/-- Inserting pairs one after the other: for each name the last of them counts. -/
theorem get?_foldl_insert (pairs : List Label) (m : LabelSet) (name : String) :
    (pairs.foldl (fun m label => m.insert label.1 label.2) m).get? name =
      (pairs.reverse.lookup name).or (m.get? name) := by
  induction pairs using List.reverseRecOn with
  | nil => rfl
  | append_singleton pairs last ih =>
    rw [List.foldl_append, List.foldl_cons, List.foldl_nil, get?_insert, ih, List.reverse_concat]
    by_cases hname : name = last.1
    · subst hname
      rw [lookup_cons_self, if_pos rfl, Option.some_or]
    · rw [lookup_cons_of_ne hname, if_neg hname]

/-- The labels of a list: for each name the last one counts. -/
theorem get?_ofList (labels : List Label) (name : String) :
    (ofList labels).get? name = labels.reverse.lookup name := by
  rw [ofList, get?_foldl_insert, get?_empty, Option.or_none]

/-- A set is made again of its labels in any order. -/
theorem ofList_of_perm {labels : List Label} {m : LabelSet} (h : labels.Perm m.pairs) :
    ofList labels = m := by
  have hnodup : (labels.reverse.map Prod.fst).Nodup := by
    rw [List.map_reverse, List.nodup_reverse, (h.map Prod.fst).nodup_iff]
    exact nodup_names_of_sorted m.sorted
  refine ext_get? fun name => Option.ext fun value => ?_
  rw [get?_ofList, lookup_eq_some_iff_of_nodup hnodup, List.mem_reverse, h.mem_iff,
    get?_eq_some_iff]

/-- The union has the values of the second set, and those of the first where the second has none. -/
theorem get?_union (m n : LabelSet) (name : String) :
    (m.union n).get? name = (n.get? name).or (m.get? name) := by
  have hnodup := nodup_names_of_sorted n.sorted
  have hnodup' : (n.pairs.reverse.map Prod.fst).Nodup := by
    rwa [List.map_reverse, List.nodup_reverse]
  have hreverse : n.pairs.reverse.lookup name = n.get? name := by
    refine Option.ext fun value => ?_
    rw [get?, lookup_eq_some_iff_of_nodup hnodup', lookup_eq_some_iff_of_nodup hnodup,
      List.mem_reverse]
  rw [union, get?_foldl_insert, hreverse]

/-- A set without labels adds nothing. -/
theorem union_eq_left_of_isEmpty (m : LabelSet) {n : LabelSet} (h : n.isEmpty = true) :
    m.union n = m := by
  have hpairs : n.pairs = [] := List.isEmpty_iff.1 h
  rw [union, hpairs, List.foldl_nil]

end LabelSet

end ContainerUsage
