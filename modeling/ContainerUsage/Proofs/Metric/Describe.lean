import Mathlib
import ContainerUsage.Metric.Catalog

/-!
# What a descriptor says

A metric is described under a naming, and if that succeeds the descriptor is the metric's own:

* `Metric.Describes naming metric d` collects what the parts of `d` are: the joined name, the help
  text, the labels of every task followed by those of the metric, and the constant labels of the
  naming. It also says what the checks on the way leave behind: no name of a variable label comes
  twice or is the name of a constant label.
* `Metric.describes_of_describe` reads this off a success of `Metric.describe`.
* `Metric.forall₂_describes` is the same for a whole catalog: the descriptors stand in the order of
  the metrics, one for each (`Metric.describeAll_eq_ok_iff`).
-/

namespace ContainerUsage

/-! ## The checks of a descriptor -/

namespace Descriptor

/-- Variable labels that pass their check are all new, among themselves and to the ones before. -/
theorem nodup_of_checkVariableLabels {seen labels : List String}
    (h : checkVariableLabels seen labels = .ok ()) :
    labels.Nodup ∧ ∀ label ∈ labels, label ∉ seen := by
  induction labels generalizing seen with
  | nil => exact ⟨List.nodup_nil, fun _ hmem => absurd hmem List.not_mem_nil⟩
  | cons label rest ih =>
    rw [checkVariableLabels] at h
    split at h
    · simp at h
    · split at h
      · simp at h
      · next hseen =>
        have hnew : label ∉ seen := by simpa using hseen
        obtain ⟨hrest, hdisjoint⟩ := ih h
        refine ⟨List.nodup_cons.2 ⟨?_, hrest⟩, ?_⟩
        · intro hmem
          exact hdisjoint label hmem List.mem_cons_self
        · intro other hother
          rcases List.mem_cons.1 hother with rfl | hother
          · exact hnew
          · exact fun hmem => hdisjoint other hother (List.mem_cons_of_mem _ hmem)

/-- A descriptor that is made has the parts that it is made of. -/
theorem make_eq_ok {fqName help : String} {variableLabels : List String} {constLabels : LabelSet}
    {d : Descriptor} (h : make fqName help variableLabels constLabels = .ok d) :
    d = ⟨fqName, help, variableLabels, constLabels⟩ ∧ variableLabels.Nodup := by
  unfold make at h
  split at h
  · simp at h
  · split at h
    · simp at h
    · split at h
      · simp at h
      · split at h
        · simp at h
        · next hcheck => exact ⟨(Except.ok.inj h).symm, (nodup_of_checkVariableLabels hcheck).1⟩

end Descriptor

/-! ## One metric -/

/-- A naming that describes a metric gives none of its variable labels a constant value. -/
theorem Naming.describe_eq_ok {naming : Naming} {metric unit help : String}
    {variableLabels : List String} {d : Descriptor}
    (h : naming.describe metric unit help variableLabels = .ok d) :
    d = ⟨naming.fqName metric unit, help, variableLabels, naming.labels⟩ ∧
      variableLabels.Nodup ∧ ∀ label ∈ variableLabels, naming.labels.contains label = false := by
  unfold describe at h
  dsimp only at h
  split at h
  · simp at h
  · next hfind =>
    have hmake : Descriptor.make (naming.fqName metric unit) help variableLabels naming.labels =
        .ok d := by
      cases hmake :
          Descriptor.make (naming.fqName metric unit) help variableLabels naming.labels with
      | ok made =>
        rw [hmake] at h
        exact congrArg Except.ok (Except.ok.inj h)
      | error fault =>
        rw [hmake] at h
        cases h
    obtain ⟨hparts, hnodup⟩ := Descriptor.make_eq_ok hmake
    refine ⟨hparts, hnodup, ?_⟩
    intro label hmem
    simpa using List.find?_eq_none.1 hfind label hmem

namespace Metric

/-- A descriptor is the one of a metric under a naming. -/
structure Describes (naming : Naming) (metric : Metric) (d : Descriptor) : Prop where
  fqName : d.fqName = naming.fqName metric.name metric.unit
  help : d.help = metric.help
  variableLabels : d.variableLabels = baseLabels ++ metric.labels
  constLabels : d.constLabels = naming.labels
  /-- No two variable labels have one name. -/
  nodup : d.variableLabels.Nodup
  /-- No constant label has the name of a variable one. -/
  disjoint : ∀ label ∈ d.variableLabels, d.constLabels.contains label = false

/-- What describing a metric gives is a descriptor of it. -/
theorem describes_of_describe {naming : Naming} {metric : Metric} {d : Descriptor}
    (h : metric.describe naming = .ok d) : Describes naming metric d := by
  obtain ⟨rfl, hnodup, hdisjoint⟩ := Naming.describe_eq_ok h
  exact ⟨rfl, rfl, rfl, rfl, hnodup, hdisjoint⟩

/-! ## The whole catalog -/

/-- All metrics are described iff each one is, in the same order. -/
theorem describeAll_eq_ok_iff {naming : Naming} {metrics : List Metric} {ds : List Descriptor} :
    describeAll naming metrics = .ok ds ↔
      List.Forall₂ (fun metric d => metric.describe naming = .ok d) metrics ds := by
  induction metrics generalizing ds with
  | nil => simp [describeAll, eq_comm]
  | cons metric rest ih =>
    rw [List.forall₂_cons_left_iff, describeAll]
    cases hd : metric.describe naming with
    | error e => simp
    | ok d =>
      simp only [Except.ok.injEq, ← ih]
      cases hrest : describeAll naming rest with
      | error e => simp [Except.map]
      | ok others => simp [Except.map, eq_comm]

/-- The descriptors of all metrics, one for each and in their order. -/
theorem forall₂_describes {naming : Naming} {metrics : List Metric} {ds : List Descriptor}
    (h : describeAll naming metrics = .ok ds) :
    List.Forall₂ (Describes naming) metrics ds :=
  (describeAll_eq_ok_iff.1 h).imp fun _ _ => describes_of_describe

end Metric

end ContainerUsage
