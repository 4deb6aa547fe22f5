import Mathlib
import ContainerUsage.Proofs.Collector.Asking
import ContainerUsage.Proofs.Collector.Labels
import ContainerUsage.Proofs.Collector.Names

/-!
# The order of the tasks does not show

A registry may hand out its tasks in any order, and the body of a scrape is the same for all of
them. The samples of a family are sorted by their values only, so this rests on two facts: no two
samples of a family have the same labels, and where they have equally many, the labels have the same
names. The second one holds where all tasks that have labels of their own have labels of the same
names.

* `sampleLE_iff` compares samples by a key (`sortKey`), so sorting them is sorting in a linear
  order; samples that can be told apart by their keys are sorted in one way only
  (`sort_eq_of_perm`).
* `names_eq_of_length_eq` is the second fact, and `gather_eq_of_reorders` what follows from both for
  families that differ in the order of their samples (`Family.Reorders`).
* `assemble_reorders` says that the families of answers in another order differ in nothing else.
* `run_adds` builds a registry in any order: calls that add different tasks register them as they
  come.
* `body_collect_perm` is the result.
-/

namespace ContainerUsage

namespace Exposition

/-! ## Samples in order -/

/-- For equally many values the order is the lexicographic one. -/
theorem valuesLE_iff {vs ws : List String} (h : vs.length = ws.length) :
    valuesLE vs ws = true ↔ vs ≤ ws := by
  induction vs generalizing ws with
  | nil =>
    obtain rfl := List.length_eq_zero_iff.1 h.symm
    exact iff_of_true rfl le_rfl
  | cons v vs ih =>
    cases ws with
    | nil => simp at h
    | cons w ws =>
      have hle : v :: vs ≤ w :: ws ↔ ¬(w < v ∨ w = v ∧ ws < vs) := by
        rw [← not_lt]
        exact not_congr List.cons_lt_cons_iff
      rw [valuesLE, hle]
      rcases lt_trichotomy v w with hlt | rfl | hgt
      · simp [hlt, hlt.not_gt, hlt.ne']
      · simp [ih (Nat.succ.inj h)]
      · simp [hgt, hgt.not_gt]

/-- What samples are sorted by: the number of their labels, and then the values of the labels. -/
def sortKey (s : Sample) : ℕ ×ₗ List String := toLex (s.labels.length, s.labels.map Prod.snd)

/-- Samples are compared by their number of labels first, and then by the values of the labels. -/
theorem sampleLE_iff {a b : Sample} : sampleLE a b = true ↔ sortKey a ≤ sortKey b := by
  rw [sampleLE, sortKey, sortKey, Prod.Lex.toLex_le_toLex]
  by_cases h : a.labels.length = b.labels.length
  · rw [if_pos h, valuesLE_iff (by simp [h])]
    simp [h]
  · simp [h]

/-- Sorted samples rise in their keys. -/
theorem pairwise_sort (samples : List Sample) :
    (samples.mergeSort sampleLE).Pairwise fun a b => sortKey a ≤ sortKey b := by
  have htrans : ∀ a b c, sampleLE a b = true → sampleLE b c = true → sampleLE a c = true := by
    intro a b c hab hbc
    exact sampleLE_iff.2 ((sampleLE_iff.1 hab).trans (sampleLE_iff.1 hbc))
  have htotal : ∀ a b, (sampleLE a b || sampleLE b a) = true := by
    intro a b
    rw [Bool.or_eq_true, sampleLE_iff, sampleLE_iff]
    exact le_total _ _
  exact (List.pairwise_mergeSort htrans htotal samples).imp sampleLE_iff.1

/-- Samples with equally many labels name them alike. -/
def NamesAlike (samples : List Sample) : Prop :=
  ∀ a ∈ samples, ∀ b ∈ samples, a.labels.length = b.labels.length →
    a.labels.map Prod.fst = b.labels.map Prod.fst

/-- **Samples that can be told apart are sorted in one way only**, in whatever order they come. -/
theorem sort_eq_of_perm {samples samples' : List Sample} (hp : samples.Perm samples')
    (hlabels : (samples.map (·.labels)).Nodup) (hnames : NamesAlike samples) :
    samples.mergeSort sampleLE = samples'.mergeSort sampleLE := by
  have hsorted := List.mergeSort_perm samples sampleLE
  have hsorted' := List.mergeSort_perm samples' sampleLE
  have hperm : (samples.mergeSort sampleLE).Perm (samples'.mergeSort sampleLE) :=
    hsorted.trans (hp.trans hsorted'.symm)
  apply hperm.eq_of_pairwise _ (pairwise_sort samples) (pairwise_sort samples')
  intro a b ha hb hab hba
  have ha := hsorted.mem_iff.1 ha
  have hb := hp.mem_iff.2 (hsorted'.mem_iff.1 hb)
  obtain ⟨hlength, hvalues⟩ := Prod.mk.inj (toLex.injective (le_antisymm hab hba))
  -- the same names and the same values are the same labels
  have heq : a.labels = b.labels := by
    rw [List.zip_of_prod (hnames a ha b hb hlength) hvalues]
    exact (List.zip_of_prod rfl rfl).symm
  exact List.inj_on_of_nodup_map hlabels ha hb heq

/-! ## Families in order -/

/-- The same family, with its samples in another order. -/
structure Family.Reorders (family family' : Family) : Prop where
  name : family.name = family'.name
  help : family.help = family'.help
  kind : family.kind = family'.kind
  samples : family.samples.Perm family'.samples

/-- Families that differ in the order of their samples are gathered as the same families. -/
theorem gather_eq_of_reorders {families families' : List Family}
    (h : List.Forall₂ Family.Reorders families families')
    (hsamples : ∀ family ∈ families, family.samples ≠ [])
    (hdistinct : (families.map (·.name)).Nodup)
    (hsort : ∀ family ∈ families, (family.samples.map (·.labels)).Nodup ∧
      NamesAlike family.samples) :
    gather families = gather families' := by
  have hsame : families.map (·.name) = families'.map (·.name) ∧
      families.map sorted = families'.map sorted ∧ ∀ family ∈ families', family.samples ≠ [] := by
    clear hdistinct
    induction h with
    | nil => exact ⟨rfl, rfl, List.forall_mem_nil _⟩
    | @cons family family' rest rest' hhead _ ih =>
      obtain ⟨hfirst, hsamples⟩ := List.forall_mem_cons.1 hsamples
      obtain ⟨⟨hlabels, hnames⟩, hsort⟩ := List.forall_mem_cons.1 hsort
      obtain ⟨hrest, hsorted, hnonempty⟩ := ih hsamples hsort
      have heq : sorted family = sorted family' := by
        rw [sorted, sorted, hhead.name, hhead.help, hhead.kind,
          sort_eq_of_perm hhead.samples hlabels hnames]
      rw [List.map_cons, List.map_cons, List.map_cons, List.map_cons, hhead.name,
        hrest, heq, hsorted]
      refine ⟨rfl, rfl, List.forall_mem_cons.2 ⟨fun hnil => hfirst ?_, hnonempty⟩⟩
      exact (hnil ▸ hhead.samples).eq_nil
  obtain ⟨hname, hsorted, hsamples'⟩ := hsame
  rw [gather, gather, merge_eq_self hsamples hdistinct, merge_eq_self hsamples' (hname ▸ hdistinct),
    arrange_eq, arrange_eq, hsorted]

end Exposition

open Exposition

/-! ## The names of labels -/

/-- Strictly sorted lists of one length are equal if one has all that is in the other. -/
theorem eq_of_subset_of_pairwise_lt {names names' : List String} (h : names.Pairwise (· < ·))
    (h' : names'.Pairwise (· < ·)) (hsub : names ⊆ names')
    (hlength : names.length = names'.length) :
    names = names' := by
  have hperm : names.Perm names' :=
    (List.subperm_of_subset (h.imp ne_of_lt) hsub).perm_of_length_le hlength.ge
  apply hperm.eq_of_pairwise _ h h'
  intro a b _ _ hab hba
  exact absurd hba hab.not_gt

namespace Collector

/-- The names of the labels of a sample: those of every task, of the metric, and of the constant
labels. -/
theorem mem_names_of_shows {constant : LabelSet} {metric : Metric} {task : Task} {v : MetricValue}
    {s : Sample} (h : Sample.Shows constant metric task v s)
    (hv : v.labels.length = metric.labels.length) (name : String) : name ∈ s.labels.map Prod.fst ↔
      name ∈ baseLabels ∨ name ∈ metric.labels ∨ name ∈ constant.names := by
  have hlabel : name ∈ metric.labels ↔ ∃ value, (name, value) ∈ metric.labels.zip v.labels := by
    conv_lhs => rw [← List.map_fst_zip (le_of_eq hv.symm)]
    simp
  rw [LabelSet.mem_names_iff, LabelSet.contains, Option.isSome_iff_exists, hlabel]
  simp [baseLabels, h.mem_labels, exists_or]

/-- **Samples of a metric with equally many labels name them alike**, if one of the two tasks has
all the names of labels that the other one has. -/
theorem names_eq_of_subset {constant labels labels' : LabelSet} {metric : Metric}
    {task task' : Task}
    {v v' : MetricValue} {s s' : Sample} (h : Sample.Shows (constant.union labels) metric task v s)
    (h' : Sample.Shows (constant.union labels') metric task' v' s')
    (hv : v.labels.length = metric.labels.length) (hv' : v'.labels.length = metric.labels.length)
    (hsub : labels.names ⊆ labels'.names) (hlength : s.labels.length = s'.labels.length) :
    s.labels.map Prod.fst = s'.labels.map Prod.fst := by
  apply eq_of_subset_of_pairwise_lt
  · exact List.pairwise_map.2 h.sorted
  · exact List.pairwise_map.2 h'.sorted
  · intro name hname
    rw [mem_names_of_shows h hv, LabelSet.mem_names_union] at hname
    rw [mem_names_of_shows h' hv', LabelSet.mem_names_union]
    exact hname.imp_right (Or.imp_right (Or.imp_right fun hmem => hsub hmem))
  · rw [List.length_map, List.length_map, hlength]

variable {naming : Naming} {start c : Collector} {calls : List Call}
  {answers answers' : List (Registration × Answer)}

/-- The labels that the tasks of a registry were added with are empty, or have the same names. -/
def NamedAlike (start : Collector) (calls : List Call) (registrations : List Registration)
    (names : List String) : Prop :=
  ∀ r ∈ registrations, ∀ labels, AddedBy start calls r.task labels →
    labels.isEmpty = true ∨ labels.names = names

/-- Samples that are taken from tasks with the same names of labels name them alike. -/
theorem namesAlike_of_taken {metric : Metric} {names : List String} {samples : List Sample}
    {sources : List (Registration × MetricValue)} {registrations : List Registration}
    (hnames : NamedAlike start calls registrations names)
    (hsources : ∀ source ∈ sources, source.1 ∈ registrations)
    (h : List.Forall₂ (Taken naming start calls metric) samples sources)
    (hlength : ∀ source ∈ sources, source.2.labels.length = metric.labels.length) :
    NamesAlike samples := by
  have htaken : ∀ s ∈ samples, ∃ labels : LabelSet, (labels.isEmpty = true ∨ labels.names = names) ∧
      ∃ task v, Sample.Shows (naming.labels.union labels) metric task v s ∧
        v.labels.length = metric.labels.length := by
    intro s hs
    obtain ⟨source, hsource, labels, hadded, hshows⟩ := exists_of_mem_forall₂ h hs
    exact ⟨labels, hnames _ (hsources source hsource) labels hadded, _, _, hshows,
      hlength source hsource⟩
  intro a ha b hb hcount
  obtain ⟨labels, hlabels, task, v, hshows, hv⟩ := htaken a ha
  obtain ⟨labels', hlabels', task', v', hshows', hv'⟩ := htaken b hb
  -- no names of labels, or the same ones: one of the tasks has all that the other has
  have hnone : ∀ labels : LabelSet, labels.isEmpty = true → labels.names = [] := by
    intro labels hempty
    rw [LabelSet.names, List.isEmpty_iff.1 hempty, List.map_nil]
  rcases hlabels with hempty | hnamed
  · refine names_eq_of_subset hshows hshows' hv hv' ?_ hcount
    rw [hnone labels hempty]
    exact List.nil_subset _
  · rcases hlabels' with hempty' | hnamed'
    · refine (names_eq_of_subset hshows' hshows hv' hv ?_ hcount.symm).symm
      rw [hnone labels' hempty']
      exact List.nil_subset _
    · refine names_eq_of_subset hshows hshows' hv hv' ?_ hcount
      rw [hnamed, hnamed']
      exact List.Subset.refl _

/-! ## Answers in another order -/

/-- Answers in another order give the same families, with their samples in another order. -/
theorem assemble_reorders (c : Collector) (h : answers.Perm answers') :
    List.Forall₂ Family.Reorders (c.assemble answers).families (c.assemble answers').families := by
  have hreadings : (readings answers).1.Perm (readings answers').1 := by
    rw [fst_readings, fst_readings]
    exact h.filterMap _
  have hsamples : ∀ index metric, ((c.samplesAt (readings answers).1 index metric).filterMap
      Except.toOption).Perm ((c.samplesAt (readings answers').1 index metric).filterMap
      Except.toOption) := by
    intro index metric
    exact (hreadings.flatMap fun _ _ => List.Perm.refl _).filterMap _
  rw [assemble, assemble]
  refine List.rel_filter (R := Family.Reorders) (fun family family' hfamily => ?_) ?_
  · have hlength := hfamily.samples.length_eq
    simp only [Bool.not_eq_true', List.isEmpty_eq_false_iff, ← List.length_pos_iff, hlength]
  · simp only [List.map_map, List.forall₂_map_left_iff, List.forall₂_map_right_iff,
      List.forall₂_same]
    intro entry _
    exact ⟨rfl, rfl, rfl, hsamples _ _⟩

/-- **The families of answers are gathered in one way only**, in whatever order the answers come. -/
theorem gather_assemble_eq (h : Registered naming start calls c)
    (hstart : Metric.describeAll naming Metric.catalog = .ok start.descriptors)
    (hp : answers.Perm answers') (hasked : answers.map Prod.fst = c.registrations)
    (hdistinct : ∀ entry ∈ answers, ∀ stats, stats? entry.2 = some stats → stats.Distinct)
    {names : List String} (hnames : NamedAlike start calls c.registrations names) :
    gather (c.assemble answers).families = gather (c.assemble answers').families := by
  have hanswers : ∀ entry ∈ answers, entry.1 ∈ c.registrations := by
    intro entry hentry
    rw [← hasked]
    exact List.mem_map_of_mem hentry
  apply gather_eq_of_reorders (c.assemble_reorders hp)
  · intro family hfamily
    exact (valid_of_mem_assemble (h.valid hstart) hanswers hfamily).samples
  · exact h.nodup_names hstart answers
  · intro family hfamily
    obtain ⟨entry, -, hexposes⟩ :=
      exists_of_mem_forall₂ (forall₂_families h hstart hanswers).1 hfamily
    have hlength : ∀ source ∈ reported answers entry.1,
        source.2.labels.length = entry.1.labels.length := fun source hmem => (mem_reported hmem).1
    have hkeys : ((answers.map Prod.fst).map fun r => r.task.key).Nodup := by
      rw [hasked]
      exact h.nodup_keys
    refine ⟨nodup_labels hexposes.samples hlength (nodup_tags hkeys hdistinct entry.1), ?_⟩
    refine namesAlike_of_taken hnames (fun source hmem => ?_) hexposes.samples hlength
    exact hasked ▸ (mem_reported hmem).2

/-! ## Calls in another order -/

/-- Adding different tasks registers them in the order of the calls. -/
theorem run_adds (hn : c.naming = some naming) {adds : List (Task × LabelSet)}
    {order : List Registration} (h : List.Forall₂ (fun (add : Task × LabelSet) (r : Registration) =>
      add.1 = r.task ∧ describeTask naming add.2 = .ok r.descriptors) adds order)
    (hkeys : (c.keys ++ order.map (·.task.key)).Nodup) :
    c.run (adds.map fun add => .add add.1 add.2) = c.inOrder (c.registrations ++ order) := by
  induction h generalizing c with
  | nil => simp [inOrder]
  | @cons add r adds order hadd _ ih =>
    obtain ⟨task, labels⟩ := add
    obtain ⟨rfl, hds⟩ : task = r.task ∧ describeTask naming labels = .ok r.descriptors := hadd
    have hmissing : ¬c.contains r.task.id r.task.ns = true := by
      intro hthere
      have hkey := contains_eq_true_iff.1 hthere
      exact List.disjoint_of_nodup_append hkeys hkey List.mem_cons_self
    have hafter : c.after (.add r.task labels) = c.inOrder (c.registrations ++ [r]) := by
      rw [after_add hn, if_neg hmissing, hds]
      rfl
    have hrest : ((c.inOrder (c.registrations ++ [r])).keys ++ order.map (·.task.key)).Nodup := by
      simpa [keys, inOrder] using hkeys
    show (c.after (.add r.task labels)).run (adds.map fun add => .add add.1 add.2) = _
    have hnaming : (c.inOrder (c.registrations ++ [r])).naming = some naming := hn
    rw [hafter, ih hnaming hrest]
    simp [inOrder]

/-! ## A scrape -/

/-- Tasks with sources of their own answer the same in any order. -/
theorem perm_askAll (host : Host) {order order' : List Registration} (hp : order.Perm order')
    (hsources : (order.map (·.task.source)).Nodup) :
    (askAll host order).1.Perm (askAll host order').1 := by
  rw [fst_askAll host hsources, fst_askAll host ((hp.map _).nodup_iff.1 hsources)]
  exact hp.map _

/-- **The body of a scrape does not depend on the order of the tasks**, for every state that calls
lead to in which the tasks with labels of their own have labels of the same names, and all answers
in which no device and no page size comes twice. The registry may hand out the tasks in any order in
each of two scrapes, if every task gives the same answer in both; and the calls that added the tasks
may be made in any order, which builds a registry with the tasks in this order. -/
theorem body_collect_perm (hstart : ofNaming (some naming) = .ok start) (calls : List Call)
    {names : List String} (hnames : NamedAlike start calls (start.run calls).registrations names)
    {order order' : List Registration} (hp : order.Perm (start.run calls).registrations)
    (hp' : order'.Perm (start.run calls).registrations) {host host' : Host}
    (hsame : (askAll host order).1.Perm (askAll host' order').1)
    (hdistinct : ∀ entry ∈ (askAll host order).1, ∀ stats, stats? entry.2 = some stats →
      stats.Distinct) :
    body (((start.run calls).inOrder order').collect host').1.families =
        body (((start.run calls).inOrder order).collect host).1.families ∧
      ∀ adds : List (Task × LabelSet),
        List.Forall₂ (fun add r => add.1 = r.task ∧ AddedBy start calls r.task add.2) adds order' →
        let rebuilt := start.run (adds.map fun add => .add add.1 add.2)
        rebuilt = (start.run calls).inOrder order' ∧
          body (rebuilt.collect host').1.families =
            body (((start.run calls).inOrder order).collect host).1.families := by
  obtain ⟨hnaming, hempty, hdescribed⟩ := ofNaming_eq_ok hstart
  have hregistered := run_registered hstart calls
  have hbody : body (((start.run calls).inOrder order').collect host').1.families =
      body (((start.run calls).inOrder order).collect host).1.families := by
    have hgather := gather_assemble_eq (hregistered.inOrder hp) hdescribed hsame
      (map_fst_askAll host order) hdistinct (fun r hr => hnames r (hp.mem_iff.1 hr))
    exact congrArg encode hgather.symm
  refine ⟨hbody, fun adds hadds => ?_⟩
  intro rebuilt
  have hrebuilt : rebuilt = (start.run calls).inOrder order' := by
    have hdescribe : List.Forall₂ (fun (add : Task × LabelSet) (r : Registration) =>
        add.1 = r.task ∧ describeTask naming add.2 = .ok r.descriptors) adds order' := by
      obtain ⟨hlength, hzip⟩ := List.forall₂_iff_zip.1 hadds
      refine List.forall₂_iff_zip.2 ⟨hlength, fun {add r} hmem => ?_⟩
      obtain ⟨htask, hadded⟩ := hzip hmem
      obtain ⟨labels, hadded', hds⟩ := hregistered.added r (hp'.mem_iff.1 (List.of_mem_zip hmem).2)
      exact ⟨htask, hadded.unique hadded' ▸ hds⟩
    have hkeys : (start.keys ++ order'.map (·.task.key)).Nodup := by
      rw [keys, hempty]
      exact (hregistered.inOrder hp').nodup_keys
    have hrun := run_adds hnaming hdescribe hkeys
    rw [hempty, List.nil_append] at hrun
    rw [inOrder, hregistered.enabled, hregistered.descriptors, ← hnaming]
    exact hrun
  refine ⟨hrebuilt, ?_⟩
  rw [hrebuilt]
  exact hbody

/-- Two tasks with two devices each, of which one has a label of its own. The registry hands them
out from last to first, and is built again in that order. -/
theorem body_collect_perm_two_tasks :
    ∃ start, ofNaming (some ⟨"container", none, .empty⟩) = .ok start ∧
      let zone : LabelSet := .ofList [("zone", "eu")]
      let calls := [.add ⟨"a", "moby", ⟨0⟩⟩ zone, .add ⟨"b", "moby", ⟨1⟩⟩ .empty]
      let stats : Payload.Unified.Stats :=
        { io := some ⟨[{ major := 8, rbytes := 1 }, { major := 8, minor := 16, rbytes := 1 }]⟩ }
      let answer : Answer := .ok (.ofUnified stats)
      let host : Host := { sources := [.script answer [], .script answer []] }
      let c := start.run calls
      c.keys = ["a-moby", "b-moby"] ∧
        body ((c.inOrder c.registrations.reverse).collect host).1.families =
          body (c.collect host).1.families ∧
        body ((start.run calls.reverse).collect host).1.families =
          body (c.collect host).1.families := by
  obtain ⟨start, hstart⟩ := exists_ofNaming_container
  obtain ⟨hnaming, hempty, -⟩ := ofNaming_eq_ok hstart
  refine ⟨start, hstart, ?_⟩
  intro zone calls stats answer host c
  obtain ⟨ds, hds⟩ : ∃ ds, describeTask ⟨"container", none, .empty⟩ zone = .ok ds := by
    have hsome : (describeTask ⟨"container", none, .empty⟩ zone).toOption.isSome = true := by
      decide +kernel
    cases hds : describeTask ⟨"container", none, .empty⟩ zone with
    | error e =>
      rw [hds] at hsome
      cases hsome
    | ok ds => exact ⟨ds, rfl⟩
  have hc : c.registrations = [⟨⟨"a", "moby", ⟨0⟩⟩, ds⟩, ⟨⟨"b", "moby", ⟨1⟩⟩, none⟩] := by
    have hfirst : start.after (.add ⟨"a", "moby", ⟨0⟩⟩ zone) =
        { start with registrations := [⟨⟨"a", "moby", ⟨0⟩⟩, ds⟩] } := by
      rw [after_add hnaming, hds]
      simp [contains, keys, hempty]
    show ((start.after (.add ⟨"a", "moby", ⟨0⟩⟩ zone)).after
      (.add ⟨"b", "moby", ⟨1⟩⟩ .empty)).registrations = _
    rw [hfirst]
    simp [after, add, hnaming, contains, keys, describeTask, LabelSet.isEmpty,
      LabelSet.empty, Task.key, taskKey]
  -- the calls that registered the two tasks
  have hadded : ∀ task labels, AddedBy start calls task labels →
      task = ⟨"a", "moby", ⟨0⟩⟩ ∧ labels = zone ∨ task = ⟨"b", "moby", ⟨1⟩⟩ ∧ labels = .empty := by
    rintro task labels ⟨earlier, since, heq, -, -⟩
    have hmem : Call.add task labels ∈ calls := by rw [heq]; simp
    simpa [calls] using hmem
  have hnames : NamedAlike start calls c.registrations ["zone"] := by
    intro r _ labels h
    rcases hadded _ _ h with ⟨-, rfl⟩ | ⟨-, rfl⟩
    · exact .inr rfl
    · exact .inl rfl
  have hsources : (c.registrations.map (·.task.source)).Nodup := by
    simp [hc]
  have hdistinct : ∀ entry ∈ (askAll host c.registrations).1, ∀ stats, stats? entry.2 = some stats →
      stats.Distinct := by
    have hread : stats? answer = some stats := by decide +kernel
    rw [fst_askAll host hsources, hc]
    intro entry hentry found hfound
    have hanswer : entry.2 = answer := by
      rcases List.mem_pair.1 hentry with rfl | rfl <;> rfl
    obtain rfl := Option.some.inj (hread.symm.trans (hanswer ▸ hfound))
    unfold Payload.Unified.Stats.Distinct
    decide
  have hadds : List.Forall₂ (fun (add : Task × LabelSet) (r : Registration) =>
      add.1 = r.task ∧ AddedBy start calls r.task add.2)
      [(⟨"b", "moby", ⟨1⟩⟩, .empty), (⟨"a", "moby", ⟨0⟩⟩, zone)] c.registrations.reverse := by
    have hthere := (run_registered hstart calls).added
    rw [show (start.run calls).registrations = _ from hc] at hthere
    obtain ⟨⟨labels, ha, -⟩, labels', hb, -⟩ :=
      (List.forall_mem_cons.1 hthere).imp_right List.forall_mem_singleton.1
    obtain rfl : labels = zone := by simpa using hadded _ _ ha
    obtain rfl : labels' = .empty := by simpa using hadded _ _ hb
    rw [hc]
    exact .cons ⟨rfl, hb⟩ (.cons ⟨rfl, ha⟩ .nil)
  have hreverse := (List.reverse_perm c.registrations)
  obtain ⟨hbody, hrebuilt⟩ := body_collect_perm hstart calls hnames (List.Perm.refl _) hreverse
    (perm_askAll host hreverse.symm hsources) hdistinct
  refine ⟨?_, hbody, (hrebuilt _ hadds).2⟩
  rw [keys, hc]
  rfl

end Collector

end ContainerUsage
