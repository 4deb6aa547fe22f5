import Mathlib
import ContainerUsage.Proofs.Collector.Families

/-!
# The labels of a scrape

The samples of one family can be told apart by their labels. What tells them apart is the `tag` of a
reported value: the identifier and the namespace of its task and the values of the metric's own
labels.

* `tagOf_labels` reads the tag off the labels of a sample, so samples with equal labels have equal
  tags. Constant labels cannot get in the way, as no name comes twice.
* `nodup_tags` shows that the reported values of a metric have different tags: two tasks differ in
  identifier or namespace because their keys differ, and two values of one task differ in the labels
  of the metric because devices and page sizes do (`nodup_labels_values`).
* `labels_collect` puts this together for a scrape of a collector in any state that calls lead to.
-/

namespace ContainerUsage

/-- Different numbers are printed differently. -/
theorem Decimal.print_toNat_inj {v w : UInt64} :
    Decimal.print v.toNat = Decimal.print w.toNat ↔ v = w := by
  constructor
  · intro h
    have hdigits : Decimal.digits v.toNat = Decimal.digits w.toNat := by
      rw [← Decimal.toList_print, h, Decimal.toList_print]
    have hparse := Decimal.parse_digits v
    rw [hdigits, Decimal.parse_digits w] at hparse
    exact (Except.ok.inj hparse).symm
  · rintro rfl
    rfl

/-- No device and no page size comes twice in stats. -/
def Payload.Unified.Stats.Distinct (stats : Payload.Unified.Stats) : Prop :=
  ((Series.devices stats).map fun device => (device.major, device.minor)).Nodup ∧
    (stats.hugetlb.map (·.pageSize)).Nodup

namespace Collector

/-! ## Tags -/

/-- What tells a value of a metric apart: its task, and the values of the metric's own labels. -/
def tag (source : Registration × MetricValue) : String × String × List String :=
  (source.1.task.id, source.1.task.ns, source.2.labels)

/-- The tag that labels give, by the names of its parts. -/
def tagOf (metric : Metric) (labels : List Label) :
    Option String × Option String × List (Option String) :=
  (labels.lookup "container_id", labels.lookup "namespace",
    metric.labels.map fun name => labels.lookup name)

/-- The tag of a value, as labels give it. -/
def someTag (t : String × String × List String) :
    Option String × Option String × List (Option String) :=
  (some t.1, some t.2.1, t.2.2.map some)

/-- A tag is known from what labels give. -/
theorem someTag_injective : Function.Injective someTag := by
  rintro ⟨id, ns, labels⟩ ⟨id', ns', labels'⟩ h
  obtain ⟨hid, hrest⟩ := Prod.mk.inj h
  obtain ⟨hns, hlabels⟩ := Prod.mk.inj hrest
  have hmap := List.map_injective_iff.2 (Option.some_injective String) hlabels
  obtain rfl := Option.some.inj hid
  obtain rfl := Option.some.inj hns
  obtain rfl : labels = labels' := hmap
  rfl

/-- Values are found again under the names with which they stand in pairs. -/
theorem map_eq_map_some {f : String → Option String} :
    (names values : List String) → values.length = names.length →
      (∀ pair ∈ names.zip values, f pair.1 = some pair.2) → names.map f = values.map some
  | [], [], _, _ => rfl
  | name :: names, value :: values, hlength, h => by
      have hhead := h (name, value) List.mem_cons_self
      have hrest := map_eq_map_some names values (Nat.succ.inj hlength)
        fun pair hmem => h pair (List.mem_cons_of_mem _ hmem)
      rw [List.map_cons, List.map_cons, hhead, hrest]

/-- The labels of a sample give the tag of the value that it shows. -/
theorem tagOf_labels {constant : LabelSet} {metric : Metric} {s : Sample}
    {source : Registration × MetricValue}
    (h : Sample.Shows constant metric source.1.task source.2 s)
    (hv : source.2.labels.length = metric.labels.length) :
    tagOf metric s.labels = someTag (tag source) := by
  have hlookup : ∀ name value, (name, value) ∈ s.labels → s.labels.lookup name = some value :=
    fun name value hmem => (lookup_eq_some_iff_of_sorted h.sorted name value).2 hmem
  have hid : s.labels.lookup "container_id" = some source.1.task.id :=
    hlookup _ _ ((h.mem_labels _ _).2 (.inl (by simp)))
  have hns : s.labels.lookup "namespace" = some source.1.task.ns :=
    hlookup _ _ ((h.mem_labels _ _).2 (.inl (by simp)))
  have hown : (metric.labels.map fun name => s.labels.lookup name) = source.2.labels.map some :=
    map_eq_map_some _ _ hv fun pair hmem => hlookup _ _ ((h.mem_labels _ _).2 (.inr (.inl hmem)))
  rw [tagOf, hid, hns, hown]
  rfl

/-! ## Reported values differ in their tags -/

/-- The values of a metric differ in the labels of the metric. -/
theorem nodup_labels_values {stats : Payload.Unified.Stats} (h : stats.Distinct)
    (metric : Metric) : ((metric.values stats).map (·.labels)).Nodup := by
  obtain ⟨hdevices, hpages⟩ := h
  rw [Metric.values]
  cases metric.series with
  | single field =>
    -- there is one value at most
    rw [Series.values, List.map_map]
    cases field stats <;> simp
  | perDevice field =>
    rw [Series.values, List.map_map]
    refine (List.nodup_map_iff_inj_on hdevices.of_map).2 fun device hd other ho heq => ?_
    have hprinted := List.cons.inj heq
    have hmajor := Decimal.print_toNat_inj.1 hprinted.1
    have hminor := Decimal.print_toNat_inj.1 (List.cons.inj hprinted.2).1
    exact List.inj_on_of_nodup_map hdevices hd ho (Prod.ext hmajor hminor)
  | perPageSize field =>
    rw [Series.values, List.map_map]
    refine (List.nodup_map_iff_inj_on hpages.of_map).2 fun pages hp other ho heq => ?_
    exact List.inj_on_of_nodup_map hpages hp ho (List.cons.inj heq).1

/-- A reported value has as many labels as its metric, and comes from one of the answers. -/
theorem mem_reported {answers : List (Registration × Answer)} {metric : Metric}
    {source : Registration × MetricValue} (h : source ∈ reported answers metric) :
    source.2.labels.length = metric.labels.length ∧ source.1 ∈ answers.map Prod.fst := by
  obtain ⟨entry, hentry, hmem⟩ := List.mem_flatMap.1 h
  split at hmem
  · exact absurd hmem List.not_mem_nil
  · obtain ⟨v, hv, rfl⟩ := List.mem_map.1 hmem
    exact ⟨Series.length_labels_of_mem_values hv, List.mem_map_of_mem hentry⟩

/-- Tasks with one tag have one key. -/
theorem key_eq_of_tag_eq {a b : Registration × MetricValue} (h : tag a = tag b) :
    a.1.task.key = b.1.task.key := by
  obtain ⟨hid, hrest⟩ := Prod.mk.inj h
  rw [Task.key, Task.key, hid, (Prod.mk.inj hrest).1]

/-- The reported values of a metric have different tags if those of each answer differ in their
labels. -/
theorem nodup_tags_of_values {answers : List (Registration × Answer)} {metric : Metric}
    (hkeys : ((answers.map Prod.fst).map fun r => r.task.key).Nodup)
    (hvalues : ∀ entry ∈ answers, ∀ stats, stats? entry.2 = some stats →
      ((metric.values stats).map (·.labels)).Nodup) :
    ((reported answers metric).map tag).Nodup := by
  induction answers with
  | nil => exact List.nodup_nil
  | cons entry rest ih =>
    obtain ⟨r, answer⟩ := entry
    obtain ⟨hnew, hrest⟩ := List.nodup_cons.1 hkeys
    have htail := ih hrest fun other hother => hvalues other (List.mem_cons_of_mem _ hother)
    cases hstats : stats? answer with
    | none => rwa [reported_cons_of_none hstats]
    | some stats =>
      have hown := hvalues (r, answer) List.mem_cons_self stats hstats
      rw [reported_cons_of_some hstats, List.map_append, List.map_map]
      refine List.nodup_append'.2 ⟨?_, htail, fun t hmem hother => ?_⟩
      · -- within one task the labels of the metric differ
        refine List.Nodup.of_map (fun t => t.2.2) ?_
        rwa [List.map_map]
      · -- the tag of another task would bring its key with it
        obtain ⟨v, -, rfl⟩ := List.mem_map.1 hmem
        obtain ⟨source, hsource, heq⟩ := List.mem_map.1 hother
        exact hnew (List.mem_map.2 ⟨source.1, (mem_reported hsource).2, key_eq_of_tag_eq heq⟩)

/-- The reported values of a metric have different tags. -/
theorem nodup_tags {answers : List (Registration × Answer)}
    (hkeys : ((answers.map Prod.fst).map fun r => r.task.key).Nodup)
    (hdistinct : ∀ entry ∈ answers, ∀ stats, stats? entry.2 = some stats → stats.Distinct)
    (metric : Metric) : ((reported answers metric).map tag).Nodup :=
  nodup_tags_of_values hkeys fun entry hentry stats hstats =>
    nodup_labels_values (hdistinct entry hentry stats hstats) metric

/-- Samples of values with different tags have different labels. -/
theorem nodup_labels {naming : Naming} {start : Collector} {calls : List Call} {metric : Metric}
    {samples : List Sample} {sources : List (Registration × MetricValue)}
    (h : List.Forall₂ (Taken naming start calls metric) samples sources)
    (hlength : ∀ source ∈ sources, source.2.labels.length = metric.labels.length)
    (htags : (sources.map tag).Nodup) : (samples.map (·.labels)).Nodup := by
  have hmap : (samples.map (·.labels)).map (tagOf metric) = (sources.map tag).map someTag := by
    rw [List.map_map, List.map_map]
    induction h with
    | nil => rfl
    | cons htaken _ ih =>
      obtain ⟨labels, -, hshows⟩ := htaken
      rw [List.map_cons, List.map_cons, ih
        (fun source hmem => hlength source (List.mem_cons_of_mem _ hmem))
        (List.nodup_cons.1 htags).2]
      rw [Function.comp_apply, tagOf_labels hshows (hlength _ List.mem_cons_self)]
      rfl
  refine List.Nodup.of_map (tagOf metric) ?_
  rw [hmap]
  exact htags.map someTag_injective

/-! ## A scrape -/

/-- **The labels of a scrape**, for every state that calls lead to, every order of the tasks and all
answers in which no device and no page size comes twice. The names of the labels of a sample rise
strictly; the labels are those of the task, those of the metric, and the constant ones of the naming
with the labels of the add call over them; and no two samples of a family have the same labels. -/
theorem labels_collect {naming : Naming} {start : Collector}
    (h : ofNaming (some naming) = .ok start) (calls : List Call) {order : List Registration}
    (hp : order.Perm (start.run calls).registrations) (host : Host)
    (hdistinct : ∀ entry ∈ (askAll host order).1, ∀ stats, stats? entry.2 = some stats →
      stats.Distinct) :
    let c := (start.run calls).inOrder order
    let answers := (askAll host order).1
    List.Forall₂ (fun family entry =>
        (family.samples.map (·.labels)).Nodup ∧
        List.Forall₂ (fun s source =>
            s.labels.Pairwise (fun a b => a.1 < b.1) ∧
            ∃ labels, AddedBy start calls source.1.task labels ∧
              ∀ name value, (name, value) ∈ s.labels ↔
                (name, value) ∈
                    [("container_id", source.1.task.id), ("namespace", source.1.task.ns)] ∨
                  (name, value) ∈ entry.1.labels.zip source.2.labels ∨
                  (labels.get? name).or (naming.labels.get? name) = some value)
          family.samples (reported answers entry.1))
      (c.collect host).1.families
      ((Metric.catalog.zip c.descriptors).filter fun entry =>
        !(reported answers entry.1).isEmpty) := by
  intro c answers
  have hc : Registered naming start calls c := (run_registered h calls).inOrder hp
  have hkeys : ((answers.map Prod.fst).map fun r => r.task.key).Nodup := hc.nodup_keys_askAll host
  refine (forall₂_collect hc (ofNaming_eq_ok h).2.2 host).1.imp fun family entry hexposes => ?_
  constructor
  · exact nodup_labels hexposes.samples (fun source hmem => (mem_reported hmem).1)
      (nodup_tags hkeys hdistinct entry.1)
  · refine hexposes.samples.imp fun s source htaken => ?_
    obtain ⟨labels, hadded, hshows⟩ := htaken
    refine ⟨hshows.sorted, labels, hadded, ?_⟩
    intro name value
    rw [hshows.mem_labels, LabelSet.get?_union]

/-- Two devices of one task, and another task that is handed out first and fails. -/
theorem labels_collect_two_devices :
    ∃ start, ofNaming (some ⟨"container", none, .empty⟩) = .ok start ∧
      let calls := [.add ⟨"a", "moby", ⟨0⟩⟩ .empty, .add ⟨"b", "moby", ⟨1⟩⟩ .empty]
      let order : List Registration :=
        [⟨⟨"b", "moby", ⟨1⟩⟩, none⟩, ⟨⟨"a", "moby", ⟨0⟩⟩, none⟩]
      let stats : Payload.Unified.Stats :=
        { io := some ⟨[{ major := 8, rbytes := 1 }, { major := 8, minor := 16, rbytes := 1 }]⟩ }
      let host : Host :=
        { sources := [.script (.ok (.ofUnified stats)) [],
            .script (.error (.reported "task is gone")) []] }
      let c := (start.run calls).inOrder order
      order.Perm (start.run calls).registrations ∧
      (∀ entry ∈ (askAll host order).1, ∀ stats, stats? entry.2 = some stats → stats.Distinct) ∧
      ∀ family ∈ (c.collect host).1.families, (family.samples.map (·.labels)).Nodup := by
  obtain ⟨start, h⟩ := exists_ofNaming_container
  obtain ⟨hnaming, hempty, -⟩ := ofNaming_eq_ok h
  refine ⟨start, h, ?_⟩
  intro calls order stats host c
  have hp : order.Perm (start.run calls).registrations := by
    have hrun : (start.run calls).registrations =
        [⟨⟨"a", "moby", ⟨0⟩⟩, none⟩, ⟨⟨"b", "moby", ⟨1⟩⟩, none⟩] := by
      simp [calls, run, after, add, contains, keys, hnaming, hempty, describeTask, LabelSet.isEmpty,
        LabelSet.empty, Task.key, taskKey]
    rw [hrun]
    exact List.Perm.swap _ _ _
  have hdistinct : ∀ entry ∈ (askAll host order).1, ∀ stats, stats? entry.2 = some stats →
      stats.Distinct := by
    have hread : stats? (.ok (.ofUnified stats)) = some stats := by decide +kernel
    intro entry hmem found hfound
    simp only [askAll, order, host, Host.ask, Source.ask, List.getElem?_cons_zero,
      List.getElem?_cons_succ, List.set_cons_succ, List.mem_cons, List.not_mem_nil,
      or_false] at hmem
    rcases hmem with rfl | rfl
    · cases hfound
    · obtain rfl := Option.some.inj (hread.symm.trans hfound)
      unfold Payload.Unified.Stats.Distinct
      decide
  have hall := labels_collect h calls hp host hdistinct
  exact ⟨hp, hdistinct, ((List.forall₂_and_left _ _).1 hall).1⟩

end Collector

end ContainerUsage
