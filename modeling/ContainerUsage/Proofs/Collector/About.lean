import Mathlib
import ContainerUsage.Proofs.Collector.Families

/-!
# What a scrape shows of a container

The samples of a container have its identifier and its namespace among their labels, and so can be
told from all others. `Scrape.about` is what a scrape shows of one container: the families in which
it has samples, with these samples only.

* `Sample.Shows.isAbout_eq` says that the labels of a sample are those of its task.
* `Collector.about_assemble` follows: what answers show of a container is what its own answers show.
-/

namespace ContainerUsage

/-! ## The samples of a container -/

/-- The sample has the labels of a container. -/
def Sample.isAbout (id ns : String) (s : Sample) : Bool :=
  s.labels.lookup "container_id" = some id && s.labels.lookup "namespace" = some ns

/-- A family with the samples of one container only. -/
def Family.about (id ns : String) (family : Family) : Family :=
  { family with samples := family.samples.filter (Sample.isAbout id ns) }

/-- What a scrape shows of a container: the families in which it has samples, with its samples
only. -/
def Scrape.about (id ns : String) (scrape : Scrape) : List Family :=
  (scrape.families.map (Family.about id ns)).filter (!·.samples.isEmpty)

/-- The task of a container. -/
def Task.isOf (id ns : String) (task : Task) : Bool := task.id = id && task.ns = ns

/-- A sample has the labels of its container, and of no other. -/
theorem Sample.Shows.isAbout_eq {constant : LabelSet} {metric : Metric} {task : Task}
    {v : MetricValue} {s : Sample} (h : Sample.Shows constant metric task v s) (id ns : String) :
    s.isAbout id ns = task.isOf id ns := by
  have hlookup : ∀ name value, (name, value) ∈ s.labels → s.labels.lookup name = some value :=
    fun name value hmem => (lookup_eq_some_iff_of_sorted h.sorted name value).2 hmem
  have hid := hlookup _ _ ((h.mem_labels "container_id" task.id).2 (.inl (by simp)))
  have hns := hlookup _ _ ((h.mem_labels "namespace" task.ns).2 (.inl (by simp)))
  simp [Sample.isAbout, Task.isOf, hid, hns]

namespace Collector

section assemble

variable {naming : Naming} {start c : Collector} {calls : List Call} (id ns : String)

/-- The samples of one reading are all about its container. -/
theorem filter_isAbout_samplesOf (h : Registered naming start calls c)
    (hstart : Metric.describeAll naming Metric.catalog = .ok start.descriptors)
    {reading : Reading} (hr : reading.registration ∈ c.registrations) {index : Nat}
    {metric : Metric} (hmetric : Metric.catalog[index]? = some metric) :
    ((c.samplesOf index metric reading).filterMap Except.toOption).filter (Sample.isAbout id ns) =
      if reading.registration.task.isOf id ns then
        (c.samplesOf index metric reading).filterMap Except.toOption
      else [] := by
  have hall : ∀ s ∈ (c.samplesOf index metric reading).filterMap Except.toOption,
      s.isAbout id ns = reading.registration.task.isOf id ns := by
    have htaken := (forall₂_filterMap_toOption (forall₂_samplesOf h hstart hr hmetric)).1
    intro s hs
    obtain ⟨source, hsource, labels, -, hshows⟩ := exists_of_mem_forall₂ htaken hs
    obtain ⟨v, -, rfl⟩ := List.mem_map.1 hsource
    exact hshows.isAbout_eq id ns
  split
  · next hof => exact List.filter_eq_self.2 fun s hs => (hall s hs).trans hof
  · next hof => exact List.filter_eq_nil_iff.2 fun s hs => by rwa [hall s hs]

/-- The samples about a container are those of its readings. -/
theorem filter_isAbout_samplesAt (h : Registered naming start calls c)
    (hstart : Metric.describeAll naming Metric.catalog = .ok start.descriptors)
    {readings : List Reading} (hr : ∀ reading ∈ readings, reading.registration ∈ c.registrations)
    {index : Nat} {metric : Metric} (hmetric : Metric.catalog[index]? = some metric) :
    ((c.samplesAt readings index metric).filterMap Except.toOption).filter (Sample.isAbout id ns) =
      (c.samplesAt (readings.filter (·.registration.task.isOf id ns)) index metric).filterMap
        Except.toOption := by
  induction readings with
  | nil => rfl
  | cons reading rest ih =>
    obtain ⟨hhead, hrest⟩ := List.forall_mem_cons.1 hr
    have hof := filter_isAbout_samplesOf id ns h hstart hhead hmetric
    unfold samplesAt at ih ⊢
    rw [List.flatMap_cons, List.filterMap_append, List.filter_append, ih hrest, hof,
      List.filter_cons]
    by_cases htask : reading.registration.task.isOf id ns = true <;> simp [htask]

/-- The readings of a container are those of its answers. -/
theorem filter_isOf_readings (answers : List (Registration × Answer)) :
    (readings answers).1.filter (·.registration.task.isOf id ns) =
      (readings (answers.filter (·.1.task.isOf id ns))).1 := by
  induction answers with
  | nil => rfl
  | cons entry rest ih =>
    obtain ⟨r, answer⟩ := entry
    by_cases hof : r.task.isOf id ns = true <;>
      cases hstats : statsOf r.task answer <;> simp [readings, hstats, hof, ih]

/-- What answers show of a container is what its own answers show. -/
theorem about_assemble (h : Registered naming start calls c)
    (hstart : Metric.describeAll naming Metric.catalog = .ok start.descriptors)
    {answers : List (Registration × Answer)}
    (hanswers : ∀ entry ∈ answers, entry.1 ∈ c.registrations) :
    (c.assemble answers).about id ns =
      (c.assemble (answers.filter (·.1.task.isOf id ns))).families := by
  have hreadings : ∀ reading ∈ (readings answers).1, reading.registration ∈ c.registrations := by
    intro reading hmem
    obtain ⟨entry, hentry, heq⟩ := exists_answer_of_mem_readings hmem
    exact heq ▸ hanswers entry hentry
  -- a family without samples has none about the container
  have hempty : ∀ families : List Family,
      ((families.filter (!·.samples.isEmpty)).map (Family.about id ns)).filter
        (!·.samples.isEmpty) =
        (families.map (Family.about id ns)).filter (!·.samples.isEmpty) := by
    intro families
    induction families with
    | nil => rfl
    | cons family rest ih =>
      by_cases hnone : family.samples = []
      · simp [hnone, Family.about, ih]
      · simp [hnone, List.filter_cons, ih]
  have hmetrics : c.metrics = Metric.catalog := by simp [metrics, h.enabled]
  unfold Scrape.about assemble
  dsimp only
  rw [hempty, List.map_map, List.map_map, List.map_map, hmetrics]
  refine congrArg _ (List.map_congr_left fun entry hentry => ?_)
  obtain ⟨⟨metric, descriptor⟩, index⟩ := entry
  have hindex := List.mem_zipIdx_iff_getElem?.1 hentry
  have hmetric : Metric.catalog[index]? = some metric := (List.getElem?_zip_eq_some.1 hindex).1
  have hsamples := filter_isAbout_samplesAt id ns h hstart hreadings hmetric
  rw [filter_isOf_readings] at hsamples
  simp [familyAt, Family.about, hsamples]

end assemble

end Collector

end ContainerUsage
