import Mathlib
import ContainerUsage.Proofs.Collector.Asking
import ContainerUsage.Proofs.Collector.Labels
import ContainerUsage.Proofs.Discovery.Freshness
import ContainerUsage.Proofs.Payload.Content
import ContainerUsage.Proofs.Stat.DeviceLines

/-!
# Devices that are listed twice

The samples of a metric of the io controller are told apart by the numbers of their device. These
come from `io.stat`, a line for each device, and nothing checks that no two lines are about the same
one.

* `Stat.map_numbers_of_readIo` says which devices are read: those that the lines name, as often as
  they name them (`Stat.listedDevices`). A number may be written in several ways, so two lines can
  name one device in different words (`Stat.listed_twice`).
* `Collector.nodup_labels_iff_tags` shows that samples of one family have equal labels only where
  their tags are equal, and there they have.
* `Collector.nodup_labels_io_iff` puts this together for a scrape: the samples of a family of the io
  controller have different labels exactly if no task reports a device twice, and a task that reads
  a cgroup reports the devices that its `io.stat` lists.
-/

namespace ContainerUsage

open Payload

/-- The numbers of a device. -/
def Payload.Unified.Device.numbers (device : Unified.Device) : UInt64 × UInt64 :=
  (device.major, device.minor)

/-! ## The devices in a file -/

namespace Stat

open Text

/-- The device that a line names, unless it is blank. -/
def lineNumbers? (line : Bytes) : Option (UInt64 × UInt64) :=
  (Utf8.decode? line).bind fun text => (words text.toList).head?.bind parseDevice

/-- The devices that the lines of a file name, as often as they name them. -/
def listedDevices (content : Bytes) : List (UInt64 × UInt64) :=
  (lines content).filterMap lineNumbers?

/-- The numbers on a line are those of the entry that it says. -/
theorem Says.lineNumbers? {line : Bytes} {entry : Option Unified.Device} (h : Says line entry) :
    lineNumbers? line = entry.map Unified.Device.numbers := by
  unfold Stat.lineNumbers?
  cases h with
  | blank htext hwords =>
    rw [htext, Option.bind_some, hwords]
    rfl
  | @device text major minor entries device htext hwords hcolon hmajor hminor _ =>
    rw [htext, Option.bind_some, hwords, List.head?_cons, Option.bind_some]
    exact parseDevice_eq_some_iff.2 ⟨major, minor, rfl, hcolon, hmajor, hminor⟩

/-- **The devices that are read are those that the lines name**, one after the other. -/
theorem map_numbers_of_readIo {content : Bytes} {io : Unified.Io}
    (h : (readIo content).1 = .ok io) :
    io.usage.map Unified.Device.numbers = listedDevices content := by
  obtain ⟨devices⟩ := io
  obtain ⟨entries, hentries, rfl⟩ := readIo_eq_ok_iff.1 h
  have hlines : (lines content).map lineNumbers? =
      entries.map (Option.map Unified.Device.numbers) := by
    rw [← List.forall₂_eq_eq_eq, List.forall₂_map_left_iff, List.forall₂_map_right_iff]
    exact hentries.imp fun line entry hsays => hsays.lineNumbers?
  have hlisted : listedDevices content = ((lines content).map lineNumbers?).reduceOption := by
    rw [listedDevices, List.reduceOption, List.filterMap_map, Function.id_comp]
  rw [hlisted, hlines, List.reduceOption_map]

/-- Two lines about one device, with its numbers written in two ways, are read as two devices. -/
theorem listed_twice :
    (readIo (written ["8:0 rbytes=1", "+8:00 rbytes=2"])).1 =
        .ok ⟨[{ major := 8, rbytes := 1 }, { major := 8, rbytes := 2 }]⟩ ∧
      ¬([{ major := 8, rbytes := 1 }, { major := 8, rbytes := 2 }].map
        Unified.Device.numbers).Nodup := by
  decide +kernel

end Stat

namespace Collector

/-! ## Samples with equal labels -/

/-- Lists of labels with the same labels are equal, if both are sorted. -/
theorem eq_of_sorted {labels others : List Label} (h : labels.Pairwise fun a b => a.1 < b.1)
    (hothers : others.Pairwise fun a b => a.1 < b.1)
    (hmem : ∀ label, label ∈ labels ↔ label ∈ others) :
    labels = others := by
  refine LabelSet.eq_of_forall_lookup_eq h hothers fun name => Option.ext fun value => ?_
  rw [lookup_eq_some_iff_of_sorted h, lookup_eq_some_iff_of_sorted hothers, hmem]

variable {naming : Naming} {start : Collector} {calls : List Call} {metric : Metric}

/-- Samples of one task have equal labels if the values that they show have. -/
theorem labels_eq_of_taken {s t : Sample} {source other : Registration × MetricValue}
    (hs : Taken naming start calls metric s source) (ht : Taken naming start calls metric t other)
    (htask : source.1.task = other.1.task) (hvalue : source.2.labels = other.2.labels) :
    s.labels = t.labels := by
  obtain ⟨labels, hadded, hshows⟩ := hs
  obtain ⟨labels', hadded', hshows'⟩ := ht
  rw [← htask] at hadded' hshows'
  obtain rfl := hadded.unique hadded'
  refine eq_of_sorted hshows.sorted hshows'.sorted fun label => ?_
  rw [hshows.mem_labels, hshows'.mem_labels, hvalue]

/-- **Samples have equal labels exactly if they show values with equal tags.** -/
theorem nodup_labels_iff_tags {samples : List Sample} {sources : List (Registration × MetricValue)}
    (h : List.Forall₂ (Taken naming start calls metric) samples sources)
    (hlength : ∀ source ∈ sources, source.2.labels.length = metric.labels.length)
    (htasks : ∀ source ∈ sources, ∀ other ∈ sources, tag source = tag other →
      source.1.task = other.1.task) :
    (samples.map (·.labels)).Nodup ↔ (sources.map tag).Nodup := by
  refine ⟨fun hnodup => ?_, nodup_labels h hlength⟩
  clear hlength
  induction h with
  | nil => exact List.nodup_nil
  | @cons s source samples sources hs hrest ih =>
    obtain ⟨hnew, hnodup⟩ := List.nodup_cons.1 hnodup
    refine List.nodup_cons.2 ⟨fun hmem => ?_, ih (fun source hsource other hother =>
      htasks source (List.mem_cons_of_mem _ hsource) other (List.mem_cons_of_mem _ hother)) hnodup⟩
    -- another sample shows the value with the same tag, and so has the same labels
    obtain ⟨other, hother, htag⟩ := List.mem_map.1 hmem
    obtain ⟨t, ht, htaken⟩ := exists_of_mem_forall₂ hrest.flip hother
    have htask := htasks other (List.mem_cons_of_mem _ hother) source List.mem_cons_self htag
    have hvalue : other.2.labels = source.2.labels := (Prod.mk.inj (Prod.mk.inj htag).2).2
    exact hnew (List.mem_map.2 ⟨t, ht, labels_eq_of_taken htaken hs htask hvalue⟩)

/-! ## The devices in an answer -/

/-- The devices in an answer, as often as they are in it. -/
def reportedDevices (answer : Answer) : List (UInt64 × UInt64) :=
  match stats? answer with
  | none => []
  | some stats => (Series.devices stats).map Unified.Device.numbers

/-- The values of a metric of the io controller differ in their labels exactly if the devices
differ. -/
theorem nodup_labels_values_iff (hmetric : metric ∈ Metric.ioMetrics) (stats : Unified.Stats) :
    ((metric.values stats).map (·.labels)).Nodup ↔
      ((Series.devices stats).map Unified.Device.numbers).Nodup := by
  obtain ⟨field, hseries⟩ : ∃ field, metric.series = .perDevice field := by
    simp only [Metric.ioMetrics, List.mem_cons, List.not_mem_nil, or_false] at hmetric
    rcases hmetric with rfl | rfl | rfl | rfl <;> exact ⟨_, rfl⟩
  have hprint : Function.Injective fun numbers : UInt64 × UInt64 =>
      [Decimal.print numbers.1.toNat, Decimal.print numbers.2.toNat] := by
    intro numbers others h
    have hprinted := List.cons.inj h
    exact Prod.ext (Decimal.print_toNat_inj.1 hprinted.1)
      (Decimal.print_toNat_inj.1 (List.cons.inj hprinted.2).1)
  rw [← List.nodup_map_iff hprint, Metric.values, hseries, Series.values,
    List.map_map, List.map_map]
  rfl

/-- The reported values of such a metric have different tags exactly if no answer has a device
twice. -/
theorem nodup_tags_iff {answers : List (Registration × Answer)}
    (hkeys : ((answers.map Prod.fst).map fun r => r.task.key).Nodup)
    (hmetric : metric ∈ Metric.ioMetrics) :
    ((reported answers metric).map tag).Nodup ↔
      ∀ entry ∈ answers, (reportedDevices entry.2).Nodup := by
  constructor
  · intro hnodup entry hentry
    rw [reported, List.map_flatMap, List.nodup_flatMap] at hnodup
    have hone := hnodup.1 entry hentry
    rw [reportedDevices]
    cases hstats : stats? entry.2 with
    | none => exact List.nodup_nil
    | some stats =>
      rw [hstats] at hone
      refine (nodup_labels_values_iff hmetric stats).1
        (List.Nodup.of_map (fun labels => (entry.1.task.id, entry.1.task.ns, labels)) ?_)
      rw [List.map_map]
      dsimp only at hone
      rwa [List.map_map] at hone
  · intro hdevices
    refine nodup_tags_of_values hkeys fun entry hentry stats hstats => ?_
    have hone := hdevices entry hentry
    rw [reportedDevices, hstats] at hone
    exact (nodup_labels_values_iff hmetric stats).2 hone

/-- A task reads the `io.stat` of its cgroup from a file. -/
def ReadsIo (host : Host) (task : Task) (id : FileId) : Prop :=
  ∃ reader handle, host.sources[task.source.index]? = some (.cgroup reader) ∧
    Cgroup.StatReader.Built reader ∧ reader.files .ioStat = some handle ∧ handle.file? = some id

/-- A task that reads a cgroup answers what is in its files, whatever tasks are asked before it. -/
theorem eq_answer_of_mem_askAll {host : Host} {order : List Registration}
    {entry : Registration × Answer}
    {reader : Cgroup.StatReader} (hentry : entry ∈ (askAll host order).1) (h : reader.AtStart)
    (hsource : host.sources[entry.1.task.source.index]? = some (.cgroup reader)) :
    entry.2 = reader.answer host.files := by
  induction order generalizing host with
  | nil => exact absurd hentry List.not_mem_nil
  | cons r rest ih =>
    rw [askAll] at hentry
    rcases List.mem_cons.1 hentry with rfl | hrest
    · exact Host.ask_of_cgroup hsource
    · rw [← Host.files_ask host r.task.source]
      exact ih hrest (Host.sources_ask h hsource r.task.source)

/-- An answer from the files of a cgroup holds the stats in them, and none of them was refused. -/
theorem answer_eq_ok {reader : Cgroup.StatReader} (h : reader.AtStart) {fs : FileSystem}
    {envelope : Envelope} (hanswer : reader.answer fs = .ok envelope) :
    reader.faults fs = [] ∧ envelope = .ofUnified (reader.expected fs) := by
  rw [Cgroup.StatReader.answer, Cgroup.StatReader.read_of_atStart h] at hanswer
  cases hfaults : reader.faults fs with
  | nil =>
    rw [hfaults] at hanswer
    exact ⟨rfl, (Except.ok.inj hanswer).symm⟩
  | cons cause others =>
    rw [hfaults] at hanswer
    cases hanswer

/-- An answer from the files of a cgroup has the devices that its `io.stat` lists. -/
theorem reportedDevices_of_readsIo {host : Host} {order : List Registration}
    {entry : Registration × Answer}
    {id : FileId} (hentry : entry ∈ (askAll host order).1) (h : ReadsIo host entry.1.task id)
    {envelope : Envelope} (hanswer : entry.2 = .ok envelope) (hfits : envelope.Fits) :
    reportedDevices entry.2 = Stat.listedDevices (host.files.content id) := by
  obtain ⟨reader, handle, hsource, hbuilt, hfile, hid⟩ := h
  have hread := eq_answer_of_mem_askAll hentry hbuilt.atStart hsource
  rw [hanswer] at hread
  obtain ⟨hfaults, rfl⟩ := answer_eq_ok hbuilt.atStart hread.symm
  have hstats : stats? (.ok (.ofUnified (reader.expected host.files))) =
      some (reader.expected host.files) := by
    have hcontent : (Envelope.ofUnified (reader.expected host.files)).content =
        .ok (.unified (reader.expected host.files)) :=
          Envelope.content_unified hfits List.mem_cons_self
    rw [stats?, hcontent]
    rfl
  have houtcome : Cgroup.outcome host.files Stat.readIo handle =
      (Stat.readIo (host.files.content id)).1 := by
    rw [Cgroup.outcome, hid]
  have hio : Cgroup.faultsOf host.files Stat.readIo (reader.files .ioStat) = [] := by
    simp only [Cgroup.StatReader.faults, List.flatten_eq_nil_iff, List.forall_mem_cons] at hfaults
    exact hfaults.2.2.2.2.1
  rw [hanswer, reportedDevices, hstats]
  show (((Cgroup.valueOf host.files Stat.readIo (reader.files .ioStat)).map (·.usage)).getD []).map
    _ = _
  rw [Cgroup.valueOf, hfile, Option.map_some, houtcome]
  rw [Cgroup.faultsOf, hfile, Option.map_some, houtcome] at hio
  cases hcontent : (Stat.readIo (host.files.content id)).1 with
  | error cause =>
    rw [hcontent] at hio
    cases hio
  | ok io => exact Stat.map_numbers_of_readIo hcontent

/-! ## A scrape -/

/-- **The samples of the io controller have different labels exactly if no task reports a device
twice**, for every state that calls lead to, every order of the tasks and every host to ask them
through. The devices that are read from `io.stat` are those that its lines name, as often as they
name them, and a task that reads a cgroup reports these. -/
theorem nodup_labels_io_iff (h : ofNaming (some naming) = .ok start) (calls : List Call)
    {order : List Registration} (hp : order.Perm (start.run calls).registrations) (host : Host) :
    let c := (start.run calls).inOrder order
    let answers := (askAll host order).1
    List.Forall₂ (fun family entry => entry.1 ∈ Metric.ioMetrics →
        ((family.samples.map (·.labels)).Nodup ↔
          ∀ asked ∈ answers, (reportedDevices asked.2).Nodup))
      (c.collect host).1.families
      ((Metric.catalog.zip c.descriptors).filter fun entry => !(reported answers entry.1).isEmpty) ∧
    (∀ asked ∈ answers, ∀ id envelope, ReadsIo host asked.1.task id → asked.2 = .ok envelope →
      envelope.Fits →
      reportedDevices asked.2 = Stat.listedDevices (host.files.content id)) ∧
    ∀ content io, (Stat.readIo content).1 = .ok io →
      io.usage.map Unified.Device.numbers = Stat.listedDevices content := by
  intro c answers
  have hc : Registered naming start calls c := (run_registered h calls).inOrder hp
  have hkeys : ((answers.map Prod.fst).map fun r => r.task.key).Nodup := hc.nodup_keys_askAll host
  refine ⟨?_, ?_, fun content io => Stat.map_numbers_of_readIo⟩
  · refine (forall₂_collect hc (ofNaming_eq_ok h).2.2 host).1.imp
      fun family entry hexposes hmetric => ?_
    rw [← nodup_tags_iff hkeys hmetric]
    refine nodup_labels_iff_tags hexposes.samples (fun source hmem => (mem_reported hmem).1) ?_
    intro source hsource other hother htag
    rw [List.inj_on_of_nodup_map hkeys (mem_reported hsource).2 (mem_reported hother).2
      (key_eq_of_tag_eq htag)]
  · intro asked hentry id envelope hreads hanswer
    exact reportedDevices_of_readsIo hentry hreads hanswer

/-- A cgroup with one device on two lines. -/
def twoLines : FileSystem where
  entries := [(Utf8.encode "io.stat", .file ⟨0⟩)]
  contents := [Stat.written ["8:0 rbytes=1", "+8:00 rbytes=2"]]

/-- A reader of this cgroup. -/
def twoLinesReader : Cgroup.StatReader where
  files := fun file => if file = .ioStat then some ⟨some ⟨0⟩, 0⟩ else none
  hugetlb := []

/-- What is in this cgroup. -/
def twoLinesStats : Unified.Stats where
  io := some ⟨[{ major := 8, rbytes := 1 }, { major := 8, rbytes := 2 }]⟩

/-- The reader of this directory has `io.stat` open and nothing else. -/
theorem ofCgroup_twoLines :
    Cgroup.StatReader.ofCgroup twoLines (Path.ofText "/") = .ok twoLinesReader := by
  have hfiles : ∀ file : Cgroup.ControllerFile,
      (twoLines.openFile ((Path.ofText "/").join file.name)).toOption =
        if file = .ioStat then some ⟨some ⟨0⟩, 0⟩ else none := by
    intro file
    cases file <;> cbv
  have hopened : Cgroup.StatReader.ofCgroup twoLines (Path.ofText "/") = .ok ⟨fun file =>
      (twoLines.openFile ((Path.ofText "/").join file.name)).toOption, []⟩ := by
    cbv
  rw [hopened, funext hfiles]
  rfl

/-- It answers with both entries. -/
theorem answer_twoLinesReader :
    twoLinesReader.answer twoLines = .ok (.ofUnified twoLinesStats) := by
  have hread : Cgroup.verdict (twoLinesReader.faults twoLines) (twoLinesReader.expected twoLines) =
      .ok twoLinesStats := by
    decide +kernel
  rw [Cgroup.StatReader.answer,
    Cgroup.StatReader.read_of_atStart (Cgroup.StatReader.Built.ofCgroup ofCgroup_twoLines).atStart,
    hread]
  rfl

/-- The task of this cgroup reports the device twice, and has two samples with equal labels. -/
theorem nodup_labels_io_iff_twoLines :
    ∃ start, ofNaming (some ⟨"container", none, .empty⟩) = .ok start ∧
      Cgroup.StatReader.ofCgroup twoLines (Path.ofText "/") = .ok twoLinesReader ∧
      let c := start.run [.add ⟨"a", "moby", ⟨0⟩⟩ .empty]
      ∃ family ∈ (c.collect ⟨twoLines, [.cgroup twoLinesReader]⟩).1.families,
        ¬(family.samples.map (·.labels)).Nodup := by
  obtain ⟨start, h⟩ := exists_ofNaming_container
  obtain ⟨hnaming, hempty, hstart⟩ := ofNaming_eq_ok h
  refine ⟨start, h, ofCgroup_twoLines, ?_⟩
  intro c
  have hrun : c.registrations = [⟨⟨"a", "moby", ⟨0⟩⟩, none⟩] := by
    simp [c, run, after, add, contains, keys, hnaming, hempty, describeTask, LabelSet.isEmpty,
      LabelSet.empty]
  have hall :=
    (nodup_labels_io_iff h _ (List.Perm.refl c.registrations) ⟨twoLines,
      [.cgroup twoLinesReader]⟩).1
  have hasked : (askAll ⟨twoLines, [.cgroup twoLinesReader]⟩ c.registrations).1 =
      [(⟨⟨"a", "moby", ⟨0⟩⟩, none⟩, .ok (.ofUnified twoLinesStats))] := by
    rw [hrun, ← answer_twoLinesReader]
    rfl
  rw [hasked] at hall
  -- the first metric of the io controller has a family
  have hmetrics : (Metric.catalog.zip c.descriptors).map Prod.fst = Metric.catalog := by
    rw [(run_registered h _).descriptors]
    exact List.map_fst_zip (Metric.forall₂_describes hstart).length_eq.le
  have hmem : Metric.ioMetrics.head (by decide) ∈ Metric.catalog :=
    List.mem_append_left _ (List.mem_append_right _ List.mem_cons_self)
  rw [← hmetrics] at hmem
  obtain ⟨entry, hentry, hfirst⟩ := List.mem_map.1 hmem
  have hstats : stats? (.ok (.ofUnified twoLinesStats)) = some twoLinesStats := by decide +kernel
  have hreported : (!(reported [(⟨⟨"a", "moby", ⟨0⟩⟩, none⟩, .ok (.ofUnified twoLinesStats))]
      entry.1).isEmpty) = true := by
    rw [reported_cons_of_some hstats, hfirst]
    rfl
  obtain ⟨family, hfamily, hiff⟩ :=
    exists_of_mem_forall₂ hall.flip (List.mem_filter.2 ⟨hentry, hreported⟩)
  refine ⟨family, hfamily, fun hnodup => ?_⟩
  have hdevices := (hiff (hfirst ▸ List.mem_cons_self)).1 hnodup _ List.mem_cons_self
  rw [reportedDevices, hstats] at hdevices
  exact absurd hdevices (by decide)

end Collector

end ContainerUsage
