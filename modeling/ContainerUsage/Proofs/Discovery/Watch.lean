import Mathlib
import ContainerUsage.Proofs.Discovery.Tracking

/-!
# Scanners that share a collector

A `Watch` is any number of scanners over one collector. Between two scans the files may change in
any way, and the registered tasks may be asked for their stats; the registry is changed by the
scans only.

* `Watch.Valid` is the invariant. The collector holds the tasks of all scanners together, each once,
  and every tracked task belongs to the container that its path names.
* `Watch.Valid.after` is the step, from what one scan does (`Scanner.midway_update`), and
  `Watch.run_valid` the run.
* `Watch.OneToOne` reads the invariant as a correspondence between registrations and tracked scopes.
* `Watch.run_oneToOne` adds what the next scan does: when it fails, and by how much it changes the
  size of the registry.
-/

namespace ContainerUsage

namespace Scanner

/-- A scan fails exactly if the root cannot be listed. -/
theorem scan_eq_error_iff {scanner : Scanner} {collector : Collector} {host : Host}
    {error : ScanError} :
    scanner.scan collector host = .error error ↔ ∃ cause,
      host.files.list (Path.ofText scanner.root) = .error cause ∧
        error = ⟨scanner.root, cause⟩ := by
  unfold scan
  cases hlist : host.files.list (Path.ofText scanner.root) with
  | error cause => simp [hlist, eq_comm]
  | ok entries => simp [hlist]

/-- A scan that succeeds has listed the root. -/
theorem scan_eq_ok_iff {scanner : Scanner} {collector : Collector} {host : Host} {result : Scan} :
    scanner.scan collector host = .ok result ↔ ∃ entries,
      host.files.list (Path.ofText scanner.root) = .ok entries ∧
        result = scanner.update collector host (scopes (Path.ofText scanner.root) entries) := by
  unfold scan
  cases hlist : host.files.list (Path.ofText scanner.root) with
  | error cause => simp [hlist]
  | ok entries => simp [hlist, eq_comm]

end Scanner

/-- Asking a source leaves the number of sources as it is. -/
theorem Host.length_sources_ask (host : Host) (source : SourceId) :
    (host.ask source).2.sources.length = host.sources.length := by
  unfold ask
  split <;> simp

/-- Asking all tasks leaves the number of sources as it is. -/
theorem Collector.length_sources_askAll (host : Host) (registrations : List Registration) :
    (askAll host registrations).2.sources.length = host.sources.length := by
  induction registrations generalizing host with
  | nil => rfl
  | cons registration rest ih =>
    rw [askAll, ih, Host.length_sources_ask]

/-- Scanners that share a collector. -/
structure Watch where
  scanners : List Scanner
  collector : Collector
  host : Host

namespace Watch

/-- What can happen in the course of a watch. -/
inductive Event where
  /-- One of the scanners scans. -/
  | scan (index : Nat)
  /-- The files change. -/
  | change (files : FileSystem)
  /-- The registered tasks are asked for their stats. -/
  | collect

/-- Scanners for some roots, with the labels of their tasks, that have not scanned yet. -/
def ofRoots (roots : List (String × LabelSet)) (collector : Collector) (host : Host) : Watch :=
  ⟨roots.map fun root => Scanner.ofRoot root.1 root.2, collector, host⟩

/-- A watch after an event. A scan that fails is noted elsewhere, and leaves nothing behind. -/
def after (w : Watch) : Event → Watch
  | .scan index =>
    match w.scanners[index]? with
    | none => w
    | some scanner =>
      match scanner.scan w.collector w.host with
      | .error _ => w
      | .ok result => ⟨w.scanners.set index result.scanner, result.collector, result.host⟩
  | .change files => { w with host := { w.host with files } }
  | .collect => { w with host := (w.collector.collect w.host).2 }

/-- A watch after some events. -/
def run (w : Watch) (events : List Event) : Watch := events.foldl after w

/-- Without events nothing changes. -/
@[simp] theorem run_nil (w : Watch) : w.run [] = w := rfl

/-- A run is continued by one event at its end. -/
@[simp] theorem run_concat (w : Watch) (events : List Event) (event : Event) :
    w.run (events ++ [event]) = (w.run events).after event := by
  simp [run]

/-- The tasks that the scanners track. -/
def tasks (w : Watch) : List Task := w.scanners.flatMap Scanner.tasks

/-! ## The invariant -/

/-- What holds at any time of a watch of some roots. -/
structure Valid (naming : Naming) (roots : List (String × LabelSet)) (w : Watch) : Prop where
  roots : w.scanners.map (fun scanner => (scanner.root, scanner.labels)) = roots
  holds : w.collector.Holds naming w.host w.tasks
  named : ∀ scanner ∈ w.scanners, ∀ entry ∈ scanner.tracked, entry.2.NamedBy entry.1

variable {naming : Naming} {roots : List (String × LabelSet)} {w : Watch} {index : Nat}
  {scanner : Scanner} {result : Scan}

/-- The tasks of all scanners are those of one of them and those of the others. -/
theorem perm_flatMap_tasks_set {scanners : List Scanner} (hindex : index < scanners.length)
    (scanner : Scanner) :
    ((scanners.set index scanner).flatMap Scanner.tasks).Perm
      ((scanners.eraseIdx index).flatMap Scanner.tasks ++ scanner.tasks) := by
  have hperm := (List.set_perm_cons_eraseIdx hindex scanner).flatMap_right Scanner.tasks
  rw [List.flatMap_cons] at hperm
  exact hperm.trans List.perm_append_comm

/-- What the collector holds, as one of the scanners sees it. -/
theorem Valid.holds_others (h : w.Valid naming roots)
    (hscanner : w.scanners[index]? = some scanner) :
    w.collector.Holds naming w.host
      ((w.scanners.eraseIdx index).flatMap Scanner.tasks ++ scanner.tasks) := by
  obtain ⟨hindex, rfl⟩ := List.getElem?_eq_some_iff.1 hscanner
  refine h.holds.of_perm ?_
  have hperm := perm_flatMap_tasks_set hindex w.scanners[index]
  rwa [List.set_getElem_self] at hperm

/-- One of the scanners is in order when its scan is done. -/
theorem Valid.midway (h : w.Valid naming roots) (hscanner : w.scanners[index]? = some scanner)
    (entries : Entries) :
    Scanner.Midway naming ((w.scanners.eraseIdx index).flatMap Scanner.tasks) scanner w.host
      (scopes (Path.ofText scanner.root) entries)
      (scanner.update w.collector w.host (scopes (Path.ofText scanner.root) entries)) :=
  Scanner.midway_update (h.holds_others hscanner)
    (h.named scanner (List.mem_of_getElem? hscanner)) (scope?_of_mem_scopes _ entries)

/-- The watch after a scan that succeeds. -/
theorem after_scan_of_ok (hscanner : w.scanners[index]? = some scanner)
    (hscan : scanner.scan w.collector w.host = .ok result) :
    w.after (.scan index) =
      ⟨w.scanners.set index result.scanner, result.collector, result.host⟩ := by
  simp only [after, hscanner, hscan]

/-- The watch after a scan that fails. -/
theorem after_scan_of_error (hscanner : w.scanners[index]? = some scanner) {error : ScanError}
    (hscan : scanner.scan w.collector w.host = .error error) : w.after (.scan index) = w := by
  simp only [after, hscanner, hscan]

/-- A scan that succeeds keeps the invariant. -/
theorem Valid.after_scan (h : w.Valid naming roots) (hscanner : w.scanners[index]? = some scanner)
    (hscan : scanner.scan w.collector w.host = .ok result) :
    (w.after (.scan index)).Valid naming roots := by
  rw [after_scan_of_ok hscanner hscan]
  obtain ⟨entries, -, rfl⟩ := Scanner.scan_eq_ok_iff.1 hscan
  have hend := h.midway hscanner entries
  obtain ⟨hindex, hget⟩ := List.getElem?_eq_some_iff.1 hscanner
  refine ⟨?_, ?_, ?_⟩
  · -- no scanner changes its root or its labels
    rw [List.map_set, hend.root, hend.labels, ← h.roots, ← hget]
    rw [← List.map_set, List.set_getElem_self]
  · exact hend.holds.of_perm (perm_flatMap_tasks_set hindex _).symm
  · intro other hother
    rcases List.mem_or_eq_of_mem_set hother with hold | rfl
    · exact h.named other hold
    · exact hend.named

/-- An event keeps the invariant. -/
theorem Valid.after (h : w.Valid naming roots) (event : Event) :
    (w.after event).Valid naming roots := by
  cases event with
  | change files => exact ⟨h.roots, h.holds.of_length_le le_rfl, h.named⟩
  | collect =>
    have hlength := Collector.length_sources_askAll w.host w.collector.registrations
    exact ⟨h.roots, h.holds.of_length_le hlength.ge, h.named⟩
  | scan index =>
    cases hscanner : w.scanners[index]? with
    | none =>
      have hsame : w.after (.scan index) = w := by simp only [Watch.after, hscanner]
      rwa [hsame]
    | some scanner =>
      cases hscan : scanner.scan w.collector w.host with
      | error error => rwa [after_scan_of_error hscanner hscan]
      | ok result => exact h.after_scan hscanner hscan

/-- Scanners that have not scanned yet track nothing. -/
theorem tracked_eq_nil_of_mem_ofRoots {start : Collector} {host : Host}
    (h : scanner ∈ (ofRoots roots start host).scanners) : scanner.tracked = [] := by
  obtain ⟨root, -, rfl⟩ := List.mem_map.1 h
  rfl

/-- The invariant holds at the start. -/
theorem valid_ofRoots {start : Collector} (h : Collector.ofNaming (some naming) = .ok start)
    (roots : List (String × LabelSet)) (host : Host) :
    (ofRoots roots start host).Valid naming roots := by
  have hempty : (ofRoots roots start host).tasks = [] := by
    rw [tasks, List.flatMap_eq_nil_iff]
    intro scanner hscanner
    rw [Scanner.tasks, tracked_eq_nil_of_mem_ofRoots hscanner, List.map_nil]
  refine ⟨?_, ?_, ?_⟩
  · rw [ofRoots, List.map_map]
    exact List.map_id roots
  · rw [hempty]
    exact Collector.Holds.of_ofNaming h host
  · intro scanner hscanner entry hentry
    rw [tracked_eq_nil_of_mem_ofRoots hscanner] at hentry
    simp at hentry

/-- The invariant holds at any time. -/
theorem run_valid {start : Collector} (h : Collector.ofNaming (some naming) = .ok start)
    (roots : List (String × LabelSet)) (host : Host) (events : List Event) :
    ((ofRoots roots start host).run events).Valid naming roots := by
  induction events using List.reverseRecOn with
  | nil => exact valid_ofRoots h roots host
  | append_singleton events event ih =>
    rw [run_concat]
    exact ih.after event

/-! ## Registrations and tracked scopes -/

/-- A scanner tracks a task at a path. A place is the index of a scanner and a path. -/
def Tracks (w : Watch) (place : Nat × Path) (task : Task) : Prop :=
  ∃ scanner, w.scanners[place.1]? = some scanner ∧ (place.2, task) ∈ scanner.tracked

/-- The registrations and the places where tasks are tracked correspond one to one. -/
structure OneToOne (w : Watch) : Prop where
  /-- No container is registered twice. -/
  nodup_keys : w.collector.keys.Nodup
  /-- No two registrations are asked through one source. -/
  nodup_sources : (w.collector.registrations.map (·.task.source.index)).Nodup
  /-- No scanner tracks a path twice. -/
  nodup_paths : ∀ scanner ∈ w.scanners, (scanner.tracked.map Prod.fst).Nodup
  /-- The task of a registration is tracked in one place. -/
  tracked : ∀ r ∈ w.collector.registrations, ∃! place, w.Tracks place r.task
  /-- A task that is tracked is the one of a registration. -/
  registered : ∀ place task, w.Tracks place task →
    ∃! r, r ∈ w.collector.registrations ∧ r.task = task
  size : w.collector.size = (w.scanners.map fun scanner => scanner.tracked.length).sum

/-- The tasks of a watch are those that one of its scanners tracks. -/
theorem mem_tasks_iff {task : Task} : task ∈ w.tasks ↔ ∃ place, w.Tracks place task := by
  rw [tasks, List.mem_flatMap]
  constructor
  · rintro ⟨scanner, hscanner, htask⟩
    obtain ⟨index, hindex⟩ := List.getElem?_of_mem hscanner
    obtain ⟨⟨path, other⟩, hmem, rfl⟩ := List.mem_map.1 htask
    exact ⟨(index, path), scanner, hindex, hmem⟩
  · rintro ⟨⟨index, path⟩, scanner, hindex, hmem⟩
    exact ⟨scanner, List.mem_of_getElem? hindex, List.mem_map_of_mem (f := Prod.snd) hmem⟩

/-- If no task comes twice, two scanners have none in common. -/
theorem disjoint_tasks (h : w.tasks.Nodup) {i j : Nat} (hlt : i < j) {s t : Scanner}
    (hs : w.scanners[i]? = some s) (ht : w.scanners[j]? = some t) : s.tasks.Disjoint t.tasks := by
  obtain ⟨hi, rfl⟩ := List.getElem?_eq_some_iff.1 hs
  obtain ⟨hj, rfl⟩ := List.getElem?_eq_some_iff.1 ht
  exact List.pairwise_iff_getElem.1 (List.nodup_flatMap.1 h).2 i j hi hj hlt

/-- If no task comes twice, a task is tracked in one place. -/
theorem Tracks.place_eq (h : w.tasks.Nodup) {task : Task} {place other : Nat × Path}
    (hplace : w.Tracks place task) (hother : w.Tracks other task) : place = other := by
  obtain ⟨index, path⟩ := place
  obtain ⟨index', path'⟩ := other
  obtain ⟨scanner, hscanner, hmem⟩ := hplace
  obtain ⟨scanner', hscanner', hmem'⟩ := hother
  have htask : task ∈ scanner.tasks := List.mem_map_of_mem (f := Prod.snd) hmem
  have htask' : task ∈ scanner'.tasks := List.mem_map_of_mem (f := Prod.snd) hmem'
  rcases Nat.lt_trichotomy index index' with hlt | heq | hgt
  · exact absurd htask' (disjoint_tasks h hlt hscanner hscanner' htask)
  · obtain rfl : index = index' := heq
    obtain rfl := Option.some.inj (hscanner.symm.trans hscanner')
    have hnodup := (List.nodup_flatMap.1 h).1 scanner (List.mem_of_getElem? hscanner)
    have hentry := List.inj_on_of_nodup_map hnodup hmem hmem' rfl
    exact congrArg (Prod.mk index) (Prod.mk.inj hentry).1
  · exact absurd htask (disjoint_tasks h hgt hscanner' hscanner htask')

/-- Tracked scopes with different keys have different paths, as a path names its container. -/
theorem nodup_paths_of_named {tracked : List (Path × Task)}
    (hkeys : ((tracked.map Prod.snd).map Task.key).Nodup)
    (hnamed : ∀ entry ∈ tracked, entry.2.NamedBy entry.1) : (tracked.map Prod.fst).Nodup := by
  rw [List.map_map] at hkeys
  refine List.Nodup.map_on (fun entry hentry other hother hpath => ?_) hkeys.of_map
  refine List.inj_on_of_nodup_map hkeys hentry hother ?_
  have hother' := hnamed other hother
  rw [← hpath] at hother'
  exact (hnamed entry hentry).key_eq hother'

/-- The invariant gives the correspondence. -/
theorem Valid.oneToOne (h : w.Valid naming roots) : w.OneToOne := by
  have hkeys := h.holds.nodup_keys_tasks
  have htasks : w.tasks.Nodup := hkeys.of_map
  have hregistrations : (w.collector.registrations.map (·.task)).Nodup :=
    h.holds.perm.nodup_iff.2 htasks
  refine ⟨h.holds.nodup_keys, ?_, ?_, ?_, ?_, ?_⟩
  · have hperm := h.holds.perm.map (·.source.index)
    rw [List.map_map] at hperm
    exact hperm.nodup_iff.2 h.holds.nodup_sources
  · intro scanner hscanner
    refine nodup_paths_of_named ?_ (h.named scanner hscanner)
    rw [tasks, List.map_flatMap] at hkeys
    exact (List.nodup_flatMap.1 hkeys).1 scanner hscanner
  · intro r hr
    have hmem : r.task ∈ w.tasks := h.holds.exists_registration_iff.1 ⟨r, hr, rfl⟩
    obtain ⟨place, hplace⟩ := mem_tasks_iff.1 hmem
    exact ⟨place, hplace, fun other hother => hother.place_eq htasks hplace⟩
  · intro place task hplace
    have hmem : task ∈ w.tasks := mem_tasks_iff.2 ⟨place, hplace⟩
    obtain ⟨r, hr, rfl⟩ := h.holds.exists_registration_iff.2 hmem
    refine ⟨r, ⟨hr, rfl⟩, fun other hother => ?_⟩
    exact List.inj_on_of_nodup_map hregistrations hother.1 hr hother.2
  · rw [h.holds.size_eq, tasks, List.length_flatMap]
    simp [Scanner.tasks]

/-- A scan that succeeds changes the size of the registry by what it reports. -/
theorem Valid.size_add_removed (h : w.Valid naming roots)
    (hscanner : w.scanners[index]? = some scanner)
    (hscan : scanner.scan w.collector w.host = .ok result) :
    result.collector.size + result.removed = w.collector.size + result.added := by
  obtain ⟨entries, -, rfl⟩ := Scanner.scan_eq_ok_iff.1 hscan
  have hend := h.midway hscanner entries
  have hcount := hend.count
  rw [hend.holds.size_eq, (h.holds_others hscanner).size_eq, List.length_append, List.length_append,
    Scanner.tasks, Scanner.tasks, List.length_map, List.length_map]
  omega

/-- **Registrations and tracked scopes correspond one to one at any time of a watch**, whatever the
roots and the labels are, and however scans, changes of the files and scrapes follow each other. A
scan fails exactly if its own root cannot be listed, and then nothing changes; after a scan that
succeeds the registry has as many tasks more as were added, less those that were removed. -/
theorem run_oneToOne {start : Collector} (h : Collector.ofNaming (some naming) = .ok start)
    (roots : List (String × LabelSet)) (host : Host) (events : List Event) :
    let w := (ofRoots roots start host).run events
    w.OneToOne ∧ ∀ index root labels, roots[index]? = some (root, labels) →
      ∃ scanner, w.scanners[index]? = some scanner ∧ scanner.root = root ∧
        scanner.labels = labels ∧
        (∀ error, scanner.scan w.collector w.host = .error error ↔ ∃ cause,
          w.host.files.list (Path.ofText root) = .error cause ∧ error = ⟨root, cause⟩) ∧
        (∀ error, scanner.scan w.collector w.host = .error error → w.after (.scan index) = w) ∧
        ∀ result, scanner.scan w.collector w.host = .ok result →
          w.after (.scan index) =
              ⟨w.scanners.set index result.scanner, result.collector, result.host⟩ ∧
            (w.after (.scan index)).OneToOne ∧
            result.collector.size + result.removed = w.collector.size + result.added := by
  intro w
  have hw : w.Valid naming roots := run_valid h roots host events
  refine ⟨hw.oneToOne, ?_⟩
  intro index root labels hroot
  rw [← hw.roots, List.getElem?_map] at hroot
  obtain ⟨scanner, hscanner, heq⟩ := Option.map_eq_some_iff.1 hroot
  obtain ⟨rfl, rfl⟩ := Prod.mk.inj heq
  refine ⟨scanner, hscanner, rfl, rfl, fun error => Scanner.scan_eq_error_iff, ?_,
    fun result hscan => ⟨?_, ?_, ?_⟩⟩
  · intro error hscan
    exact after_scan_of_error hscanner hscan
  · exact after_scan_of_ok hscanner hscan
  · exact (hw.after_scan hscanner hscan).oneToOne
  · exact hw.size_add_removed hscanner hscan

/-- The name of the scope of a container. -/
def oneScope : Name :=
  Utf8.encode "libpod-0123456789abcdef0123456789abcdef0123456789abcdef0123456789abcdef.scope"

/-- A tree with one container, in a slice. -/
def oneContainer : FileSystem where
  entries := [(Utf8.encode "machine.slice", .directory [(oneScope, .directory [])])]

/-- Two scanners find the same container, the second from the root of the tree. -/
theorem run_oneToOne_shared :
    ∃ start, Collector.ofNaming (some ⟨"container", none, .empty⟩) = .ok start ∧
      let w := (ofRoots [("/machine.slice", .empty), ("/", .empty)] start ⟨oneContainer, []⟩).run
        [.scan 0, .change oneContainer]
      w.OneToOne ∧ ∃ scanner result, w.scanners[1]? = some scanner ∧
        scanner.scan w.collector w.host = .ok result ∧
        result.collector.size + result.removed = w.collector.size + result.added := by
  obtain ⟨start, h⟩ := Collector.exists_ofNaming_container
  refine ⟨start, h, ?_⟩
  intro w
  obtain ⟨hone, hroots⟩ := run_oneToOne h [("/machine.slice", .empty), ("/", .empty)]
    ⟨oneContainer, []⟩ [.scan 0, .change oneContainer]
  obtain ⟨scanner, hscanner, hroot, -, -, -, hscan⟩ := hroots 1 "/" .empty rfl
  have hlist : w.host.files.list (Path.ofText scanner.root) = .ok oneContainer.entries := by
    rw [hroot]
    show oneContainer.list (Path.ofText "/") = .ok oneContainer.entries
    cbv
  obtain ⟨result, hok⟩ : ∃ result, scanner.scan w.collector w.host = .ok result :=
    ⟨_, Scanner.scan_eq_ok_iff.2 ⟨_, hlist, rfl⟩⟩
  exact ⟨hone, scanner, result, hscanner, hok, (hscan result hok).2.2⟩

end Watch

end ContainerUsage
