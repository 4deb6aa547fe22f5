import Mathlib
import ContainerUsage.Proofs.Cgroup.Reading
import ContainerUsage.Proofs.Discovery.Watch

/-!
# Which files a tracked task is read from

A scan opens the directory of a scope when it finds it for the first time, and goes by the path from
then on. So a task that is tracked is read from the files that were there when its scope was found
(`Opened`), whatever has become of them since.

* `Watch.tracks_after` is the step: a task that is tracked after an event was tracked before it, or
  its directory has just been opened. `Watch.sources_after` says that what was opened stays as it
  is.
* `Watch.run_opened` follows for a whole run.
* `Watch.ask_tracked` reads off what a tracked task answers. It agrees with a task that is opened at
  the same path now, if the directory still has the files that were opened. What is written to them
  does not matter for that (`StatReader.ofCgroup_congr`).
* `Watch.stale_of_restarted` shows a directory that has not: a scan that finds just the scopes that
  are tracked does nothing (`Scanner.scan_of_tracked`), and the task goes on to read the old files.
-/

namespace ContainerUsage

open Cgroup Payload

/-! ## Directories and contents -/

namespace FileSystem

variable {fs fs' : FileSystem}

/-- What is in a directory depends on the entries only, and not on the contents of files. -/
theorem entriesOf_congr (h : fs.entries = fs'.entries) : fs.entriesOf = fs'.entriesOf := by
  funext trail
  cases trail with
  | nil => exact h
  | cons step rest => rfl

/-- Following a path does not look into files. -/
theorem walkFrom_congr (h : fs.entries = fs'.entries) (creating : Bool) (links : Nat)
    (trail : Trail) (todo : List Name) :
    fs.walkFrom creating links trail todo = fs'.walkFrom creating links trail todo := by
  have hlook : fs.look = fs'.look := by
    unfold look
    rw [entriesOf_congr h]
  fun_induction fs.walkFrom creating links trail todo <;> rw [walkFrom] <;> simp_all

/-- Where a path leads depends on the entries only. -/
theorem walk_congr (h : fs.entries = fs'.entries) (creating : Bool) (path : Path) :
    fs.walk creating path = fs'.walk creating path := by
  rw [walk, walk, walkFrom_congr h]

/-- Which file is opened depends on the entries only. -/
theorem openFile_congr (h : fs.entries = fs'.entries) (path : Path) :
    fs.openFile path = fs'.openFile path := by
  rw [openFile, openFile, walk_congr h]

/-- What a directory lists depends on the entries only. -/
theorem list_congr (h : fs.entries = fs'.entries) (path : Path) : fs.list path = fs'.list path := by
  have htrail : fs.trailTo path = fs'.trailTo path := by rw [trailTo, trailTo, walk_congr h]
  rw [list, list, htrail, entriesOf_congr h]

end FileSystem

/-- Which files a cgroup has does not depend on their contents. -/
theorem Cgroup.StatReader.ofCgroup_congr {fs fs' : FileSystem} (h : fs.entries = fs'.entries)
    (path : Path) : ofCgroup fs path = ofCgroup fs' path := by
  unfold ofCgroup hugePagesOf openHugePages?
  rw [FileSystem.list_congr h, funext (FileSystem.openFile_congr h)]

/-! ## Asking -/

/-- What the files of a reader are answered as. -/
def Cgroup.StatReader.answer (reader : StatReader) (fs : FileSystem) : Answer :=
  ((reader.read fs).1.map Envelope.ofUnified).mapError .read

/-- A reader whose files are at their start answers what is in them, and is left as it was. -/
theorem Source.ask_cgroup {reader : StatReader} (h : reader.AtStart) (fs : FileSystem) :
    Source.ask fs (.cgroup reader) = (reader.answer fs, .cgroup reader) := by
  show (reader.answer fs, Source.cgroup (reader.read fs).2) = _
  rw [StatReader.read_of_atStart h]

namespace Host

variable {host : Host} {index : Nat} {reader : StatReader}

/-- A source that reads a cgroup is asked through its reader. -/
theorem ask_of_cgroup (hsource : host.sources[index]? = some (.cgroup reader)) :
    (host.ask ⟨index⟩).1 = reader.answer host.files := by
  unfold ask
  rw [hsource]
  rfl

/-- Asking a source leaves one that reads a cgroup as it was. -/
theorem sources_ask (h : reader.AtStart) (hsource : host.sources[index]? = some (.cgroup reader))
    (asked : SourceId) : (host.ask asked).2.sources[index]? = some (.cgroup reader) := by
  by_cases hindex : asked = ⟨index⟩
  · subst hindex
    unfold ask
    rw [hsource]
    show (host.sources.set index (Source.ask host.files (.cgroup reader)).2)[index]? = _
    rw [Source.ask_cgroup h, List.getElem?_set_self', hsource]
    rfl
  · rw [← hsource]
    exact sources_ask_of_ne host (Ne.symm hindex)

/-- Adding a source leaves the others where they are. -/
theorem sources_addSource {source : Source} (hsource : host.sources[index]? = some source)
    (added : Source) : (host.addSource added).2.sources[index]? = some source := by
  obtain ⟨hlt, -⟩ := List.getElem?_eq_some_iff.1 hsource
  rw [← hsource]
  exact List.getElem?_append_left hlt

/-- A task that was just opened answers what is in the directory. -/
theorem ask_openTask {path : Path} (hopen : StatReader.ofCgroup host.files path = .ok reader)
    (id : ContainerId) (ns : String) :
    ∃ task after, host.openTask id ns path = .ok (task, after) ∧ task.id = id.text ∧
      task.ns = ns ∧ (after.ask task.source).1 = reader.answer host.files := by
  refine ⟨⟨id.text, ns, ⟨host.sources.length⟩⟩,
    { host with sources := host.sources ++ [.cgroup reader] }, ?_, rfl, rfl, ?_⟩
  · unfold openTask
    rw [hopen]
    rfl
  · exact ask_of_cgroup List.getElem?_concat_length

end Host

/-- Asking all tasks leaves a source that reads a cgroup as it was. -/
theorem Collector.sources_askAll {host : Host} {index : Nat} {reader : StatReader}
    (h : reader.AtStart) (hsource : host.sources[index]? = some (.cgroup reader))
    (registrations : List Registration) :
    (askAll host registrations).2.sources[index]? = some (.cgroup reader) := by
  induction registrations generalizing host with
  | nil => exact hsource
  | cons registration rest ih => exact ih (Host.sources_ask h hsource registration.task.source)

/-! ## One scan -/

namespace Scanner

/-- What a scan that started with some sources and tracked scopes has done to them so far: it has
added sources, and it tracks only scopes that were tracked before or whose directories it has
opened. -/
structure Opens (scanner : Scanner) (host : Host) (scan : Scan) : Prop where
  files : scan.host.files = host.files
  sources : ∀ (index : Nat) (source : Source), host.sources[index]? = some source →
    scan.host.sources[index]? = some source
  tracked : ∀ entry ∈ scan.scanner.tracked, entry ∈ scanner.tracked ∨
    scanner.tracks entry.1 = false ∧ ∃ reader,
      StatReader.ofCgroup host.files entry.1 = .ok reader ∧
        scan.host.sources[entry.2.source.index]? = some (.cgroup reader)

variable {scanner : Scanner} {host : Host} {scan : Scan} {collector : Collector}

/-- Tracking a scope opens its directory, if it does anything. -/
theorem Opens.track (h : Opens scanner host scan) {path : Path} {scope : ScopeName} {next : Scan}
    (hstep : Track scan path scope next) (hnew : scanner.tracks path = false) :
    Opens scanner host next := by
  cases hstep with
  | registered | closed | refused => exact ⟨h.files, h.sources, h.tracked⟩
  | @added task next collector hc hopen hadd =>
    unfold Host.openTask at hopen
    split at hopen
    · simp at hopen
    · next reader hreader =>
      obtain ⟨rfl, rfl⟩ := Prod.mk.inj (Except.ok.inj hopen)
      refine ⟨h.files, ?_, ?_⟩
      · intro index source hsource
        exact Host.sources_addSource (h.sources index source hsource) _
      intro entry hentry
      rcases List.mem_append.1 hentry with hold | hlast
      · apply (h.tracked entry hold).imp_right
        rintro ⟨hnew, other, hother, hsource⟩
        exact ⟨hnew, other, hother, Host.sources_addSource hsource _⟩
      · obtain rfl := List.mem_singleton.1 hlast
        rw [h.files] at hreader
        exact .inr ⟨hnew, reader, hreader, List.getElem?_concat_length⟩

/-- Tracking scopes one after the other opens their directories, if it does anything. -/
theorem Opens.foldl_track (h : Opens scanner host scan) (entries : List (Path × ScopeName))
    (hnew : ∀ entry ∈ entries, scanner.tracks entry.1 = false) :
    Opens scanner host
      (entries.foldl (fun scan entry => Scanner.track scan entry.1 entry.2) scan) := by
  induction entries generalizing scan with
  | nil => exact h
  | cons entry rest ih =>
    rw [List.forall_mem_cons] at hnew
    exact ih (h.track (track_spec scan entry.1 entry.2) hnew.1) hnew.2

/-- A scan opens the directories of the scopes that it begins to track. -/
theorem opens_update (scanner : Scanner) (collector : Collector) (host : Host)
    (found : List (Path × ScopeName)) :
    Opens scanner host (scanner.update collector host found) := by
  have hstart : Opens scanner host (dropVanished ⟨scanner, collector, host, 0, 0, []⟩ found) :=
    ⟨rfl, fun _ _ hsource => hsource, fun entry hentry => .inl (List.mem_of_mem_filter hentry)⟩
  apply hstart.foldl_track
  intro entry hentry
  simpa using (List.mem_filter.1 hentry).2

/-- A scan that finds just the scopes that are tracked does nothing. -/
theorem scan_of_tracked {entries : Entries}
    (hlist : host.files.list (Path.ofText scanner.root) = .ok entries)
    (hfound : ∀ path, scanner.tracks path = true ↔
      ∃ scope, (path, scope) ∈ scopes (Path.ofText scanner.root) entries) :
    scanner.scan collector host = .ok ⟨scanner, collector, host, 0, 0, []⟩ := by
  refine scan_eq_ok_iff.2 ⟨entries, hlist, ?_⟩
  have hnew : (scopes (Path.ofText scanner.root) entries).filter
      (fun entry => !scanner.tracks entry.1) = [] := by
    refine List.filter_eq_nil_iff.2 fun entry hentry => ?_
    rw [(hfound entry.1).2 ⟨entry.2, hentry⟩]
    exact Bool.false_ne_true
  have hpresent : ∀ entry ∈ scanner.tracked, present (scopes (Path.ofText scanner.root) entries)
      entry = true := by
    intro entry hentry
    rw [present_eq_true_iff, ← hfound]
    exact List.any_eq_true.2 ⟨entry, hentry, decide_eq_true rfl⟩
  rw [update, hnew, List.foldl_nil, dropVanished_eq_self hpresent]

end Scanner

/-! ## A watch -/

namespace Watch

variable {w : Watch} {place : Nat × Path} {task : Task} {reader : StatReader}

/-- A task that is tracked after an event was tracked before it, or the event is a scan that has
found its scope for the first time and has opened the directory. -/
theorem tracks_after {event : Event} (h : (w.after event).Tracks place task) :
    w.Tracks place task ∨ event = .scan place.1 ∧ (∀ other, ¬ w.Tracks place other) ∧
      ∃ reader, StatReader.ofCgroup w.host.files place.2 = .ok reader ∧
        (w.after event).host.sources[task.source.index]? = some (.cgroup reader) := by
  obtain ⟨index, path⟩ := place
  cases event with
  | change files => exact .inl h
  | collect => exact .inl h
  | scan scanning =>
    cases hscanner : w.scanners[scanning]? with
    | none =>
      simp only [after, hscanner] at h
      exact .inl h
    | some scanner =>
      cases hscan : scanner.scan w.collector w.host with
      | error error =>
        rw [after_scan_of_error hscanner hscan] at h
        exact .inl h
      | ok result =>
        rw [after_scan_of_ok hscanner hscan] at h ⊢
        obtain ⟨entries, -, rfl⟩ := Scanner.scan_eq_ok_iff.1 hscan
        obtain ⟨other, hother, hmem⟩ := h
        dsimp only at hother hmem ⊢
        by_cases hindex : scanning = index
        · subst hindex
          obtain ⟨hlt, -⟩ := List.getElem?_eq_some_iff.1 hscanner
          rw [List.getElem?_set_self hlt] at hother
          obtain rfl := Option.some.inj hother
          have hopens := Scanner.opens_update scanner w.collector w.host
            (scopes (Path.ofText scanner.root) entries)
          rcases hopens.tracked _ hmem with hold | ⟨hnew, reader, hreader, hsource⟩
          · exact .inl ⟨scanner, hscanner, hold⟩
          · refine .inr ⟨rfl, ?_, reader, hreader, hsource⟩
            rintro task ⟨same, hsame, htracked⟩
            obtain rfl := Option.some.inj (hscanner.symm.trans hsame)
            exact absurd (List.any_eq_true.2 ⟨_, htracked, decide_eq_true rfl⟩) (by
              rw [Scanner.tracks] at hnew
              rw [hnew]
              exact Bool.false_ne_true)
        · rw [List.getElem?_set_ne hindex] at hother
          exact .inl ⟨other, hother, hmem⟩

/-- No event changes a source that reads a cgroup. -/
theorem sources_after (h : reader.AtStart) {index : Nat}
    (hsource : w.host.sources[index]? = some (.cgroup reader)) (event : Event) :
    (w.after event).host.sources[index]? = some (.cgroup reader) := by
  cases event with
  | change files => exact hsource
  | collect => exact Collector.sources_askAll h hsource w.collector.registrations
  | scan scanning =>
    cases hscanner : w.scanners[scanning]? with
    | none =>
      simp only [after, hscanner]
      exact hsource
    | some scanner =>
      cases hscan : scanner.scan w.collector w.host with
      | error error => rwa [after_scan_of_error hscanner hscan]
      | ok result =>
        rw [after_scan_of_ok hscanner hscan]
        obtain ⟨entries, -, rfl⟩ := Scanner.scan_eq_ok_iff.1 hscan
        exact (Scanner.opens_update scanner w.collector w.host _).sources _ _ hsource

/-- A task is tracked since a scan that was preceded by `earlier` and followed by `since`, and that
has opened the directory of its scope: nothing was tracked there before, and the task is at any time
afterwards. -/
structure Opened (start : Watch) (earlier since : List Event) (place : Nat × Path) (task : Task)
    (reader : StatReader) : Prop where
  missing : ∀ other, ¬ (start.run earlier).Tracks place other
  opened : StatReader.ofCgroup (start.run earlier).host.files place.2 = .ok reader
  tracked : ∀ events, events <+: since →
    (start.run (earlier ++ .scan place.1 :: events)).Tracks place task

/-- Every task that is tracked has the files as its source that a scan has opened. -/
theorem run_opened (roots : List (String × LabelSet)) (collector : Collector) (host : Host)
    (events : List Event) :
    let start := ofRoots roots collector host
    ∀ place task, (start.run events).Tracks place task →
      ∃ earlier since reader, events = earlier ++ .scan place.1 :: since ∧
        Opened start earlier since place task reader ∧
        (start.run events).host.sources[task.source.index]? = some (.cgroup reader) := by
  intro start
  induction events using List.reverseRecOn with
  | nil =>
    rintro place task ⟨scanner, hscanner, hmem⟩
    rw [tracked_eq_nil_of_mem_ofRoots (List.mem_of_getElem? hscanner)] at hmem
    simp at hmem
  | append_singleton events event ih =>
    intro place task h
    have htracks := h
    rw [run_concat] at h ⊢
    rcases tracks_after h with hold | ⟨rfl, hmissing, reader, hreader, hsource⟩
    · -- the scan that has opened the directory is an earlier one
      obtain ⟨earlier, since, reader, rfl, hopened, hsource⟩ := ih place task hold
      have hstart : reader.AtStart := (StatReader.Built.ofCgroup hopened.opened).atStart
      refine ⟨earlier, since ++ [event], reader, by simp, ⟨hopened.missing, hopened.opened, ?_⟩,
        sources_after hstart hsource event⟩
      intro events hprefix
      rcases List.prefix_concat_iff.1 hprefix with rfl | hprefix
      · simpa using htracks
      · exact hopened.tracked events hprefix
    · -- this event is that scan
      refine ⟨events, [], reader, rfl, ⟨hmissing, hreader, ?_⟩, hsource⟩
      intro later hprefix
      rw [List.prefix_nil.1 hprefix]
      exact htracks

/-! ## One container -/

/-- A tree with one container, whose scope has a file with its number of processes. -/
def running (file : Nat) (contents : List String) : FileSystem where
  entries := [(oneScope, .directory [(ControllerFile.pidsCurrent.name, .file ⟨file⟩)])]
  contents := contents.map Utf8.encode

/-- The path of the scope. -/
def runningPath : Path := (Path.ofText "/").join oneScope

/-- The root lists the scope, whichever file is in it. -/
theorem list_running (file : Nat) (contents : List String) :
    (running file contents).list (Path.ofText "/") = .ok (running file contents).entries := by
  cbv

/-- The files that are opened in the scope. -/
def runningReader (file : Nat) : StatReader :=
  ⟨fun other => ((running file []).openFile (runningPath.join other.name)).toOption, []⟩

/-- Opening the scope gives the reader of the file that is in it. -/
theorem ofCgroup_running (file : Nat) (contents : List String) :
    StatReader.ofCgroup (running file contents) runningPath = .ok (runningReader file) := by
  have hlist : (running file []).list runningPath =
      .ok [(ControllerFile.pidsCurrent.name, .file ⟨file⟩)] := by
    cbv
  have hsizes : StatReader.hugePagesOf (running file []) runningPath
      [(ControllerFile.pidsCurrent.name, .file ⟨file⟩)] = [] := by
    cbv
  have hentries : (running file contents).entries = (running file []).entries := rfl
  rw [StatReader.ofCgroup_congr hentries, StatReader.ofCgroup, hlist]
  show Except.ok _ = _
  rw [hsizes]
  rfl

/-- The scope is the only one, whichever of the files it has. -/
theorem exists_scopes_running : ∃ scope, ∀ file contents,
    scopes (Path.ofText "/") (running file contents).entries = [(runningPath, scope)] := by
  have hparse : (ScopeName.parse? oneScope).isSome = true := by decide +kernel
  obtain ⟨scope, hscope⟩ := Option.isSome_iff_exists.1 hparse
  refine ⟨scope, fun file contents => ?_⟩
  rw [scopes, scopes_directory, running, scopesBelow_cons, directScopes]
  simp [scope?, Node.isDirectory, hscope, scopesBelow, runningPath]

/-- A first scan opens the directory of the scope and tracks it. -/
theorem exists_run_scan_running {naming : Naming} {start : Collector}
    (h : Collector.ofNaming (some naming) = .ok start) (contents : List String) : ∃ task c,
    (∀ events, (ofRoots [("/", .empty)] start ⟨running 0 contents, []⟩).run (.scan 0 :: events) =
      run ⟨[⟨"/", .empty, [(runningPath, task)]⟩], c,
        ⟨running 0 contents, [.cgroup (runningReader 0)]⟩⟩ events) ∧
      task.source = ⟨0⟩ ∧ ∃ id : ContainerId, task.id = id.text := by
  obtain ⟨scope, hscopes⟩ := exists_scopes_running
  have hmissing := Collector.contains_of_ofNaming h scope.id.text scope.runtime.ns
  let task : Task := ⟨scope.id.text, scope.runtime.ns, ⟨0⟩⟩
  let host : Host := ⟨running 0 contents, []⟩
  obtain ⟨c, hadd⟩ := (Collector.exists_add_eq_ok_iff (Collector.ofNaming_eq_ok h).1 task .empty
    hmissing).2 ⟨none, rfl⟩
  have hopen : host.openTask scope.id scope.runtime.ns runningPath =
      .ok (task, ⟨running 0 contents, [.cgroup (runningReader 0)]⟩) := by
    rw [Host.openTask, ofCgroup_running]
    rfl
  have hscan : (Scanner.ofRoot "/" .empty).scan start host =
      .ok ⟨⟨"/", .empty, [(runningPath, task)]⟩, c,
        ⟨running 0 contents, [.cgroup (runningReader 0)]⟩, 1, 0, []⟩ := by
    refine Scanner.scan_eq_ok_iff.2 ⟨_, list_running 0 contents, ?_⟩
    show _ = Scanner.update _ _ _ (scopes (Path.ofText "/") _)
    rw [hscopes]
    show _ = Scanner.track ⟨⟨"/", .empty, []⟩, start, host, 0, 0, []⟩ runningPath scope
    simp only [Scanner.track, hmissing, hopen]
    rw [hadd]
    rfl
  have hscanner : (ofRoots [("/", .empty)] start host).scanners[0]? =
      some (.ofRoot "/" .empty) := rfl
  refine ⟨task, c, fun events => ?_, rfl, scope.id, rfl⟩
  rw [run, List.foldl_cons, after_scan_of_ok hscanner hscan]
  rfl

/-! ## The answers of tracked tasks -/

/-- **A tracked task answers what is in the files that its scan has opened**, at any time of a
watch. If its directory still has these files, then it answers what a task answers that is opened
there now. -/
theorem ask_tracked (roots : List (String × LabelSet)) (collector : Collector) (host : Host)
    (events : List Event) :
    let start := ofRoots roots collector host
    let w := start.run events
    ∀ place task, w.Tracks place task →
      ∃ earlier since reader, events = earlier ++ .scan place.1 :: since ∧
        Opened start earlier since place task reader ∧
        (w.host.ask task.source).1 = reader.answer w.host.files ∧
        (StatReader.ofCgroup w.host.files place.2 = .ok reader → ∀ id ns, ∃ fresh opened,
          w.host.openTask id ns place.2 = .ok (fresh, opened) ∧
            (w.host.ask task.source).1 = (opened.ask fresh.source).1) := by
  intro start w place task h
  obtain ⟨earlier, since, reader, hevents, hopened, hsource⟩ :=
    run_opened roots collector host events place task h
  have hask : (w.host.ask task.source).1 = reader.answer w.host.files := Host.ask_of_cgroup hsource
  refine ⟨earlier, since, reader, hevents, hopened, hask, ?_⟩
  intro hsame id ns
  obtain ⟨fresh, opened, hopen, -, -, hfresh⟩ := Host.ask_openTask hsame id ns
  exact ⟨fresh, opened, hopen, hask.trans hfresh.symm⟩

/-- A file that is written to after the scan that has opened it. -/
theorem ask_tracked_rewritten :
    ∃ start, Collector.ofNaming (some ⟨"container", none, .empty⟩) = .ok start ∧
      let w := (ofRoots [("/", .empty)] start ⟨running 0 ["1\n"], []⟩).run
        [.scan 0, .change (running 0 ["2\n"])]
      ∃ task, w.Tracks (0, runningPath) task ∧
        (w.host.ask task.source).1 = .ok (.ofUnified { pids := some ⟨2, 0⟩ }) ∧
        ∀ id ns, ∃ fresh opened, w.host.openTask id ns runningPath = .ok (fresh, opened) ∧
          (opened.ask fresh.source).1 = .ok (.ofUnified { pids := some ⟨2, 0⟩ }) := by
  obtain ⟨start, h⟩ := Collector.exists_ofNaming_container
  obtain ⟨task, c, hrun, -⟩ := exists_run_scan_running h ["1\n"]
  refine ⟨start, h, ?_⟩
  intro w
  have htracks : w.Tracks (0, runningPath) task := by
    rw [show w = _ from hrun _]
    exact ⟨_, rfl, List.mem_singleton_self _⟩
  obtain ⟨earlier, since, reader, hevents, hopened, hask, hfresh⟩ :=
    ask_tracked _ _ _ _ (0, runningPath) task htracks
  -- there is only one scan
  obtain rfl : earlier = [] := by
    rcases earlier with _ | ⟨first, _ | ⟨second, rest⟩⟩
    · rfl
    · cases (List.cons.inj hevents).2
    · exact absurd (congrArg List.length hevents) (by simp)
  obtain rfl := Except.ok.inj ((ofCgroup_running 0 ["1\n"]).symm.trans hopened.opened)
  have hanswer : (runningReader 0).answer (running 0 ["2\n"]) =
      .ok (.ofUnified { pids := some ⟨2, 0⟩ }) := by
    cbv
  refine ⟨task, htracks, hask.trans hanswer, ?_⟩
  intro id ns
  obtain ⟨fresh, opened, hopen, hsame⟩ := hfresh (ofCgroup_running 0 ["2\n"]) id ns
  exact ⟨fresh, opened, hopen, hsame.symm.trans (hask.trans hanswer)⟩

/-! ## A container that is started again -/

/-- **A container that is started again between two scans is read from the files of its first run.**
The second scan succeeds and leaves the task as it is, although its directory was gone in between; a
task that is opened at the path now is read from other files. -/
theorem stale_of_restarted :
    ∃ start, Collector.ofNaming (some ⟨"container", none, .empty⟩) = .ok start ∧
      let w := (ofRoots [("/", .empty)] start ⟨running 0 ["1\n"], []⟩).run
        [.scan 0, .change { running 0 ["1\n"] with entries := [] },
          .change (running 1 ["1\n", "2\n"])]
      ∃ scanner result task, w.scanners = [scanner] ∧
        scanner.scan w.collector w.host = .ok result ∧
        result.scanner.tracked = [(runningPath, task)] ∧
        (result.host.ask task.source).1 = .ok (.ofUnified { pids := some ⟨1, 0⟩ }) ∧
        ∃ id fresh opened, result.host.openTask id task.ns runningPath = .ok (fresh, opened) ∧
          fresh.key = task.key ∧
          (opened.ask fresh.source).1 = .ok (.ofUnified { pids := some ⟨2, 0⟩ }) := by
  obtain ⟨start, h⟩ := Collector.exists_ofNaming_container
  obtain ⟨task, c, hrun, hsource, id, hid⟩ := exists_run_scan_running h ["1\n"]
  refine ⟨start, h, ?_⟩
  intro w
  let scanner : Scanner := ⟨"/", .empty, [(runningPath, task)]⟩
  let host : Host := ⟨running 1 ["1\n", "2\n"], [.cgroup (runningReader 0)]⟩
  have hw : w = ⟨[scanner], c, host⟩ := hrun _
  have hscan : scanner.scan c host = .ok ⟨scanner, c, host, 0, 0, []⟩ := by
    refine Scanner.scan_of_tracked (list_running 1 _) fun path => ?_
    obtain ⟨scope, hscopes⟩ := exists_scopes_running
    show scanner.tracks path = true ↔ ∃ scope, _ ∈ scopes (Path.ofText "/") _
    rw [hscopes]
    simp [scanner, Scanner.tracks, eq_comm]
  have hreader : StatReader.ofCgroup host.files runningPath = .ok (runningReader 1) :=
    ofCgroup_running 1 _
  obtain ⟨fresh, opened, hopen, hfreshid, hfreshns, hanswer⟩ := Host.ask_openTask hreader id task.ns
  rw [hw]
  refine ⟨scanner, _, task, rfl, hscan, rfl, ?_, id, fresh, opened, hopen, ?_, ?_⟩
  · rw [hsource]
    show (host.ask ⟨0⟩).1 = _
    rw [Host.ask_of_cgroup rfl]
    cbv
  · rw [Task.key, Task.key, hfreshid, hfreshns, hid]
  · rw [hanswer]
    cbv

end Watch

end ContainerUsage
