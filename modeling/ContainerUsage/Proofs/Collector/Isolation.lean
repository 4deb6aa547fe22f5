import Mathlib
import ContainerUsage.Proofs.Collector.About
import ContainerUsage.Proofs.Collector.Asking
import ContainerUsage.Proofs.Commuting

/-!
# Tasks do not interfere

What a scrape shows of one container depends on the calls for this container and on its own answers
only. `Session.Runs` are the runs of a collector and its host: calls and scrapes, where the registry
may hand out the tasks of each scrape in any order.

* `only_after` and `only_after_of_not` say what a call does to the registrations of one key: what it
  does where nothing else is registered, or nothing.
* `Session.Agree` relates two sessions that are the same as far as a key is concerned. A scrape
  keeps it, and shows the same of the container in both (`Agree.collect`).
* `Session.Runs.about_eq` compares a run with the run of the events that concern a container, by
  induction over the run, and `Session.runs_isolated` two runs in which these events are the same.
-/

namespace ContainerUsage

namespace Collector

/-! ## Runs -/

/-- What is done to a collector: a call, or a scrape. -/
inductive Event where
  | call (call : Call)
  | collect

/-- A call that is about a key, or a scrape. -/
def Event.concerns (key : String) : Event → Bool
  | .call (.add task _) => task.key = key
  | .call (.remove id ns) => taskKey id ns = key
  | .collect => true

/-- A collector, and what its tasks are asked through. -/
structure Session where
  collector : Collector
  host : Host

namespace Session

/-- The session after a call. -/
def after (s : Session) (call : Call) : Session := { s with collector := s.collector.after call }

/-- A scrape for which the registry hands out the tasks in a given order. -/
def collect (s : Session) (order : List Registration) : Scrape × Session :=
  let result := (s.collector.inOrder order).collect s.host
  (result.1, { s with host := result.2 })

/-- A run of calls and scrapes, with the scrapes that it gives. The registry may hand out the tasks
of each scrape in any order. -/
inductive Runs : Session → List Event → List Scrape → Session → Prop where
  | nil (s : Session) : Runs s [] [] s
  | call {s s' : Session} {call : Call} {events : List Event} {scrapes : List Scrape}
      (h : Runs (s.after call) events scrapes s') : Runs s (.call call :: events) scrapes s'
  | collect {s s' : Session} {order : List Registration} {events : List Event}
    {scrapes : List Scrape}
      (hp : order.Perm s.collector.registrations) (h : Runs (s.collect order).2 events scrapes s') :
      Runs s (.collect :: events) ((s.collect order).1 :: scrapes) s'

/-- Some run there always is. -/
theorem exists_runs (s : Session) (events : List Event) :
    ∃ scrapes s', Runs s events scrapes s' := by
  induction events generalizing s with
  | nil => exact ⟨[], s, .nil s⟩
  | cons event rest ih =>
    cases event with
    | call call =>
      obtain ⟨scrapes, s', h⟩ := ih (s.after call)
      exact ⟨scrapes, s', .call h⟩
    | collect =>
      obtain ⟨scrapes, s', h⟩ := ih (s.collect s.collector.registrations).2
      exact ⟨_, s', .collect (List.Perm.refl _) h⟩

end Session

/-! ## The part of a collector that concerns a key -/

section only

variable {c : Collector} {key : String}

/-- The collector with the registrations of one key only. -/
def only (c : Collector) (key : String) : Collector :=
  { c with registrations := c.registrations.filter (·.task.key = key) }

/-- Whether a task is there depends on the registrations of its key only. -/
theorem contains_only (id ns : String) :
    (c.only (taskKey id ns)).contains id ns = c.contains id ns := by
  rw [Bool.eq_iff_iff, contains_eq_true_iff, contains_eq_true_iff]
  simp [keys, only]

/-- A call about a key does the same where nothing else is registered. -/
theorem only_after {naming : Naming} (hn : c.naming = some naming) {call : Call}
    (h : (Event.call call).concerns key = true) :
    (c.after call).only key = (c.only key).after call := by
  cases call with
  | add task labels =>
    obtain rfl : task.key = key := by simpa [Event.concerns] using h
    have hthere : (c.only task.key).contains task.id task.ns = c.contains task.id task.ns :=
      contains_only task.id task.ns
    rw [after_add hn, after_add (c := c.only task.key) hn, hthere]
    cases c.contains task.id task.ns with
    | true => rfl
    | false => cases describeTask naming labels <;> simp [only]
  | remove id ns => simp only [after, remove, only, List.filter_filter, Bool.and_comm]

/-- A call about another key changes nothing. -/
theorem only_after_of_not {naming : Naming} (hn : c.naming = some naming) {call : Call}
    (h : (Event.call call).concerns key = false) : (c.after call).only key = c.only key := by
  rcases after_cases hn call with hsame | ⟨task, labels, ds, rfl, -, -, hadd⟩ |
    ⟨id, ns, rfl, hremove⟩
  · rw [hsame]
  · have hkey : task.key ≠ key := by simpa [Event.concerns] using h
    rw [hadd]
    simp [only, hkey]
  · have hkey : taskKey id ns ≠ key := by simpa [Event.concerns] using h
    rw [hremove]
    unfold only remove
    rw [List.filter_filter]
    congr 1
    refine List.filter_congr fun r _ => ?_
    by_cases hr : r.task.key = key <;> simp [hr, Ne.symm hkey]

end only

/-! ## Two sessions side by side -/

namespace Session

/-- The session is reached from a new collector by calls that add known tasks only. -/
structure Reached (start : Collector) (known : Set Task) (s : Session) : Prop where
  run : ∃ calls, s.collector = start.run calls
  known : ∀ r ∈ s.collector.registrations, r.task ∈ known

/-- Tasks with different keys have different sources. -/
def Apart (known : Set Task) : Prop :=
  ∀ task ∈ known, ∀ other ∈ known, task.source = other.source → task.key = other.key

/-- The sessions are the same as far as a key and some sources are concerned. -/
structure Agree (key : String) (own : Set SourceId) (s t : Session) : Prop where
  only : s.collector.only key = t.collector.only key
  answers : ∀ source ∈ own, ∀ n, s.host.answers source n = t.host.answers source n

variable {naming : Naming} {start : Collector} {known : Set Task} {key : String}
    {own : Set SourceId}
  {s t : Session} {order : List Registration}

/-- A session that is reached has a collector that calls lead to. -/
theorem Reached.registered (h : s.Reached start known)
    (hstart : ofNaming (some naming) = .ok start) :
    ∃ calls, Registered naming start calls s.collector := by
  obtain ⟨calls, hrun⟩ := h.run
  exact ⟨calls, hrun ▸ run_registered hstart calls⟩

/-- A call that adds a known task, or adds none, leads to a session that is reached. -/
theorem Reached.after (h : s.Reached start known) (hstart : ofNaming (some naming) = .ok start)
    {call : Call} (hcall : ∀ task labels, call = .add task labels → task ∈ known) :
    (s.after call).Reached start known := by
  obtain ⟨calls, hrun⟩ := h.run
  obtain ⟨_, hregistered⟩ := h.registered hstart
  refine ⟨⟨calls ++ [call], by rw [run_concat, ← hrun]; rfl⟩, fun r hr => ?_⟩
  have hr : r ∈ (s.collector.after call).registrations := hr
  rcases after_cases hregistered.enabled call with hsame | ⟨task, labels, ds, hadd, -, -, heq⟩ |
    ⟨id, ns, -, heq⟩
  · rw [hsame] at hr
    exact h.known r hr
  · rw [heq] at hr
    rcases List.mem_append.1 hr with hold | hnew
    · exact h.known r hold
    · rw [List.mem_singleton.1 hnew]
      exact hcall task labels hadd
  · rw [heq] at hr
    exact h.known r (List.mem_of_mem_filter hr)

/-- A scrape leads to a session that is reached. -/
theorem Reached.collect (h : s.Reached start known) (order : List Registration) :
    (s.collect order).2.Reached start known := ⟨h.run, h.known⟩

/-- No two of the tasks that are registered have one source. -/
theorem Reached.nodup_sources (h : s.Reached start known)
    (hstart : ofNaming (some naming) = .ok start)
    (hapart : Apart known) (hp : order.Perm s.collector.registrations) :
    (order.map (·.task.source)).Nodup := by
  obtain ⟨_, hregistered⟩ := h.registered hstart
  have hkeys : (s.collector.registrations.map (·.task.key)).Nodup := hregistered.nodup_keys
  refine ((hp.map _).nodup_iff).2
    ((List.nodup_map_iff_inj_on hkeys.of_map).2 fun r hr r' hr' heq => ?_)
  have hkey := hapart _ (h.known r hr) _ (h.known r' hr') heq
  exact List.inj_on_of_nodup_map hkeys hr hr' hkey

/-- What a scrape does to the sources: those of the registered tasks give their next answer, and all
others are left alone. -/
theorem Reached.sources_collect (h : s.Reached start known)
    (hstart : ofNaming (some naming) = .ok start) (hapart : Apart known)
    (hp : order.Perm s.collector.registrations) :
    (askAll s.host order).1 = order.map (fun r => (r, s.host.answers r.task.source 0)) ∧
      (∀ r ∈ s.collector.registrations, (s.collect order).2.host.sources[r.task.source.index]? =
        s.host.sources[r.task.source.index]?.map fun asked => (asked.ask s.host.files).2) ∧
      ∀ source, (∀ r ∈ s.collector.registrations, r.task.source ≠ source) →
        (s.collect order).2.host.sources[source.index]? = s.host.sources[source.index]? := by
  have hnodup := h.nodup_sources hstart hapart hp
  refine ⟨fst_askAll s.host hnodup, fun r hr => ?_, fun source hsource => ?_⟩
  · exact sources_askAll_of_mem s.host hnodup (List.mem_map.2 ⟨r, hp.mem_iff.2 hr, rfl⟩)
  · refine sources_askAll_of_notMem s.host fun hmem => ?_
    obtain ⟨r, hr, heq⟩ := List.mem_map.1 hmem
    exact hsource r (hp.mem_iff.1 hr) heq

/-- What a scrape shows of a container is what its own registration shows with its next answer. -/
theorem Reached.about_collect (h : s.Reached start known)
    (hstart : ofNaming (some naming) = .ok start)
    (hapart : Apart known) (hp : order.Perm s.collector.registrations) (id ns : String) :
    (s.collect order).1.about id ns =
      ((s.collector.only (taskKey id ns)).assemble
        (((s.collector.only (taskKey id ns)).registrations.filter (·.task.isOf id ns)).map fun r =>
          (r, s.host.answers r.task.source 0))).families := by
  obtain ⟨_, hregistered⟩ := h.registered hstart
  have hown := (ofNaming_eq_ok hstart).2.2
  have hanswers := (h.sources_collect hstart hapart hp).1
  have hmem : ∀ entry ∈ (askAll s.host order).1,
      entry.1 ∈ (s.collector.inOrder order).registrations := by
    rw [hanswers]
    exact List.forall_mem_map.2 fun r hr => hr
  -- the order of the registrations does not matter, as there is one of the key at most
  have horder : order.filter (·.task.isOf id ns) =
      (s.collector.only (taskKey id ns)).registrations.filter (·.task.isOf id ns) := by
    have hkeys : (order.map (·.task.key)).Nodup :=
      (hp.map fun r : Registration => r.task.key).nodup_iff.2 hregistered.nodup_keys
    have hfilter := filter_eq_of_perm hp hkeys (taskKey id ns)
    have hof : ∀ r : Registration, (r.task.isOf id ns && decide (r.task.key = taskKey id ns)) =
        r.task.isOf id ns := by
      intro r
      by_cases hr : r.task.isOf id ns = true
      · obtain ⟨rfl, rfl⟩ : r.task.id = id ∧ r.task.ns = ns := by simpa [Task.isOf] using hr
        simp [Task.key]
      · simp [hr]
    rw [only, ← hfilter, List.filter_filter]
    simp only [hof]
  show Scrape.about id ns ((s.collector.inOrder order).assemble (askAll s.host order).1) = _
  rw [about_assemble id ns (hregistered.inOrder hp) hown hmem, hanswers, List.filter_map]
  simp only [Function.comp_def, horder]
  rfl

/-- A source that belongs to the key is one of a registered task iff it is that of a task with the
key. -/
theorem Reached.exists_only_iff (h : s.Reached start known)
    (hown : ∀ task ∈ known, task.source ∈ own ↔ task.key = key) {source : SourceId}
    (hsource : source ∈ own) :
    (∃ r ∈ (s.collector.only key).registrations, r.task.source = source) ↔
      ∃ r ∈ s.collector.registrations, r.task.source = source := by
  constructor
  · rintro ⟨r, hr, heq⟩
    exact ⟨r, List.mem_of_mem_filter hr, heq⟩
  · rintro ⟨r, hr, rfl⟩
    have hkey := (hown _ (h.known r hr)).1 hsource
    exact ⟨r, List.mem_filter.2 ⟨hr, decide_eq_true hkey⟩, rfl⟩

variable {order' : List Registration}

/-- **A scrape keeps two sessions alike for a container, and shows the same of it in both.** -/
theorem Agree.collect {id ns : String} (h : s.Agree (taskKey id ns) own t)
    (hs : s.Reached start known) (ht : t.Reached start known)
    (hstart : ofNaming (some naming) = .ok start) (hapart : Apart known)
    (hown : ∀ task ∈ known, task.source ∈ own ↔ task.key = taskKey id ns)
    (hp : order.Perm s.collector.registrations) (hp' : order'.Perm t.collector.registrations) :
    (s.collect order).1.about id ns = (t.collect order').1.about id ns ∧
      (s.collect order).2.Agree (taskKey id ns) own (t.collect order').2 := by
  constructor
  · rw [hs.about_collect hstart hapart hp, ht.about_collect hstart hapart hp', h.only]
    congr 2
    refine List.map_congr_left fun r hr => ?_
    have hmem : r ∈ (s.collector.only (taskKey id ns)).registrations := by
      rw [h.only]
      exact List.mem_of_mem_filter hr
    obtain ⟨hr, hkey⟩ := List.mem_filter.1 hmem
    have hsource := (hown _ (hs.known r hr)).2 (of_decide_eq_true hkey)
    rw [h.answers _ hsource]
  · refine ⟨h.only, fun source hsource n => ?_⟩
    obtain ⟨-, hasked, hleft⟩ := hs.sources_collect hstart hapart hp
    obtain ⟨-, hasked', hleft'⟩ := ht.sources_collect hstart hapart hp'
    have hiff := (hs.exists_only_iff hown hsource).symm.trans
      (h.only ▸ ht.exists_only_iff hown hsource)
    by_cases hthere : ∃ r ∈ s.collector.registrations, r.task.source = source
    · obtain ⟨r', hr', heq'⟩ := hiff.1 hthere
      obtain ⟨r, hr, rfl⟩ := hthere
      have hleft := Host.answers_of_asked (files_askAll s.host order) (hasked r hr) n
      have hleft' := Host.answers_of_asked (files_askAll t.host order') (hasked' r' hr') n
      rw [heq'] at hleft'
      exact hleft.trans ((h.answers _ hsource (n + 1)).trans hleft'.symm)
    · have hleft := Host.answers_congr (files_askAll s.host order)
        (hleft source fun r hr heq => hthere ⟨r, hr, heq⟩) n
      have hleft' := Host.answers_congr (files_askAll t.host order')
        (hleft' source fun r hr heq => hthere (hiff.2 ⟨r, hr, heq⟩)) n
      exact hleft.trans ((h.answers _ hsource n).trans hleft'.symm)

/-- The tasks that are added in the course of a run. -/
def added (events : List Event) : Set Task := { task | ∃ labels, .call (.add task labels) ∈ events }

/-- What holds after a run. -/
theorem Runs.reached {events : List Event} {scrapes : List Scrape} {s' : Session}
    (hrun : Runs s events scrapes s') (hstart : ofNaming (some naming) = .ok start)
    (h : s.Reached start known) (hknown : added events ⊆ known) : s'.Reached start known := by
  induction hrun with
  | nil => exact h
  | call _ ih =>
    refine ih (h.after hstart ?_) fun task hmem => ?_
    · rintro task labels rfl
      exact hknown ⟨labels, List.mem_cons_self⟩
    · obtain ⟨labels, hmem⟩ := hmem
      exact hknown ⟨labels, List.mem_cons_of_mem _ hmem⟩
  | collect _ _ ih =>
    refine ih (h.collect _) fun task hmem => ?_
    obtain ⟨labels, hmem⟩ := hmem
    exact hknown ⟨labels, List.mem_cons_of_mem _ hmem⟩

/-- A run shows the same of a container as a run of the events that concern it. -/
theorem Runs.about_eq {events : List Event} {scrapes scrapes' : List Scrape} {s' t' : Session}
    {id ns : String} (hrun : Runs s events scrapes s')
    (hrun' : Runs t (events.filter (Event.concerns (taskKey id ns))) scrapes' t')
    (h : s.Agree (taskKey id ns) own t) (hs : s.Reached start known) (ht : t.Reached start known)
    (hstart : ofNaming (some naming) = .ok start) (hapart : Apart known)
    (hown : ∀ task ∈ known, task.source ∈ own ↔ task.key = taskKey id ns)
    (hknown : added events ⊆ known) :
    scrapes.map (Scrape.about id ns) = scrapes'.map (Scrape.about id ns) := by
  have htail : ∀ {event : Event} {rest : List Event}, added (event :: rest) ⊆ known →
      added rest ⊆ known := by
    rintro event rest hsub task ⟨labels, hmem⟩
    exact hsub ⟨labels, List.mem_cons_of_mem _ hmem⟩
  induction hrun generalizing t scrapes' with
  | nil =>
    cases hrun'
    rfl
  | @call s s' call events scrapes hrest ih =>
    have hcall : ∀ task labels, call = .add task labels → task ∈ known := by
      rintro task labels rfl
      exact hknown ⟨labels, List.mem_cons_self⟩
    obtain ⟨_, hregistered⟩ := hs.registered hstart
    obtain ⟨_, hregistered'⟩ := ht.registered hstart
    by_cases hconcerns : (Event.call call).concerns (taskKey id ns) = true
    · rw [List.filter_cons_of_pos hconcerns] at hrun'
      cases hrun' with
      | call hrest' =>
        refine ih hrest' ⟨?_, h.answers⟩ (hs.after hstart hcall) (ht.after hstart hcall)
          (htail hknown)
        show (s.collector.after call).only _ = (t.collector.after call).only _
        rw [only_after hregistered.enabled hconcerns,
          only_after hregistered'.enabled hconcerns, h.only]
    · rw [List.filter_cons_of_neg hconcerns] at hrun'
      refine ih hrun' ⟨?_, h.answers⟩ (hs.after hstart hcall) ht (htail hknown)
      show (s.collector.after call).only _ = t.collector.only _
      rw [only_after_of_not hregistered.enabled (by simpa using hconcerns), h.only]
  | @collect s s' order events scrapes hp hrest ih =>
    rw [List.filter_cons_of_pos rfl] at hrun'
    cases hrun' with
    | @collect _ _ order' _ _ hp' hrest' =>
      obtain ⟨habout, hagree⟩ := h.collect hs ht hstart hapart hown hp hp'
      rw [List.map_cons, List.map_cons, habout,
        ih hrest' hagree (hs.collect order) (ht.collect order') (htail hknown)]

/-- The session before the first event is reached. -/
theorem reached_start (hstart : ofNaming (some naming) = .ok start) (host : Host)
    (known : Set Task) :
    (Session.mk start host).Reached start known := by
  refine ⟨⟨[], rfl⟩, fun r hr => ?_⟩
  rw [(ofNaming_eq_ok hstart).2.1] at hr
  exact absurd hr List.not_mem_nil

/-- **Tasks do not interfere.** Two runs with the same calls about a container at the same places
between the scrapes, and with the same answers of its tasks, show the same of it in every scrape,
whatever else is registered, removed and answered in each, and in whatever order the tasks are
asked. And every scrape takes one answer of each registered task and none of any other. -/
theorem runs_isolated (hstart : ofNaming (some naming) = .ok start) {id ns : String}
    {host host' : Host}
    {events events' : List Event} {scrapes scrapes' : List Scrape} {s s' : Session}
    (hrun : Runs ⟨start, host⟩ events scrapes s) (hrun' : Runs ⟨start, host'⟩ events' scrapes' s')
    (hsame : events.filter (Event.concerns (taskKey id ns)) =
      events'.filter (Event.concerns (taskKey id ns)))
    (hanswers : ∀ task ∈ added events, task.key = taskKey id ns →
      ∀ n, host.answers task.source n = host'.answers task.source n)
    (hapart : Apart (added events)) (hapart' : Apart (added events')) :
    scrapes.map (Scrape.about id ns) = scrapes'.map (Scrape.about id ns) ∧
      ∀ order : List Registration, order.Perm s.collector.registrations →
        (askAll s.host order).1 = order.map (fun r => (r, s.host.answers r.task.source 0)) ∧
        (∀ r ∈ s.collector.registrations, (s.collect order).2.host.sources[r.task.source.index]? =
          s.host.sources[r.task.source.index]?.map fun asked => (asked.ask s.host.files).2) ∧
        ∀ source, (∀ r ∈ s.collector.registrations, r.task.source ≠ source) →
          (s.collect order).2.host.sources[source.index]? = s.host.sources[source.index]? := by
  -- the sources of the container, which are the same in both runs
  let own : Set SourceId :=
    { source | ∃ task ∈ added events, task.key = taskKey id ns ∧ task.source = source }
  have hshared : ∀ {events events' : List Event}, events.filter (Event.concerns (taskKey id ns)) =
      events'.filter (Event.concerns (taskKey id ns)) → ∀ task ∈ added events,
        task.key = taskKey id ns → task ∈ added events' := by
    rintro events events' hsame task ⟨labels, hmem⟩ hkey
    have hfilter : Event.call (.add task labels) ∈ events.filter (Event.concerns (taskKey id ns)) :=
      List.mem_filter.2 ⟨hmem, decide_eq_true hkey⟩
    rw [hsame] at hfilter
    exact ⟨labels, List.mem_of_mem_filter hfilter⟩
  have hown : ∀ task ∈ added events, task.source ∈ own ↔ task.key = taskKey id ns := by
    intro task htask
    constructor
    · rintro ⟨other, hother, hkey, hsource⟩
      exact (hapart _ htask _ hother hsource.symm).trans hkey
    · exact fun hkey => ⟨task, htask, hkey, rfl⟩
  have hown' : ∀ task ∈ added events', task.source ∈ own ↔ task.key = taskKey id ns := by
    intro task htask
    constructor
    · rintro ⟨other, hother, hkey, hsource⟩
      exact (hapart' _ htask _ (hshared hsame _ hother hkey) hsource.symm).trans hkey
    · exact fun hkey => ⟨task, hshared hsame.symm _ htask hkey, hkey, rfl⟩
  constructor
  · -- both runs show what a run of the calls about the container alone shows
    obtain ⟨alone, t, halone⟩ :=
      exists_runs ⟨start, host⟩ (events.filter (Event.concerns (taskKey id ns)))
    have hfirst := hrun.about_eq halone ⟨rfl, fun _ _ _ => rfl⟩ (reached_start hstart host _)
      (reached_start hstart host _) hstart hapart hown subset_rfl
    rw [hsame] at halone
    have hagree : (Session.mk start host').Agree (taskKey id ns) own ⟨start, host⟩ := by
      refine ⟨rfl, ?_⟩
      rintro source ⟨task, htask, hkey, rfl⟩ n
      exact (hanswers task htask hkey n).symm
    exact hfirst.trans (hrun'.about_eq halone hagree (reached_start hstart host' _)
      (reached_start hstart host _) hstart hapart' hown' subset_rfl).symm
  · intro order hp
    exact (hrun.reached hstart (reached_start hstart host _) subset_rfl).sources_collect
      hstart hapart hp

/-- A task that answers once and then fails, alone and beside a task that comes, gives stats of an
unknown kind, and goes. -/
theorem runs_isolated_beside :
    ∃ start, ofNaming (some ⟨"container", none, .empty⟩) = .ok start ∧
      let a : Task := ⟨"a", "moby", ⟨0⟩⟩
      let b : Task := ⟨"b", "moby", ⟨1⟩⟩
      let answers : Source :=
        .script (.ok (.ofUnified { pids := some ⟨5, 100⟩ })) [.error (.reported "task is gone")]
      let events := [.call (.add a .empty), .collect, .collect]
      let events' := [.call (.add b (.ofList [("zone", "eu")])), .call (.add a .empty), .collect,
        .call (.remove "b" "moby"), .collect]
      ∃ scrapes scrapes' s s', Runs ⟨start, { sources := [answers] }⟩ events scrapes s ∧
        Runs ⟨start, { sources := [answers, .script (.ok ⟨"stats", []⟩) []] }⟩ events' scrapes' s' ∧
        scrapes.map (Scrape.about "a" "moby") = scrapes'.map (Scrape.about "a" "moby") := by
  obtain ⟨start, hstart⟩ := exists_ofNaming_container
  refine ⟨start, hstart, ?_⟩
  intro a b answers events events'
  obtain ⟨scrapes, s, hrun⟩ := exists_runs ⟨start, { sources := [answers] }⟩ events
  obtain ⟨scrapes', s', hrun'⟩ :=
    exists_runs ⟨start, { sources := [answers, .script (.ok ⟨"stats", []⟩) []] }⟩ events'
  refine ⟨scrapes, scrapes', s, s', hrun, hrun', ?_⟩
  have hadded : ∀ task ∈ added events, task = a := by
    rintro task ⟨labels, hmem⟩
    simp [events] at hmem
    exact hmem.1
  have hadded' : ∀ task ∈ added events', task = a ∨ task = b := by
    rintro task ⟨labels, hmem⟩
    simp [events'] at hmem
    tauto
  refine (runs_isolated hstart hrun hrun' ?_ ?_ ?_ ?_).1
  · simp [events, events', a, b, List.filter_cons, Event.concerns, Task.key, taskKey]
  · intro task htask _ n
    rw [hadded task htask]
    rfl
  · intro task htask other hother _
    rw [hadded task htask, hadded other hother]
  · intro task htask other hother
    rcases hadded' task htask with rfl | rfl <;> rcases hadded' other hother with rfl | rfl
      <;> simp [a, b]

end Session

end Collector

end ContainerUsage
