import Mathlib
import ContainerUsage.Proofs.Collector.Isolation
import ContainerUsage.Proofs.Payload.Content

/-!
# Tasks of the legacy hierarchies

A task may report its stats in the legacy form, and a scrape shows their unified form. So it makes
no difference whether a task, or something between it and the exporter, brings the stats into the
unified form first.

* `Answer.Matches` relates two answers that differ in nothing but this, and `Host.Matches` two hosts
  with such answers.
* `Answer.Matches.statsOf_eq` is the main step: matching answers are read as the same stats. The
  unified form always fits into an envelope (`fits_toUnified`), whatever the numbers are.
* `Host.Matches.askAll` says that hosts keep matching while tasks are asked, from `Host.Matches.ask`
  for one question, by induction over the tasks.
* `collect_of_matches` is the result for one scrape of any collector, and `Session.Runs.of_matches`
  for a whole run of calls and scrapes.
-/

namespace ContainerUsage

open Payload

/-! ## The unified form -/

namespace Payload.Legacy

/-- The same counters, with the groups that are absent as zeros. -/
def Cpu.filled (cpu : Cpu) : Cpu := ⟨some (cpu.usage.getD {}), some (cpu.throttling.getD {})⟩

/-- The same memory, with the groups that are absent as zeros. -/
def Memory.filled (memory : Memory) : Memory :=
  { memory with usage := some (memory.usage.getD {}), swap := some (memory.swap.getD {}) }

/-- The same stats, with the groups inside their controllers that are absent as zeros. -/
def Stats.filled (stats : Stats) : Stats :=
  { stats with cpu := stats.cpu.map Cpu.filled, memory := stats.memory.map Memory.filled }

/-- The times of the unified form are those of the legacy stats in whole microseconds. -/
structure Cpu.Times (cpu : Cpu) (unified : Unified.Cpu) : Prop where
  usage : unified.usageUsec.toNat = (cpu.usage.getD {}).total.toNat / 1000
  user : unified.userUsec.toNat = (cpu.usage.getD {}).user.toNat / 1000
  system : unified.systemUsec.toNat = (cpu.usage.getD {}).kernel.toNat / 1000
  throttled : unified.throttledUsec.toNat = (cpu.throttling.getD {}).throttledTime.toNat / 1000

/-- The unified form of legacy stats fits into an envelope, whatever the numbers are. -/
theorem Stats.fits_toUnified (stats : Stats) : (Envelope.ofUnified stats.toUnified).Fits := by
  have hlength : (Unified.Stats.schema.write stats.toUnified).length ≤ 1680 :=
    Unified.Stats.length_write_le rfl rfl
  exact Nat.lt_of_le_of_lt hlength (by decide)

/-- What the unified form has of legacy stats. -/
structure Stats.Keeps (stats : Stats) (unified : Unified.Stats) : Prop where
  pids : unified.pids.isSome = stats.pids.isSome
  cpu : unified.cpu.isSome = stats.cpu.isSome
  memory : unified.memory.isSome = stats.memory.isSome
  /-- Controllers that the legacy hierarchies do not report stay absent. -/
  others : unified.io = none ∧ unified.hugetlb = [] ∧ unified.memoryEvents = none
  /-- Groups that are absent count as zeros. -/
  filled : unified = stats.filled.toUnified
  times : ∀ legacy ∈ stats.cpu, ∀ cpu ∈ unified.cpu, legacy.Times cpu

end Payload.Legacy

/-! ## Matching answers -/

/-- The answers are the same, or the second one has the unified form of the stats in the first. -/
inductive Answer.Matches : Answer → Answer → Prop where
  | same (answer : Answer) : Matches answer answer
  | unified (stats : Legacy.Stats) : Matches (.ok (.ofLegacy stats))
    (.ok (.ofUnified stats.toUnified))

/-- Matching answers are read as the same stats, or are told in the same notice. -/
theorem Answer.Matches.statsOf_eq {answer answer' : Answer} (h : Matches answer answer')
    (task : Task) :
    Collector.statsOf task answer = Collector.statsOf task answer' := by
  cases h with
  | same => rfl
  | unified stats =>
    have hlegacy : (Envelope.ofLegacy stats).content = .ok (.legacy stats) :=
      Envelope.content_legacy stats List.mem_cons_self
    have hunified : (Envelope.ofUnified stats.toUnified).content = .ok (.unified stats.toUnified) :=
      Envelope.content_unified stats.fits_toUnified List.mem_cons_self
    unfold Collector.statsOf
    dsimp only
    rw [hlegacy, hunified]
    rfl

namespace Host

/-- Every answer of the one host matches that of the other. -/
def Matches (host host' : Host) : Prop :=
  ∀ source n, (host.answers source n).Matches (host'.answers source n)

variable {host host' : Host}

/-- A question gets matching answers, and leaves hosts that match. -/
theorem Matches.ask (h : host.Matches host') (source : SourceId) :
    (host.ask source).1.Matches (host'.ask source).1 ∧
      (host.ask source).2.Matches (host'.ask source).2 := by
  constructor
  · rw [fst_ask, fst_ask]
    exact h source 0
  · intro other n
    rw [answers_ask, answers_ask]
    exact h other _

end Host

/-! ## A scrape -/

namespace Collector

/-- Asking tasks gets matching answers from matching hosts, and leaves hosts that match. -/
theorem matches_askAll {host host' : Host} (h : host.Matches host')
    (registrations : List Registration) :
    List.Forall₂ (fun entry entry' : Registration × Answer =>
        entry.1 = entry'.1 ∧ entry.2.Matches entry'.2)
      (askAll host registrations).1 (askAll host' registrations).1 ∧
      (askAll host registrations).2.Matches (askAll host' registrations).2 := by
  induction registrations generalizing host host' with
  | nil => exact ⟨.nil, h⟩
  | cons r rest ih =>
    obtain ⟨hanswer, hleft⟩ := h.ask r.task.source
    obtain ⟨hanswers, hlast⟩ := ih hleft
    exact ⟨.cons ⟨rfl, hanswer⟩ hanswers, hlast⟩

/-- Matching answers give the same readings and the same notices. -/
theorem readings_of_matches {answers answers' : List (Registration × Answer)}
    (h : List.Forall₂ (fun entry entry' : Registration × Answer =>
      entry.1 = entry'.1 ∧ entry.2.Matches entry'.2) answers answers') :
    readings answers = readings answers' := by
  induction h with
  | nil => rfl
  | @cons entry entry' rest rest' hentry _ ih =>
    obtain ⟨r, answer⟩ := entry
    obtain ⟨r', answer'⟩ := entry'
    obtain ⟨rfl, hanswer⟩ : r = r' ∧ answer.Matches answer' := hentry
    rw [readings, readings, hanswer.statsOf_eq r.task, ih]

/-- What is made of answers depends on their readings and notices only. -/
theorem assemble_congr (c : Collector) {answers answers' : List (Registration × Answer)}
    (h : readings answers = readings answers') : c.assemble answers = c.assemble answers' := by
  rw [assemble, assemble, h]

/-- Matching hosts give the same scrape, and match after it. -/
theorem collect_eq_of_matches (c : Collector) {host host' : Host} (h : host.Matches host') :
    (c.collect host).1 = (c.collect host').1 ∧ (c.collect host).2.Matches (c.collect host').2 := by
  obtain ⟨hanswers, hleft⟩ := matches_askAll h c.registrations
  exact ⟨c.assemble_congr (readings_of_matches hanswers), hleft⟩

/-- **A run is the same** where tasks report the unified form of their stats. The same calls lead to
the same collector and the same scrapes. -/
theorem Session.Runs.of_matches {s s' : Session} {events : List Event} {scrapes : List Scrape}
    (hrun : Runs s events scrapes s') {host : Host} (h : s.host.Matches host) :
    ∃ host', Runs ⟨s.collector, host⟩ events scrapes ⟨s'.collector, host'⟩ ∧
      s'.host.Matches host' := by
  induction hrun generalizing host with
  | nil => exact ⟨host, .nil _, h⟩
  | call _ ih =>
    obtain ⟨host', hrun', hlast⟩ := ih h
    exact ⟨host', .call hrun', hlast⟩
  | @collect s _ order _ _ hp _ ih =>
    obtain ⟨hscrape, hleft⟩ := (s.collector.inOrder order).collect_eq_of_matches h
    obtain ⟨host', hrun', hlast⟩ := ih hleft
    have hsame : (s.collect order).1 = (Session.collect ⟨s.collector, host⟩ order).1 := hscrape
    rw [hsame]
    exact ⟨host', .collect hp hrun', hlast⟩

end Collector

end ContainerUsage
