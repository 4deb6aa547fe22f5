import Mathlib
import ContainerUsage.Proofs.Collector.Names
import ContainerUsage.Proofs.Exposition.Lines

/-!
# What the text of a scrape tells

The text of a scrape says what its families are, and nothing else. It has a line of help and a line
with its type for each family and a line for each sample, and each line is read as what was written
on it. So the identifier of a task, its namespace and the values of its labels may be made of any
characters: they can neither end their line nor end their quotes.

* `Shown` families are written as their `lines` (`encode_of_shown`), and none is refused.
* `shown_collect` says that the families of a scrape are of this kind, whether the collector is
  enabled or not.
* `body_faithful` is the result: what is read from the body are the lines of the families.
-/

namespace ContainerUsage.Exposition

open Collector Text

/-! ## The lines of families -/

/-- The lines of a family. -/
def lines (f : Family) : List Line :=
  .help f.name f.help :: .type f.name (kindName f.kind) ::
    f.samples.map fun s => .sample f.name s.labels s.value.print

/-- The lines of a family that can be shown are proper. -/
theorem proper_of_shown {f : Family} (h : Shown f) : ∀ line ∈ lines f, line.Proper := by
  refine List.forall_mem_cons.2 ⟨.help h.name, List.forall_mem_cons.2 ⟨.type h.name ?_, ?_⟩⟩
  · cases f.kind <;> decide
  · refine List.forall_mem_map.2 fun s hs => ?_
    exact .sample h.name (h.labels s hs) (Stat.isLine_print _)

/-- A family is written as its lines. -/
theorem family_eq_print {f : Family} (h : f.help ≠ "") : family f = print (lines f) := by
  have hsamples : String.join (f.samples.map (sampleLine f.name)) =
      print (f.samples.map fun s => .sample f.name s.labels s.value.print) := by
    rw [print, List.map_map]
    rfl
  rw [family, hsamples, helpLine, if_neg h, typeLine]
  simp [print, lines, Line.print, String.append_assoc]

/-- Families with help texts are printed as their lines, one after the other. -/
theorem join_family_eq_print {families : List Family} (h : ∀ f ∈ families, f.help ≠ "") :
    String.join (families.map family) = print (families.flatMap lines) := by
  induction families with
  | nil => rfl
  | cons f rest ih =>
    obtain ⟨hf, hrest⟩ := List.forall_mem_cons.1 h
    rw [List.map_cons, String.join_cons, List.flatMap_cons, print_append,
      family_eq_print hf, ih hrest]

/-- Of the families that can be shown none is refused. -/
theorem encode_of_shown {families : List Family} (h : ∀ f ∈ families, Shown f) :
    encode families = .ok (String.join (families.map family)) := by
  induction families with
  | nil => rfl
  | cons f rest ih =>
    obtain ⟨hf, hrest⟩ := List.forall_mem_cons.1 h
    have hname : f.name ≠ "" := by
      intro hnil
      exact ne_nil_of_isMetricName hf.name (by rw [hnil]; rfl)
    have hcheck : check f = .ok () := by simp [check, hf.samples, hname]
    rw [encode, hcheck]
    dsimp only
    rw [ih hrest, List.map_cons, String.join_cons]
    rfl

/-- Sorting the samples of a family keeps it such that it can be shown. -/
theorem shown_sorted {f : Family} (h : Shown f) : Shown (sorted f) where
  name := h.name
  help := h.help
  samples := by
    intro hnil
    exact h.samples (List.perm_nil.1 (hnil ▸ (List.mergeSort_perm f.samples sampleLE).symm))
  labels := fun s hs => h.labels s (List.mem_mergeSort.1 hs)

/-- Sorting the samples of a family sorts its lines. -/
theorem lines_sorted_perm (f : Family) : (lines (sorted f)).Perm (lines f) :=
  (((List.mergeSort_perm f.samples sampleLE).map _).cons _).cons _

/-! ## A scrape -/

/-- The families of a scrape can be shown, and have different names. -/
theorem shown_collect {naming : Option Naming} {start : Collector}
    (hstart : ofNaming naming = .ok start) (calls : List Call) {order : List Registration}
    (hp : order.Perm (start.run calls).registrations) (host : Host) :
    (∀ f ∈ (((start.run calls).inOrder order).collect host).1.families, Shown f) ∧
      ((((start.run calls).inOrder order).collect host).1.families.map (·.name)).Nodup := by
  cases naming with
  | none =>
    have hnaming : ((start.run calls).inOrder order).naming = none := by
      show (start.run calls).naming = none
      rw [naming_run, ← Except.ok.inj hstart]
      rfl
    rw [collect]
    dsimp only
    rw [families_of_disabled hnaming]
    exact ⟨List.forall_mem_nil _, List.nodup_nil⟩
  | some naming =>
    have hc := (run_registered hstart calls).inOrder hp
    have hdescribed := (ofNaming_eq_ok hstart).2.2
    have hanswers : ∀ entry ∈ (askAll host order).1, entry.1 ∈ order :=
      fun entry hentry => mem_of_mem_askAll hentry
    exact ⟨fun f hf => valid_of_mem_assemble (hc.valid hdescribed) hanswers hf,
      hc.nodup_names hdescribed _⟩

/-- **The body of a scrape is a faithful image of its samples**, for every state that calls lead to,
every order of the tasks and all answers, whatever characters the labels are made of. There always
is a body. Cut at its newlines it is a line of help and a line with its type for each family and a
line for each sample, and these are read from it: the name of the family, all labels with their
names and values, and the number. No other lines have this text. -/
theorem body_faithful {naming : Option Naming} {start : Collector}
    (hstart : ofNaming naming = .ok start) (calls : List Call) {order : List Registration}
    (hp : order.Perm (start.run calls).registrations) (host : Host) :
    let families := (((start.run calls).inOrder order).collect host).1.families
    let written := (gather families).flatMap lines
    body families = .ok (render families) ∧
      (families.map (·.name)).Nodup ∧ written.Perm (families.flatMap lines) ∧
      cutAfter '\n' (render families).toList =
        written.map (fun line => line.print.toList ++ ['\n']) ∧
      read (render families) = some written ∧
      ∀ others : List Line, (∀ line ∈ others, line.Proper) → print others = render families →
        others = written := by
  intro families written
  obtain ⟨hshown, hnodup⟩ := shown_collect hstart calls hp host
  have hperm : (gather families).Perm (families.map sorted) := by
    rw [gather, merge_eq_self (fun f hf => (hshown f hf).samples) hnodup]
    exact arrange_perm families
  have hgathered : ∀ f ∈ gather families, Shown f := by
    intro f hf
    obtain ⟨g, hg, rfl⟩ := List.mem_map.1 (hperm.mem_iff.1 hf)
    exact shown_sorted (hshown g hg)
  have hproper : ∀ line ∈ written, line.Proper := by
    intro line hline
    obtain ⟨f, hf, hmem⟩ := List.mem_flatMap.1 hline
    exact proper_of_shown (hgathered f hf) line hmem
  have hrender : render families = print written :=
    join_family_eq_print fun f hf => (hgathered f hf).help
  refine ⟨encode_of_shown hgathered, hnodup, ?_, ?_, ?_, ?_⟩
  · refine (hperm.flatMap_right lines).trans ?_
    rw [List.flatMap_map]
    exact List.Perm.flatMap_left _ fun f _ => lines_sorted_perm f
  · rw [hrender, cutAfter_print hproper]
  · rw [hrender, read_print hproper]
  · intro others hothers heq
    exact print_injOn hothers hproper (heq.trans hrender)

/-- A task whose identifier and page size look like the ends of lines and labels. -/
theorem body_faithful_forged :
    ∃ start, ofNaming (some ⟨"container", none, .empty⟩) = .ok start ∧
      let forged := "a\"\x7d 1\ncontainer_pids_current\x7bcontainer_id=\"b"
      let stats : Payload.Unified.Stats := { pids := some ⟨5, 9⟩, hugetlb := [⟨1, 2, "2\"MB\\"⟩] }
      let host : Host := { sources := [.script (.ok (.ofUnified stats)) []] }
      let families := ((start.run [.add ⟨forged, "moby\n", ⟨0⟩⟩ .empty]).collect host).1.families
      body families = .ok (render families) ∧
        read (render families) = some ((gather families).flatMap lines) := by
  obtain ⟨start, hstart⟩ := exists_ofNaming_container
  refine ⟨start, hstart, ?_⟩
  intro forged stats host families
  have hbody := body_faithful hstart [.add ⟨forged, "moby\n", ⟨0⟩⟩ .empty] (List.Perm.refl _) host
  exact ⟨hbody.1, hbody.2.2.2.2.1⟩

end ContainerUsage.Exposition
