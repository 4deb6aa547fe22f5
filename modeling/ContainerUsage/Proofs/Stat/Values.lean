import Mathlib
import ContainerUsage.Proofs.Stat.Items

/-!
# The numbers under the known keys

Where a key may come once, a file says of each known key one of two things: there is one value under
it, and that is a number, or there is none, and the number is 0. `Gives pairs counter` is this for
the pairs of a file or of a line. It does not look at the order of the pairs (`Gives.of_perm`), and
gives no two numbers to one key (`Gives.unique`).

* `exists_counters_iff` says when pairs can be read at all: iff they give every known key a number.
* `Shown` is what ties a table to the fields of what is read: each known key has a field, and a
  number under a key changes its own field and nothing else.
* `Shown.foldlM_eq_ok_iff` is the result: pairs are read as some fields iff they give every key the
  number in its field. `foldlM_eq_error_iff` is the other half: they are refused iff some known key
  is given none.
-/

namespace ContainerUsage.Stat

/-! ## One key -/

/-- The values under a key, in the order of the pairs. -/
def valuesUnder (pairs : List Pair) (key : String) : List (List Char) :=
  (pairs.filter fun pair => String.ofList pair.1 = key).map Prod.snd

/-- The number that pairs give to a key: the one value under it, or 0 if there is none. -/
inductive Gives (pairs : List Pair) : Counter → Prop
  | zero {key : String} (h : valuesUnder pairs key = []) : Gives pairs (key, 0)
  | value {key : String} {value : List Char} {n : UInt64} (h : valuesUnder pairs key = [value])
      (hvalue : Decimal.parse value = .ok n) : Gives pairs (key, n)

variable {pairs others : List Pair} {key : String}

/-- The values under a key come in the order of the pairs. -/
theorem valuesUnder_append (first second : List Pair) (key : String) :
    valuesUnder (first ++ second) key = valuesUnder first key ++ valuesUnder second key := by
  rw [valuesUnder, List.filter_append, List.map_append]
  rfl

/-- The two cases, for a key that is no variable. -/
theorem gives_iff {counter : Counter} : Gives pairs counter ↔
    valuesUnder pairs counter.1 = [] ∧ counter.2 = 0 ∨
      ∃ value, valuesUnder pairs counter.1 = [value] ∧ Decimal.parse value = .ok counter.2 := by
  obtain ⟨key, n⟩ := counter
  constructor
  · rintro (h | ⟨h, hvalue⟩)
    · exact .inl ⟨h, rfl⟩
    · exact .inr ⟨_, h, hvalue⟩
  · rintro (⟨h, rfl⟩ | ⟨value, h, hvalue⟩)
    · exact .zero h
    · exact .value h hvalue

/-- A key is given one number at most. -/
theorem Gives.unique {n m : UInt64} (hn : Gives pairs (key, n))
    (hm : Gives pairs (key, m)) : n = m := by
  rcases gives_iff.1 hn with ⟨hnone, rfl⟩ | ⟨value, hone, hvalue⟩
  · rcases gives_iff.1 hm with ⟨-, rfl⟩ | ⟨other, hother, -⟩
    · rfl
    · simp [hnone] at hother
  · rcases gives_iff.1 hm with ⟨hnone, -⟩ | ⟨other, hother, hparse⟩
    · simp [hone] at hnone
    · obtain rfl := List.singleton_inj.1 (hone.symm.trans hother)
      exact Except.ok.inj (hvalue.symm.trans hparse)

/-- The order of the values under a key does not matter. -/
theorem Gives.of_perm {counter : Counter} (h : Gives pairs counter)
    (hperm : (valuesUnder pairs counter.1).Perm (valuesUnder others counter.1)) :
    Gives others counter := by
  rw [gives_iff] at h ⊢
  rcases h with ⟨hnone, hzero⟩ | ⟨value, hone, hvalue⟩
  · rw [hnone, List.nil_perm] at hperm
    exact .inl ⟨hperm, hzero⟩
  · rw [hone, List.singleton_perm] at hperm
    exact .inr ⟨value, hperm.symm, hvalue⟩

/-- A key is given no number iff a value under it is none, or there are two. -/
theorem not_exists_gives_iff : (¬∃ n, Gives pairs (key, n)) ↔
    (∃ value ∈ valuesUnder pairs key, ∀ n, Decimal.parse value ≠ .ok n) ∨
      2 ≤ (valuesUnder pairs key).length := by
  simp only [gives_iff]
  rcases hvalues : valuesUnder pairs key with - | ⟨value, - | ⟨second, rest⟩⟩
  · simp
  · simp
  · simp

/-! ## All keys -/

/-- The counter that a pair is, if its value is a number. -/
def Pair.counter? (pair : Pair) : Option Counter :=
  (Decimal.parse pair.2).toOption.map fun n => (String.ofList pair.1, n)

variable {σ : Type} {table : Table σ} {counters : List Counter}

/-- A pair is a counter if its value is a number. -/
theorem Pair.counter?_eq_some_iff {pair : Pair} {counter : Counter} :
    Pair.counter? pair = some counter ↔
      String.ofList pair.1 = counter.1 ∧ Decimal.parse pair.2 = .ok counter.2 := by
  obtain ⟨key, n⟩ := counter
  rw [Pair.counter?, Option.map_eq_some_iff]
  cases Decimal.parse pair.2 <;> simp [Except.toOption, and_comm]

/-- The values under a known key are the numbers of its counters. -/
theorem map_parse_valuesUnder
    (hcounters : (table.known pairs).map Pair.counter? = counters.map some)
    (hkey : key ∈ table.keys) : (valuesUnder pairs key).map Decimal.parse =
      (counters.filter fun counter => counter.1 = key).map fun counter => .ok counter.2 := by
  induction pairs generalizing counters with
  | nil =>
    obtain rfl := List.map_eq_nil_iff.1 hcounters.symm
    rfl
  | cons pair pairs ih =>
    rw [Table.known, List.filter_cons] at hcounters
    by_cases hknown : (table.lookup (String.ofList pair.1)).isSome
    · rw [if_pos hknown, List.map_cons] at hcounters
      obtain ⟨counter, counters, rfl, hcounter, hrest⟩ := List.map_eq_cons_iff.1 hcounters.symm
      obtain ⟨hname, hvalue⟩ := Pair.counter?_eq_some_iff.1 hcounter.symm
      have hlater := ih hrest.symm
      by_cases h : counter.1 = key
      · simpa [valuesUnder, hname, h, hvalue] using hlater
      · simpa [valuesUnder, hname, h] using hlater
    · -- a pair with an unknown key has no value under a known one
      rw [if_neg hknown] at hcounters
      have hne : String.ofList pair.1 ≠ key := by
        rintro rfl
        exact hknown (Table.isSome_lookup_iff.2 hkey)
      simpa [valuesUnder, hne] using ih hcounters

/-- The counters among pairs have known keys. -/
theorem mem_keys_of_counters (hcounters : (table.known pairs).map Pair.counter? = counters.map some)
    {counter : Counter} (hmem : counter ∈ counters) : counter.1 ∈ table.keys := by
  have hsome : some counter ∈ (table.known pairs).map Pair.counter? := by
    rw [hcounters]
    exact List.mem_map_of_mem hmem
  obtain ⟨pair, hpair, hcounter⟩ := List.mem_map.1 hsome
  rw [← (Pair.counter?_eq_some_iff.1 hcounter).1]
  exact Table.isSome_lookup_iff.1 (List.mem_filter.1 hpair).2

/-- A counter with a key of its own is the only one under it. -/
theorem filter_eq_singleton_of_nodup (hnodup : (counters.map Prod.fst).Nodup) {counter : Counter}
    (hmem : counter ∈ counters) :
    (counters.filter fun other => other.1 = counter.1) = [counter] := by
  obtain ⟨before, after, rfl⟩ := List.append_of_mem hmem
  rw [List.map_append, List.map_cons, List.nodup_append, List.nodup_cons] at hnodup
  obtain ⟨-, ⟨hafter, -⟩, hbefore⟩ := hnodup
  have hnone : ∀ other ∈ before, decide (other.1 = counter.1) = false := fun other hother =>
    decide_eq_false (hbefore _ (List.mem_map_of_mem hother) _ List.mem_cons_self)
  have hlater : ∀ other ∈ after, decide (other.1 = counter.1) = false := fun other hother =>
    decide_eq_false fun heq => hafter (heq ▸ List.mem_map_of_mem hother)
  rw [List.filter_append, List.filter_cons_of_pos (by simp),
    List.filter_eq_nil_iff.2 (by simpa using hnone),
    List.filter_eq_nil_iff.2 (by simpa using hlater), List.nil_append]

/-- Pairs give a known key its counter, or 0 if it has none. -/
theorem gives_of_counters (hcounters : (table.known pairs).map Pair.counter? = counters.map some)
    (hnodup : (counters.map Prod.fst).Nodup) {counter : Counter} (hkey : counter.1 ∈ table.keys)
    (h : counter ∈ counters ∨ counter.1 ∉ counters.map Prod.fst ∧ counter.2 = 0) :
    Gives pairs counter := by
  have hvalues := map_parse_valuesUnder hcounters hkey
  rw [gives_iff]
  rcases h with hmem | ⟨hnone, hzero⟩
  · rw [filter_eq_singleton_of_nodup hnodup hmem, List.map_singleton] at hvalues
    obtain ⟨value, hone, hvalue⟩ := List.map_eq_singleton_iff.1 hvalues
    exact .inr ⟨value, hone, hvalue⟩
  · have hempty : (counters.filter fun other => other.1 = counter.1) = [] := by
      refine List.filter_eq_nil_iff.2 fun other hother heq => hnone ?_
      exact of_decide_eq_true heq ▸ List.mem_map_of_mem hother
    rw [hempty, List.map_nil, List.map_eq_nil_iff] at hvalues
    exact .inl ⟨hvalues, hzero⟩

/-- A key comes as often among the counters as there are values under it. -/
theorem count_keys (hcounters : (table.known pairs).map Pair.counter? = counters.map some)
    (hkey : key ∈ table.keys) :
    (counters.map Prod.fst).count key = (valuesUnder pairs key).length := by
  rw [List.count_eq_countP, List.countP_map, List.countP_eq_length_filter,
    ← List.length_map Decimal.parse, map_parse_valuesUnder hcounters hkey, List.length_map]
  rfl

/-- A pair with a key that is given a number is a counter. -/
theorem exists_counter_of_gives {pair : Pair} (hpair : pair ∈ pairs) {n : UInt64}
    (h : Gives pairs (String.ofList pair.1, n)) : ∃ counter, Pair.counter? pair = some counter := by
  have hvalue : pair.2 ∈ valuesUnder pairs (String.ofList pair.1) :=
    List.mem_map_of_mem (List.mem_filter.2 ⟨hpair, decide_eq_true rfl⟩)
  rcases gives_iff.1 h with ⟨hnone, -⟩ | ⟨value, hone, hparse⟩
  · simp [hnone] at hvalue
  · rw [hone, List.mem_singleton] at hvalue
    exact ⟨(String.ofList pair.1, n), Pair.counter?_eq_some_iff.2 ⟨rfl, hvalue ▸ hparse⟩⟩

/-- **Pairs can be read iff they give every known key a number**: their known ones are counters,
with a key each. -/
theorem exists_counters_iff (table : Table σ) (pairs : List Pair) :
    (∃ counters : List Counter, (table.known pairs).map Pair.counter? = counters.map some ∧
        (counters.map Prod.fst).Nodup) ↔
      ∀ key ∈ table.keys, ∃ n, Gives pairs (key, n) := by
  constructor
  · rintro ⟨counters, hcounters, hnodup⟩ key hkey
    by_cases hmem : key ∈ counters.map Prod.fst
    · obtain ⟨counter, hcounter, rfl⟩ := List.mem_map.1 hmem
      exact ⟨counter.2, gives_of_counters hcounters hnodup hkey (.inl hcounter)⟩
    · exact ⟨0, gives_of_counters hcounters hnodup hkey (.inr ⟨hmem, rfl⟩)⟩
  · intro h
    obtain ⟨counters, hcounters⟩ :
        (table.known pairs).map Pair.counter? ∈ Set.range (List.map some) := by
      rw [Set.range_list_map, Set.mem_ofPred, List.forall_mem_map]
      intro pair hpair
      obtain ⟨hmem, hknown⟩ := List.mem_filter.1 hpair
      obtain ⟨n, hn⟩ := h _ (Table.isSome_lookup_iff.1 hknown)
      obtain ⟨counter, hcounter⟩ := exists_counter_of_gives hmem hn
      exact ⟨counter, hcounter.symm⟩
    refine ⟨counters, hcounters.symm, List.nodup_iff_count_le_one.2 fun key => ?_⟩
    by_cases hkey : key ∈ table.keys
    · -- each known key has one value at most
      obtain ⟨n, hn⟩ := h key hkey
      rw [count_keys hcounters.symm hkey]
      rcases gives_iff.1 hn with ⟨hnone, -⟩ | ⟨value, hone, -⟩
      · simp [hnone]
      · simp [hone]
    · -- counters have known keys
      rw [List.count_eq_zero_of_not_mem]
      · exact Nat.zero_le 1
      · intro hmem
        obtain ⟨counter, hcounter, rfl⟩ := List.mem_map.1 hmem
        exact hkey (mem_keys_of_counters hcounters.symm hcounter)

/-! ## Reading items -/

/-- Items that are all counters are those counters. -/
theorem Item.counters_eq_of_map {items : List Item}
    (h : items.map Item.counter? = counters.map some) :
    Item.counters items = counters := by
  have hsome := congrArg (List.filterMap id) h
  rwa [List.filterMap_map, List.filterMap_map, Function.id_comp, Function.id_comp,
    List.filterMap_some] at hsome

namespace Layout

variable {l : Layout} {start v : σ} {items : List Item}

/-- Where keys come once, an item is accepted iff it is a counter with a key that is new. -/
theorem refusal?_eq_none_iff (hl : l.allowDuplicates = false) {item : Item} :
    l.refusal? items item = none ↔ ∃ counter, item.counter? = some counter ∧
      counter.1 ∉ (Item.counters items).map Prod.fst := by
  cases item with
  | unreadable => simp [refusal?, Item.counter?]
  | pair line key value =>
    rw [refusal?, Item.counter?]
    cases Decimal.parse value <;> simp [hl, Except.toOption]

/-- Where keys come once, items are accepted iff they are counters, with a key each. -/
theorem accepts_iff (hl : l.allowDuplicates = false) : l.Accepts items ↔
    ∃ counters : List Counter, items.map Item.counter? = counters.map some ∧
      (counters.map Prod.fst).Nodup := by
  induction items using List.reverseRecOn with
  | nil => exact iff_of_true accepts_nil ⟨[], rfl, List.nodup_nil⟩
  | append_singleton items item ih =>
    rw [accepts_concat_iff, ih, refusal?_eq_none_iff hl]
    constructor
    · rintro ⟨⟨counters, hcounters, hnodup⟩, counter, hcounter, hnew⟩
      rw [Item.counters_eq_of_map hcounters] at hnew
      refine ⟨counters ++ [counter], by simp [hcounters, hcounter], ?_⟩
      rw [List.map_append, List.nodup_append_comm]
      exact List.nodup_cons.2 ⟨hnew, hnodup⟩
    · rintro ⟨counters, hcounters, hnodup⟩
      rw [List.map_append, List.append_eq_map_iff] at hcounters
      obtain ⟨before, last, rfl, hbefore, hlast⟩ := hcounters
      obtain ⟨counter, rfl, hcounter⟩ := List.map_eq_singleton_iff.1 hlast
      rw [List.map_append, List.nodup_append_comm] at hnodup
      obtain ⟨hnew, hrest⟩ := List.nodup_cons.1 hnodup
      refine ⟨⟨before, hbefore.symm, hrest⟩, counter, hcounter.symm, ?_⟩
      rwa [Item.counters_eq_of_map hbefore.symm]

/-- Where keys come once, items are read iff they are counters, with a key each, and these fill the
table. -/
theorem foldlM_eq_ok_iff (hl : l.allowDuplicates = false)
    (hknown : ∀ item ∈ items, item.Known table) :
    (items.foldlM (l.step table) ⟨start, []⟩).map State.value = .ok v ↔
      ∃ counters : List Counter, items.map Item.counter? = counters.map some ∧
        (counters.map Prod.fst).Nodup ∧ v = table.fill start counters := by
  have haccepts : l.Accepts items ↔ _ := accepts_iff hl
  rcases l.accepts_or_exists_refused items with
    h | ⟨earlier, item, later, cause, rfl, hearlier, hitem⟩
  · have hrun : items.foldlM (l.step table) ⟨start, []⟩ = .ok (stateAfter table start items) :=
      foldlM_of_accepts hknown h
    obtain ⟨counters, hcounters, hnodup⟩ := haccepts.1 h
    rw [hrun]
    constructor
    · intro hv
      obtain rfl := Except.ok.inj hv
      exact ⟨counters, hcounters, hnodup, by rw [stateAfter, Item.counters_eq_of_map hcounters]⟩
    · rintro ⟨others, hothers, -, rfl⟩
      rw [← Item.counters_eq_of_map hothers]
      rfl
  · have hrun : (earlier ++ item :: later).foldlM (l.step table) ⟨start, []⟩ = .error cause :=
      foldlM_of_refused hknown hearlier hitem
    rw [hrun]
    refine iff_of_false (fun hv => by cases hv) ?_
    rintro ⟨counters, hcounters, hnodup, -⟩
    have hnone := haccepts.2 ⟨counters, hcounters, hnodup⟩ earlier item later rfl
    simp [hnone] at hitem

/-- **Pairs are refused iff they give some known key no number**, where keys come once. -/
theorem foldlM_eq_error_iff (hl : l.allowDuplicates = false)
    (hknown : ∀ item ∈ items, item.Known table)
    (hpairs : items.map Item.counter? = (table.known pairs).map Pair.counter?) :
    (∃ cause, (items.foldlM (l.step table) ⟨start, []⟩).map State.value = .error cause) ↔
      ∃ key ∈ table.keys, ¬∃ n, Gives pairs (key, n) := by
  have hcounters := exists_counters_iff table pairs
  rw [← hpairs] at hcounters
  have hok : (∃ v, (items.foldlM (l.step table) ⟨start, []⟩).map State.value = .ok v) ↔
      ∀ key ∈ table.keys, ∃ n, Gives pairs (key, n) := by
    rw [← hcounters]
    simp only [foldlM_eq_ok_iff hl hknown]
    constructor
    · rintro ⟨v, counters, h, hnodup, -⟩
      exact ⟨counters, h, hnodup⟩
    · rintro ⟨counters, h, hnodup⟩
      exact ⟨_, counters, h, hnodup, rfl⟩
  have hnot := not_congr hok
  push Not at hnot ⊢
  rw [← hnot]
  cases (items.foldlM (l.step table) ⟨start, []⟩).map State.value <;> simp

end Layout

/-! ## Fields -/

/-- What is read through a table has a field for each of its keys, in their order. A number under a
key changes its own field; the fields and what is `apart` from them are all there is. -/
structure Shown {ρ : Type} (table : Table σ) (fields : σ → List Counter)
    (apart : σ → ρ) : Prop where
  keys : ∀ v, (fields v).map Prod.fst = table.keys
  fields_change : ∀ entry ∈ table, ∀ v n, fields (entry.2 v n) =
    (fields v).map fun field => if field.1 = entry.1 then (entry.1, n) else field
  apart_change : ∀ entry ∈ table, ∀ v n, apart (entry.2 v n) = apart v
  ext : ∀ v w, apart v = apart w → fields v = fields w → v = w

namespace Shown

variable {ρ : Type} {fields : σ → List Counter} {apart : σ → ρ} (h : Shown table fields apart)
include h

/-- Filling in counters changes nothing that is apart from the table. -/
theorem apart_fill (v : σ) (counters : List Counter) : apart (table.fill v counters) = apart v := by
  induction counters generalizing v with
  | nil => rfl
  | cons counter counters ih =>
    rw [Table.fill, List.foldl_cons, ← Table.fill, ih, Table.put]
    cases hchange : table.lookup counter.1 with
    | none => rfl
    | some change => exact h.apart_change _ (mem_of_lookup hchange) v counter.2

/-- The fields after one more counter. -/
theorem mem_fields_put {counter : Counter} (hkey : counter.1 ∈ table.keys) {v : σ}
    {field : Counter} :
    field ∈ fields (table.put v counter) ↔
      field = counter ∨ field.1 ≠ counter.1 ∧ field ∈ fields v := by
  obtain ⟨change, hchange⟩ := Option.isSome_iff_exists.1 (Table.isSome_lookup_iff.2 hkey)
  have hfields := h.fields_change _ (mem_of_lookup hchange) v counter.2
  rw [Table.put, hchange]
  dsimp only at hfields ⊢
  rw [hfields, List.mem_map]
  constructor
  · rintro ⟨old, hold, rfl⟩
    by_cases heq : old.1 = counter.1
    · exact .inl (if_pos heq)
    · rw [if_neg heq]
      exact .inr ⟨heq, hold⟩
  · rintro (rfl | ⟨hne, hold⟩)
    · rw [← h.keys v] at hkey
      obtain ⟨old, hold, heq⟩ := List.mem_map.1 hkey
      exact ⟨old, hold, if_pos heq⟩
    · exact ⟨field, hold, if_neg hne⟩

/-- The fields after some counters with a key each: the counters, and what there was under other
keys. -/
theorem mem_fields_fill (hkeys : ∀ counter ∈ counters, counter.1 ∈ table.keys)
    (hnodup : (counters.map Prod.fst).Nodup) {v : σ} {field : Counter} :
    field ∈ fields (table.fill v counters) ↔
      field ∈ counters ∨ field.1 ∉ counters.map Prod.fst ∧ field ∈ fields v := by
  induction counters generalizing v with
  | nil => simp [Table.fill]
  | cons counter counters ih =>
    rw [List.forall_mem_cons] at hkeys
    rw [List.map_cons, List.nodup_cons] at hnodup
    rw [Table.fill, List.foldl_cons, ← Table.fill, ih hkeys.2 hnodup.2, h.mem_fields_put hkeys.1]
    constructor
    · rintro (hlater | ⟨hnew, rfl | ⟨hne, hold⟩⟩)
      · exact .inl (List.mem_cons_of_mem _ hlater)
      · exact .inl List.mem_cons_self
      · exact .inr ⟨by simp [hne, hnew], hold⟩
    · rintro (hmem | ⟨hnew, hold⟩)
      · rcases List.mem_cons.1 hmem with rfl | hlater
        · exact .inr ⟨hnodup.1, .inl rfl⟩
        · exact .inl hlater
      · rw [List.map_cons, List.mem_cons, not_or] at hnew
        exact .inr ⟨hnew.2, .inr ⟨hnew.1, hold⟩⟩

/-- Two results to whose keys pairs give the same numbers are one. -/
theorem eq_of_gives {v w : σ} (hapart : apart v = apart w)
    (hv : ∀ field ∈ fields v, Gives pairs field)
    (hw : ∀ field ∈ fields w, Gives pairs field) : v = w := by
  have hkeys : (fields v).map Prod.fst = (fields w).map Prod.fst := by
    rw [h.keys, h.keys]
  refine h.ext v w hapart ?_
  generalize fields v = first at hkeys hv
  generalize fields w = second at hkeys hw
  induction first generalizing second with
  | nil => exact (List.map_eq_nil_iff.1 hkeys.symm).symm
  | cons field first ih =>
    obtain ⟨other, rest, rfl, hother, hrest⟩ := List.map_eq_cons_iff.1 hkeys.symm
    rw [List.forall_mem_cons] at hv hw
    obtain ⟨key, n⟩ := field
    obtain ⟨key, m⟩ := other
    obtain rfl := hother
    rw [hv.1.unique hw.1, ih hv.2 rest hrest.symm hw.2]

/-- **Pairs are read as some fields iff they give each key the number in its field**, where keys
come once and all fields start with 0. -/
theorem foldlM_eq_ok_iff {l : Layout} (hl : l.allowDuplicates = false) {start v : σ}
    (hstart : ∀ field ∈ fields start, field.2 = 0) {items : List Item}
    (hknown : ∀ item ∈ items, item.Known table)
    (hpairs : items.map Item.counter? = (table.known pairs).map Pair.counter?) :
    (items.foldlM (l.step table) ⟨start, []⟩).map Layout.State.value = .ok v ↔
      apart v = apart start ∧ ∀ field ∈ fields v, Gives pairs field := by
  have hfill : ∀ counters : List Counter,
      (table.known pairs).map Pair.counter? = counters.map some →
      (counters.map Prod.fst).Nodup → ∀ field ∈ fields (table.fill start counters),
        Gives pairs field := by
    intro counters hcounters hnodup field hfield
    have hkey : field.1 ∈ table.keys := by
      rw [← h.keys (table.fill start counters)]
      exact List.mem_map_of_mem hfield
    rw [h.mem_fields_fill (fun counter => mem_keys_of_counters hcounters) hnodup] at hfield
    refine gives_of_counters hcounters hnodup hkey (hfield.imp_right fun hold => ?_)
    exact ⟨hold.1, hstart field hold.2⟩
  rw [Layout.foldlM_eq_ok_iff hl hknown, hpairs]
  constructor
  · rintro ⟨counters, hcounters, hnodup, rfl⟩
    exact ⟨h.apart_fill start counters, hfill counters hcounters hnodup⟩
  · rintro ⟨hapart, hgives⟩
    obtain ⟨counters, hcounters, hnodup⟩ := (exists_counters_iff table pairs).2 fun key hkey => by
      rw [← h.keys v] at hkey
      obtain ⟨field, hfield, rfl⟩ := List.mem_map.1 hkey
      exact ⟨field.2, hgives field hfield⟩
    refine ⟨counters, hcounters, hnodup, ?_⟩
    exact h.eq_of_gives (hapart.trans (h.apart_fill start counters).symm) hgives
      (hfill counters hcounters hnodup)

/-- The same for the pairs of one line. -/
theorem applyAll_eq_ok_iff {l : Layout} (hl : l.allowDuplicates = false) {start v : σ}
    (hstart : ∀ field ∈ fields start, field.2 = 0) (line : Nat) (pairs : List Pair) :
    (l.applyAll table line ⟨start, []⟩ pairs).map Layout.State.value = .ok v ↔
      apart v = apart start ∧ ∀ field ∈ fields v, Gives pairs field := by
  have hknown : ∀ item ∈ (table.known pairs).map fun pair =>
      Item.pair line (String.ofList pair.1) pair.2, item.Known table := by
    rw [List.forall_mem_map]
    exact fun pair hpair => Table.isSome_lookup_iff.1 (List.mem_filter.1 hpair).2
  have hcounters : ((table.known pairs).map fun pair =>
      Item.pair line (String.ofList pair.1) pair.2).map Item.counter? =
        (table.known pairs).map Pair.counter? := by
    rw [List.map_map]
    rfl
  rw [← h.foldlM_eq_ok_iff hl hstart hknown hcounters, ← Layout.applyAll_eq_foldlM]
  cases l.applyAll table line ⟨start, []⟩ pairs with
  | error reason => exact iff_of_false (fun h => by cases h) fun h => by cases h
  | ok state => exact ⟨fun h => congrArg _ (Except.ok.inj h), fun h => congrArg _ (Except.ok.inj h)⟩

end Shown

end ContainerUsage.Stat
