import Mathlib
import ContainerUsage.Proofs.Stat.Lines
import ContainerUsage.Proofs.Stat.Pairs

/-!
# Counters under their keys

A file of keys and values holds some counters, one under each of its known keys, and much else that
is passed over. What it is read as depends only on the counters, and not on their order.

* `Layout.applyAll_of_known` reads pairs of which the known ones are counters with keys of their
  own, on one line, and `Layout.foldLines_of_known` in a whole file. The result is the table filled
  with the counters (`Table.fill`).
* `Table.Independent.fill_perm`: where different keys change different things, the order of the
  counters does not matter. The four tables are of this kind.
* `Interleaved` says that counters are written among other texts, and `Interleaved.known_flatMap`
  that the known pairs of these texts are the counters.
-/

namespace ContainerUsage.Stat

open Payload Text

/-- A key and the number under it. -/
abbrev Counter := String × UInt64

/-- A counter as it is written. -/
def Counter.pair (counter : Counter) : Pair :=
  (counter.1.toList, Decimal.digits counter.2.toNat)

variable {σ : Type} {table : Table σ} {counters : List Counter}

/-! ## Filling a table -/

/-- What has been read after one more counter. -/
def Table.put (table : Table σ) (value : σ) (counter : Counter) : σ :=
  match table.lookup counter.1 with
  | none => value
  | some change => change value counter.2

/-- What is read from counters, one after the other. -/
def Table.fill (table : Table σ) (value : σ) (counters : List Counter) : σ :=
  counters.foldl table.put value

/-- It does not matter which of two entries of a table comes first. -/
def Swaps (a b : String × (σ → UInt64 → σ)) : Prop :=
  ∀ value v w, b.2 (a.2 value v) w = a.2 (b.2 value w) v

instance : Std.Symm (@Swaps σ) := ⟨fun _ _ h value v w => (h value w v).symm⟩

/-- Different keys change different things. -/
def Table.Independent (table : Table σ) : Prop := table.Pairwise Swaps

/-- The keys of a table. -/
def Table.keys (table : Table σ) : List String := table.map Prod.fst

/-- There is something under each key of a table, and nothing under any other. -/
theorem Table.isSome_lookup_iff {key : String} :
    (table.lookup key).isSome = true ↔ key ∈ table.keys := by
  rw [List.lookup_isSome_iff, keys, List.mem_map]
  constructor
  · rintro ⟨entry, hmem, hkey⟩
    exact ⟨entry, hmem, (beq_iff_eq.1 hkey).symm⟩
  · rintro ⟨entry, hmem, rfl⟩
    exact ⟨entry, hmem, beq_self_eq_true _⟩

/-- What is found under a key is an entry of the table. -/
theorem mem_of_lookup {key : String} {change : σ → UInt64 → σ}
    (h : table.lookup key = some change) :
    (key, change) ∈ table := by
  obtain ⟨before, after, rfl, -⟩ := List.lookup_eq_some_iff.1 h
  simp

/-- Counters under different keys can be put in either order. -/
theorem Table.Independent.put_put (h : table.Independent) {a b : Counter} (hne : a.1 ≠ b.1)
    (value : σ) : table.put (table.put value a) b = table.put (table.put value b) a := by
  unfold put
  cases ha : table.lookup a.1 with
  | none => rfl
  | some first =>
    cases hb : table.lookup b.1 with
    | none => rfl
    | some second =>
      have hentries : (a.1, first) ≠ (b.1, second) := fun heq => hne (Prod.mk.inj heq).1
      exact List.Pairwise.forall h (mem_of_lookup ha) (mem_of_lookup hb) hentries value a.2 b.2

/-- **The order of counters under different keys does not matter.** -/
theorem Table.Independent.fill_perm (h : table.Independent) {others : List Counter}
    (hperm : counters.Perm others) (hkeys : (counters.map Prod.fst).Nodup) (value : σ) :
    table.fill value counters = table.fill value others := by
  apply hperm.foldl_eq'
  intro a ha b hb value
  by_cases heq : a.1 = b.1
  · rw [List.inj_on_of_nodup_map hkeys ha hb heq]
  · exact h.put_put heq value

/-! ## Reading pairs -/

/-- The pairs with a known key. -/
def Table.known (table : Table σ) (pairs : List Pair) : List Pair :=
  pairs.filter fun pair => (table.lookup (String.ofList pair.1)).isSome

/-- Whether a pair is known depends on its key. -/
theorem Table.known_singleton (table : Table σ) (key : String) (value : List Char) :
    table.known [(key.toList, value)] = if key ∈ table.keys then [(key.toList, value)] else [] := by
  rw [known, List.filter_singleton, String.ofList_toList]
  by_cases h : key ∈ table.keys
  · rw [if_pos h, isSome_lookup_iff.2 h, cond_true]
  · rw [if_neg h, Bool.eq_false_of_not_eq_true (mt isSome_lookup_iff.1 h), cond_false]

namespace Layout

variable {l : Layout} {line : Nat} {state : State σ}

/-- A counter is read if there was none under its key. -/
theorem apply_counter {counter : Counter} {change : σ → UInt64 → σ}
    (hknown : table.lookup counter.1 = some change) (hnew : counter.1 ∉ state.seen) :
    l.apply table line state counter.pair =
      .ok ⟨change state.value counter.2, counter.1 :: state.seen⟩ := by
  have hseen : state.seen.contains counter.1 = false := by simpa using hnew
  rw [apply, Counter.pair, String.ofList_toList, hknown]
  dsimp only
  rw [Decimal.parse_digits]
  dsimp only
  rw [hseen, Bool.and_false, if_neg Bool.false_ne_true]

/-- **Pairs are read as the counters among them**, if these have keys of their own that were not
read before. -/
theorem applyAll_of_known {pairs : List Pair}
    (hpairs : table.known pairs = counters.map Counter.pair)
    (hkeys : (counters.map Prod.fst).Nodup)
    (hnew : ∀ counter ∈ counters, counter.1 ∉ state.seen) :
    l.applyAll table line state pairs =
      .ok ⟨table.fill state.value counters, (counters.map Prod.fst).reverse ++ state.seen⟩ := by
  induction pairs generalizing counters state with
  | nil =>
    obtain rfl := List.map_eq_nil_iff.1 hpairs.symm
    rfl
  | cons pair pairs ih =>
    cases hknown : table.lookup (String.ofList pair.1) with
    | none =>
      -- the key is unknown
      have hrest : table.known pairs = counters.map Counter.pair := by
        rw [← hpairs, Table.known, Table.known, List.filter_cons, hknown]
        rfl
      rw [applyAll, apply, hknown]
      exact ih hrest hkeys hnew
    | some change =>
      -- the pair is the first of the counters
      rw [Table.known, List.filter_cons, hknown, Option.isSome_some, if_pos rfl] at hpairs
      cases counters with
      | nil => simp at hpairs
      | cons counter counters =>
        rw [List.map_cons, List.cons.injEq] at hpairs
        obtain ⟨rfl, hrest⟩ := hpairs
        rw [List.map_cons, List.nodup_cons] at hkeys
        rw [List.forall_mem_cons] at hnew
        have hlookup : table.lookup counter.1 = some change := by
          rw [← hknown, Counter.pair, String.ofList_toList]
        have hlater : ∀ other ∈ counters, other.1 ∉ counter.1 :: state.seen := by
          intro other hmem
          rw [List.mem_cons, not_or]
          refine ⟨fun heq => hkeys.1 ?_, hnew.2 other hmem⟩
          exact heq ▸ List.mem_map_of_mem hmem
        rw [applyAll, apply_counter hlookup hnew.1]
        dsimp only
        rw [ih hrest hkeys.2 hlater, List.map_cons, List.reverse_cons, List.append_assoc,
          List.singleton_append, Table.fill, Table.fill, List.foldl_cons]
        simp only [Table.put, hlookup]

/-- **A file is read as the counters on its lines**, under the same conditions. -/
theorem foldLines_of_known {texts : List String} {number : Nat}
    (hlines : ∀ text ∈ texts, IsLine text)
    (hpairs : table.known (texts.flatMap fun text => l.pairs (text.toList ++ ['\n'])) =
      counters.map Counter.pair)
    (hkeys : (counters.map Prod.fst).Nodup)
    (hnew : ∀ counter ∈ counters, counter.1 ∉ state.seen) :
    foldLines (l.readLine table) state number (lines (written texts)) =
      (.ok ⟨table.fill state.value counters, (counters.map Prod.fst).reverse ++ state.seen⟩,
        []) := by
  induction texts generalizing counters state number with
  | nil =>
    obtain rfl := List.map_eq_nil_iff.1 hpairs.symm
    rfl
  | cons text texts ih =>
    -- the counters on the first line, and those on the others
    rw [List.flatMap_cons, Table.known, List.filter_append] at hpairs
    obtain ⟨here, later, rfl, hhere, hlater⟩ := List.map_eq_append_iff.1 hpairs.symm
    rw [List.map_append, List.nodup_append] at hkeys
    have hfirst : l.readLine table state number (text.toList ++ ['\n']) =
        .ok ⟨table.fill state.value here, (here.map Prod.fst).reverse ++ state.seen⟩ := by
      rw [readLine_eq_applyAll]
      exact applyAll_of_known hhere.symm hkeys.1 fun counter hmem => hnew counter (by simp [hmem])
    have hunseen : ∀ counter ∈ later,
        counter.1 ∉ (here.map Prod.fst).reverse ++ state.seen := by
      intro counter hmem
      rw [List.mem_append, List.mem_reverse, not_or]
      refine ⟨fun hkey => ?_, hnew counter (by simp [hmem])⟩
      exact hkeys.2.2 _ hkey _ (List.mem_map_of_mem hmem) rfl
    rw [foldLines_written_cons _ _ _ hlines, hfirst]
    dsimp only
    rw [ih (List.forall_mem_cons.1 hlines).2 hlater.symm hkeys.2.1 hunseen]
    simp only [Table.fill, List.foldl_append, List.map_append, List.reverse_append,
      List.append_assoc]

end Layout

/-! ## Counters among other texts -/

/-- Counters that are written in their order, each as a text of its own, with other texts between
them. -/
inductive Interleaved (write : Counter → String) (other : String → Prop) :
    List Counter → List String → Prop
  | nil : Interleaved write other [] []
  | counter (counter : Counter) {counters : List Counter} {texts : List String}
      (h : Interleaved write other counters texts) :
      Interleaved write other (counter :: counters) (write counter :: texts)
  | other {text : String} {counters : List Counter} {texts : List String} (htext : other text)
      (h : Interleaved write other counters texts) :
      Interleaved write other counters (text :: texts)

namespace Interleaved

variable {write : Counter → String} {other : String → Prop} {texts : List String}

/-- What holds of the counters and of the other texts holds of all texts. -/
theorem forall_mem (h : Interleaved write other counters texts) (p : String → Prop)
    (hwrite : ∀ counter ∈ counters, p (write counter)) (hother : ∀ text, other text → p text) :
    ∀ text ∈ texts, p text := by
  induction h with
  | nil => exact List.forall_mem_nil _
  | counter counter _ ih =>
    rw [List.forall_mem_cons] at hwrite
    exact List.forall_mem_cons.2 ⟨hwrite.1, ih hwrite.2⟩
  | other htext _ ih => exact List.forall_mem_cons.2 ⟨hother _ htext, ih hwrite⟩

/-- The known pairs in the texts are the counters, if a counter is read as its pair and the other
texts have no known one. -/
theorem known_flatMap (h : Interleaved write other counters texts) {pairs : String → List Pair}
    (hwrite : ∀ counter ∈ counters, table.known (pairs (write counter)) = [counter.pair])
    (hother : ∀ text, other text → table.known (pairs text) = []) :
    table.known (texts.flatMap pairs) = counters.map Counter.pair := by
  have hcons : ∀ (text : String) (texts : List String), table.known
    ((text :: texts).flatMap pairs) =
      table.known (pairs text) ++ table.known (texts.flatMap pairs) := by
    intro text texts
    rw [List.flatMap_cons, Table.known, List.filter_append]
    rfl
  induction h with
  | nil => rfl
  | counter counter _ ih =>
    rw [List.forall_mem_cons] at hwrite
    rw [hcons, hwrite.1, ih hwrite.2]
    rfl
  | other htext _ ih => rw [hcons, hother _ htext, ih hwrite, List.nil_append]

end Interleaved

end ContainerUsage.Stat
