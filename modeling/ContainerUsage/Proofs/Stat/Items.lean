import Mathlib
import ContainerUsage.Proofs.Stat.Counters

/-!
# What a file of keys and values says

A file is a sequence of items: the pairs with a known key, line by line and in the order in which
they stand on their line, and the lines that are no text. `Layout.items` lists them for any layout
and any table, and `Layout.refusal?` says whether an item is refused after the ones before it, and
why. Nothing else matters to a reader: it takes the items in order, up to the first that is refused.

* `foldLines_eq_foldlM` is the loop over lines and words as one run over items.
* `step_after` is one step of this run: an item is either refused, or puts its number into the
  table.
* `read_outcome_iff` is the result: a file is read as the numbers of all items, if none of them is
  refused, and else gives the refusal of the first that is.
-/

namespace ContainerUsage.Stat

variable {σ : Type}

/-! ## Items -/

/-- What a reader comes to in a file. -/
inductive Item where
  /-- A line that is no text. -/
  | unreadable
  /-- A pair with a known key, and the number of its line. -/
  | pair (line : Nat) (key : String) (value : List Char)
  deriving DecidableEq

namespace Item

/-- The number under the key of an item, if it has one. -/
def counter? : Item → Option Counter
  | .unreadable => none
  | .pair _ key value => (Decimal.parse value).toOption.map fun n => (key, n)

/-- The numbers in a list of items, each with its key. -/
def counters (items : List Item) : List Counter := items.filterMap counter?

/-- The key of an item is in a table. -/
def Known (table : Table σ) : Item → Prop
  | .unreadable => True
  | .pair _ key _ => key ∈ table.keys

/-- The counters of items come in the order of the items. -/
theorem counters_append (first second : List Item) :
    counters (first ++ second) = counters first ++ counters second :=
  List.filterMap_append

end Item

namespace Layout

/-- The items on a line with a given number. -/
def itemsOn (l : Layout) (table : Table σ) (line : Bytes) (number : Nat) : List Item :=
  match Utf8.decode? line with
  | none => [.unreadable]
  | some text =>
    (table.known (l.pairs text.toList)).map fun pair => .pair number (String.ofList pair.1) pair.2

/-- The items of a file. Lines count from one. -/
def items (l : Layout) (table : Table σ) (content : Bytes) : List Item :=
  ((lines content).zipIdx 1).flatMap fun line => l.itemsOn table line.1 line.2

/-- Why an item is refused after earlier ones, if it is. Whether its value is a number is looked at
first. -/
def refusal? (l : Layout) (earlier : List Item) : Item → Option ReadError
  | .unreadable => some (.io .invalidText)
  | .pair line key value =>
    match Decimal.parse value with
    | .error cause => some (.malformed (.invalidKeyValue key (String.ofList value) line cause))
    | .ok _ =>
      if l.allowDuplicates = false ∧ key ∈ (Item.counters earlier).map Prod.fst then
        some (.malformed (.duplicateField key line))
      else none

/-- None of the items is refused after the ones before it. -/
def Accepts (l : Layout) (items : List Item) : Prop :=
  ∀ earlier item later, items = earlier ++ item :: later → l.refusal? earlier item = none

/-- What reading items has to give: the table with all their numbers, if none is refused, and the
refusal of the first one otherwise. -/
inductive Outcome (l : Layout) (table : Table σ) (start : σ) : List Item → Except ReadError σ → Prop
  | filled {items : List Item} (h : l.Accepts items) :
      Outcome l table start items (.ok (table.fill start (Item.counters items)))
  | refused {earlier later : List Item} {item : Item} {cause : ReadError} (h : l.Accepts earlier)
      (hitem : l.refusal? earlier item = some cause) :
      Outcome l table start (earlier ++ item :: later) (.error cause)

variable {l : Layout} {table : Table σ} {start : σ} {items : List Item}

/-! ## Refused items -/

/-- Nothing is refused where there is nothing. -/
theorem accepts_nil : l.Accepts [] := by
  intro earlier item later h
  exact absurd h.symm (List.append_ne_nil_of_right_ne_nil _ (List.cons_ne_nil _ _))

/-- One more item is accepted if none before it is refused and it is not either. -/
theorem accepts_concat_iff {item : Item} :
    l.Accepts (items ++ [item]) ↔ l.Accepts items ∧ l.refusal? items item = none := by
  constructor
  · intro h
    refine ⟨fun earlier other later heq => ?_, h items item [] rfl⟩
    apply h earlier other (later ++ [item])
    rw [heq, List.append_assoc, List.cons_append]
  · rintro ⟨hitems, hitem⟩ earlier other later heq
    -- the other item is the last one or one of those before it
    rcases List.eq_nil_or_concat later with rfl | ⟨before, last, rfl⟩
    · obtain ⟨rfl, hlast⟩ := List.append_inj' heq rfl
      obtain rfl := List.singleton_inj.1 hlast
      exact hitem
    · apply hitems earlier other before
      rw [List.concat_eq_append, ← List.cons_append, ← List.append_assoc] at heq
      exact (List.append_inj' heq rfl).1

/-- Either all items are accepted, or one of them is the first that is refused. -/
theorem accepts_or_exists_refused (l : Layout) (items : List Item) :
    l.Accepts items ∨ ∃ earlier item later cause, items = earlier ++ item :: later ∧
      l.Accepts earlier ∧ l.refusal? earlier item = some cause := by
  induction items using List.reverseRecOn with
  | nil => exact .inl accepts_nil
  | append_singleton items item ih =>
    rcases ih with haccepts | ⟨earlier, other, later, cause, rfl, hearlier, hother⟩
    · cases hitem : l.refusal? items item with
      | none => exact .inl (accepts_concat_iff.2 ⟨haccepts, hitem⟩)
      | some cause => exact .inr ⟨items, item, [], cause, rfl, haccepts, hitem⟩
    · refine .inr ⟨earlier, other, later ++ [item], cause, ?_, hearlier, hother⟩
      rw [List.append_assoc, List.cons_append]

/-! ## One item -/

/-- Reads one item. -/
def step (l : Layout) (table : Table σ) (state : State σ) : Item → Except ReadError (State σ)
  | .unreadable => .error (.io .invalidText)
  | .pair line key value => (l.apply table line state (key.toList, value)).mapError
    StatError.toReadError

/-- What has been read after some items that were accepted. -/
def stateAfter (table : Table σ) (start : σ) (items : List Item) : State σ :=
  ⟨table.fill start (Item.counters items), ((Item.counters items).map Prod.fst).reverse⟩

/-- What changes with a number under a known key. -/
theorem stateAfter_concat {line : Nat} {key : String} {value : List Char} {n : UInt64}
    {change : σ → UInt64 → σ} (hvalue : Decimal.parse value = .ok n)
    (hchange : table.lookup key = some change) :
    stateAfter table start (items ++ [.pair line key value]) =
      ⟨change (stateAfter table start items).value n,
        key :: (stateAfter table start items).seen⟩ := by
  have hcounters : Item.counters (items ++ [.pair line key value]) =
      Item.counters items ++ [(key, n)] := by
    rw [Item.counters_append]
    simp [Item.counters, Item.counter?, hvalue, Except.toOption]
  have hfill : table.fill start (Item.counters items ++ [(key, n)]) =
      change (table.fill start (Item.counters items)) n := by
    rw [Table.fill, List.foldl_append, List.foldl_cons, List.foldl_nil, Table.put, hchange]
    rfl
  rw [stateAfter, hcounters, hfill, List.map_append, List.reverse_append]
  rfl

/-- **An item is refused, or its number is put under its key.** -/
theorem step_after {item : Item} (hknown : item.Known table) :
    l.step table (stateAfter table start items) item =
      match l.refusal? items item with
      | some cause => .error cause
      | none => .ok (stateAfter table start (items ++ [item])) := by
  cases item with
  | unreadable => rfl
  | pair line key value =>
    obtain ⟨change, hchange⟩ := Option.isSome_iff_exists.1 (Table.isSome_lookup_iff.2 hknown)
    have hrefused : (!l.allowDuplicates && (stateAfter table start items).seen.contains key) =
        decide (l.allowDuplicates = false ∧ key ∈ (Item.counters items).map Prod.fst) := by
      rw [Bool.eq_iff_iff]
      simp [stateAfter]
    rw [step, apply, String.ofList_toList, hchange, refusal?]
    dsimp only
    cases hvalue : Decimal.parse value with
    | error cause => rfl
    | ok n =>
      dsimp only
      rw [hrefused, stateAfter_concat hvalue hchange]
      by_cases h : l.allowDuplicates = false ∧ key ∈ (Item.counters items).map Prod.fst
      · rw [decide_eq_true h, if_pos h]
        rfl
      · rw [decide_eq_false h, if_neg h]
        rfl

/-! ## All items -/

/-- The items of a file are of keys that the table knows. -/
theorem known_of_mem_items {content : Bytes} {item : Item} (h : item ∈ l.items table content) :
    item.Known table := by
  obtain ⟨line, -, hitem⟩ := List.mem_flatMap.1 h
  unfold itemsOn at hitem
  split at hitem
  · obtain rfl := List.mem_singleton.1 hitem
    trivial
  · obtain ⟨pair, hpair, rfl⟩ := List.mem_map.1 hitem
    exact Table.isSome_lookup_iff.1 (List.mem_filter.1 hpair).2

/-- Pairs are read as their items: the others have no effect. -/
theorem applyAll_eq_foldlM (line : Nat) (state : State σ) (pairs : List Pair) :
    (l.applyAll table line state pairs).mapError StatError.toReadError =
      ((table.known pairs).map fun pair => Item.pair line (String.ofList pair.1) pair.2).foldlM
        (l.step table) state := by
  induction pairs generalizing state with
  | nil => rfl
  | cons pair pairs ih =>
    rw [applyAll, Table.known, List.filter_cons]
    cases hknown : table.lookup (String.ofList pair.1) with
    | none =>
      have happly : l.apply table line state pair = .ok state := by
        rw [apply, hknown]
      rw [happly, Option.isSome_none, if_neg Bool.false_ne_true]
      exact ih state
    | some change =>
      have hstep : l.step table state (.pair line (String.ofList pair.1) pair.2) =
          (l.apply table line state pair).mapError StatError.toReadError := by
        rw [step, String.toList_ofList]
      rw [Option.isSome_some, if_pos rfl, List.map_cons, List.foldlM_cons, hstep]
      cases l.apply table line state pair with
      | error reason => rfl
      | ok next => exact ih next

/-- **Reading lines is reading their items**, one after the other. -/
theorem foldLines_eq_foldlM (state : State σ) (number : Nat) (ls : List Bytes) :
    (foldLines (l.readLine table) state number ls).1 =
      ((ls.zipIdx number).flatMap fun line => l.itemsOn table line.1 line.2).foldlM (l.step table)
        state := by
  induction ls generalizing state number with
  | nil => rfl
  | cons line ls ih =>
    rw [foldLines, List.zipIdx_cons, List.flatMap_cons, List.foldlM_append, itemsOn, lineText]
    cases Utf8.decode? line with
    | none => rfl
    | some text =>
      dsimp only
      rw [readLine_eq_applyAll, ← applyAll_eq_foldlM]
      cases l.applyAll table number state (l.pairs text.toList) with
      | error reason => rfl
      | ok next => exact ih next (number + 1)

/-- Reading a file is going through its items, from the start value. -/
theorem read_eq_foldlM (content : Bytes) :
    (l.read table start content).1 =
      ((l.items table content).foldlM (l.step table) (stateAfter table start [])).map
        State.value := by
  rw [read, readLines]
  dsimp only
  rw [foldLines_eq_foldlM]
  rfl

/-- Items that are accepted are all read. -/
theorem foldlM_of_accepts (hknown : ∀ item ∈ items, item.Known table) (h : l.Accepts items) :
    items.foldlM (l.step table) (stateAfter table start []) =
      .ok (stateAfter table start items) := by
  induction items using List.reverseRecOn with
  | nil => rfl
  | append_singleton items item ih =>
    obtain ⟨hitems, hitem⟩ := accepts_concat_iff.1 h
    rw [List.foldlM_append,
      ih (fun other hmem => hknown other (List.mem_append_left _ hmem)) hitems]
    show [item].foldlM (l.step table) (stateAfter table start items) = _
    rw [List.foldlM_cons, step_after (hknown item (by simp)), hitem]
    rfl

/-- The first item that is refused ends the reading. -/
theorem foldlM_of_refused {earlier later : List Item} {item : Item} {cause : ReadError}
    (hknown : ∀ other ∈ earlier ++ item :: later, other.Known table) (h : l.Accepts earlier)
    (hitem : l.refusal? earlier item = some cause) :
    (earlier ++ item :: later).foldlM (l.step table)
    (stateAfter table start []) = .error cause := by
  rw [List.foldlM_append,
    foldlM_of_accepts (fun other hmem => hknown other (List.mem_append_left _ hmem)) h]
  show (item :: later).foldlM (l.step table) (stateAfter table start earlier) = _
  rw [List.foldlM_cons, step_after (hknown item (by simp)), hitem]
  rfl

/-- **What a file of keys and values is read as**, for every layout, every table and every file. The
items of the file are read in order, up to the first that is refused: the result is the refusal of
this one, and without one the table filled with the numbers of all items. Up to there each number is
put under its key as the item is come to, and nothing else is. -/
theorem read_outcome_iff (l : Layout) (table : Table σ) (start : σ) (content : Bytes) :
    (∀ result, (l.read table start content).1 = result ↔
      l.Outcome table start (l.items table content) result) ∧
    (l.read table start content).1 =
      ((l.items table content).foldlM (l.step table) ⟨start, []⟩).map State.value ∧
    ∀ earlier, earlier <+: l.items table content → l.Accepts earlier →
      ∃ seen, earlier.foldlM (l.step table) ⟨start, []⟩ =
        .ok ⟨table.fill start (Item.counters earlier), seen⟩ := by
  have hknown : ∀ item ∈ l.items table content, item.Known table := fun item => known_of_mem_items
  refine ⟨fun result => ⟨?_, fun houtcome => ?_⟩, read_eq_foldlM content,
    fun earlier hfront h => ?_⟩
  · rintro rfl
    rw [read_eq_foldlM]
    rcases l.accepts_or_exists_refused (l.items table content) with
      h | ⟨earlier, item, later, cause, heq, h, hitem⟩
    · rw [foldlM_of_accepts hknown h]
      exact .filled h
    · rw [heq] at hknown ⊢
      rw [foldlM_of_refused hknown h hitem]
      exact .refused h hitem
  · rw [read_eq_foldlM]
    generalize l.items table content = items at hknown houtcome
    cases houtcome with
    | filled h =>
      rw [foldlM_of_accepts hknown h]
      rfl
    | refused h hitem =>
      rw [foldlM_of_refused hknown h hitem]
      rfl
  · exact ⟨_, foldlM_of_accepts (fun item hmem => hknown item (hfront.subset hmem)) h⟩

/-- A second value of a key is looked at before the key is refused, and an unknown key may have any
value. -/
example : (flat.read cpuTable {} (Utf8.encode "user_usec 1\nnew x\nuser_usec y\n")).1 =
    .error (.malformed (.invalidKeyValue "user_usec" "y" 3 .invalidDigit)) := by
  decide +kernel

end Layout

end ContainerUsage.Stat
