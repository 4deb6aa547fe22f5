/-!
# Sets of labels

A label is a name and a value.  A `LabelSet` gives each name at most one value and is kept sorted by
name, so two sets with the same labels are equal (`LabelSet.ext_get?`).  Names are compared by code
points, which is also the order of their UTF-8 bytes.
-/

namespace ContainerUsage

/-- A name and a value. -/
abbrev Label := String × String

/-- Labels with different names, sorted by name. -/
structure LabelSet where
  pairs : List Label
  sorted : pairs.Pairwise fun a b => a.1 < b.1

namespace LabelSet

/-- Sets of labels are equal if their pairs are. -/
@[ext] theorem ext {m n : LabelSet} (h : m.pairs = n.pairs) : m = n := by
  cases m; cases n; simp_all

instance : DecidableEq LabelSet := fun m n =>
  decidable_of_iff (m.pairs = n.pairs) ⟨LabelSet.ext, fun h => h ▸ rfl⟩

/-- No labels. -/
def empty : LabelSet := ⟨[], .nil⟩

/-- Whether there are no labels. -/
def isEmpty (m : LabelSet) : Bool := m.pairs.isEmpty

/-- The value of a label. -/
def get? (m : LabelSet) (name : String) : Option String := m.pairs.lookup name

/-- Whether there is a label with a name. -/
def contains (m : LabelSet) (name : String) : Bool := (m.get? name).isSome

/-- The names of the labels. -/
def names (m : LabelSet) : List String := m.pairs.map Prod.fst

/-! ## Inserting -/

/-- Puts a label into its place in a sorted list, over a label with the same name. -/
def insertPair (name value : String) : List Label → List Label
  | [] => [(name, value)]
  | (name', value') :: rest =>
    if name < name' then (name, value) :: (name', value') :: rest
    else if name = name' then (name, value) :: rest
    else (name', value') :: insertPair name value rest

/-- After inserting there is the new pair, and nothing else that was not there. -/
theorem mem_insertPair {name value : String} {pairs : List Label} {pair : Label}
    (h : pair ∈ insertPair name value pairs) : pair = (name, value) ∨ pair ∈ pairs := by
  induction pairs with
  | nil => simpa [insertPair] using h
  | cons first rest ih =>
    obtain ⟨name', value'⟩ := first
    rw [insertPair] at h
    split at h
    · exact List.mem_cons.1 h
    · split at h
      · rcases List.mem_cons.1 h with rfl | h
        · exact .inl rfl
        · exact .inr (List.mem_cons_of_mem _ h)
      · rcases List.mem_cons.1 h with rfl | h
        · exact .inr List.mem_cons_self
        · exact (ih h).imp_right (List.mem_cons_of_mem _)

/-- Names are in a linear order. -/
theorem lt_of_not_lt_of_ne {a b : String} (h : ¬a < b) (hne : a ≠ b) : b < a :=
  Decidable.byContradiction fun hba => hne (String.le_antisymm hba h)

/-- Inserting keeps the pairs sorted by their names. -/
theorem pairwise_insertPair {pairs : List Label} (h : pairs.Pairwise fun a b => a.1 < b.1)
    (name value : String) : (insertPair name value pairs).Pairwise fun a b => a.1 < b.1 := by
  induction pairs with
  | nil => simp [insertPair]
  | cons first rest ih =>
    obtain ⟨name', value'⟩ := first
    rw [List.pairwise_cons] at h
    rw [insertPair]
    split
    · next hlt =>
      refine List.pairwise_cons.2 ⟨fun pair hp => ?_, List.pairwise_cons.2 h⟩
      rcases List.mem_cons.1 hp with rfl | hp
      · exact hlt
      · exact String.lt_trans hlt (h.1 pair hp)
    · next hnlt =>
      split
      · next he => exact List.pairwise_cons.2 ⟨he ▸ h.1, h.2⟩
      · next hne =>
        refine List.pairwise_cons.2 ⟨fun pair hp => ?_, ih h.2⟩
        rcases mem_insertPair hp with rfl | hp
        · exact lt_of_not_lt_of_ne hnlt hne
        · exact h.1 pair hp

/-- Adds a label, over the one with the same name. -/
def insert (m : LabelSet) (name value : String) : LabelSet :=
  ⟨insertPair name value m.pairs, pairwise_insertPair m.sorted name value⟩

/-- The labels of a list.  The last one with a name counts. -/
def ofList (labels : List Label) : LabelSet :=
  labels.foldl (fun m label => m.insert label.1 label.2) empty

/-- The labels of two sets.  Those of the second count where both have one. -/
def union (m n : LabelSet) : LabelSet :=
  n.pairs.foldl (fun m label => m.insert label.1 label.2) m

/-! ## The view by name -/

@[simp] theorem get?_empty (name : String) : empty.get? name = none := rfl

/-- The first pair is found under its name. -/
theorem lookup_cons_self (pair : Label) (rest : List Label) :
    (pair :: rest).lookup pair.1 = some pair.2 :=
  List.lookup_cons_self

/-- Under any other name the first pair is passed over. -/
theorem lookup_cons_of_ne {p : Label} {name : String} (h : name ≠ p.1) (rest : List Label) :
    (p :: rest).lookup name = rest.lookup name := by
  have : (name == p.1) = false := by simpa using h
  rw [List.lookup_cons, this]

/-- Inserting changes what is found under its name only. -/
theorem lookup_insertPair (name value key : String) {pairs : List Label}
    (h : pairs.Pairwise fun a b => a.1 < b.1) :
    (insertPair name value pairs).lookup key =
      if key = name then some value else pairs.lookup key := by
  have hhead : ∀ rest : List Label,
      ((name, value) :: rest).lookup key = if key = name then some value else rest.lookup key := by
    intro rest
    split
    · next hk => exact hk ▸ lookup_cons_self (name, value) rest
    · next hk => exact lookup_cons_of_ne (p := (name, value)) hk rest
  induction pairs with
  | nil => exact hhead []
  | cons first rest ih =>
    obtain ⟨name', value'⟩ := first
    rw [List.pairwise_cons] at h
    rw [insertPair]
    split
    · exact hhead _
    · split
      · next he =>
        subst he
        rw [hhead]
        split
        · rfl
        · next hk => exact (lookup_cons_of_ne (p := (name, value')) hk rest).symm
      · next hne =>
        by_cases hk : key = name'
        · subst hk
          rw [lookup_cons_self (key, value') (insertPair name value rest),
            lookup_cons_self (key, value') rest, if_neg fun h => hne h.symm]
        · rw [lookup_cons_of_ne (p := (name', value')) hk,
            lookup_cons_of_ne (p := (name', value')) hk, ih h.2]

/-- What inserting changes. -/
theorem get?_insert (m : LabelSet) (name value key : String) :
    (m.insert name value).get? key = if key = name then some value else m.get? key :=
  lookup_insertPair name value key m.sorted

/-- A name before all others is not found. -/
theorem lookup_eq_none_of_forall_lt {pairs : List Label} {name : String}
    (h : ∀ pair ∈ pairs, name < pair.1) : pairs.lookup name = none := by
  induction pairs with
  | nil => rfl
  | cons first rest ih =>
    rw [lookup_cons_of_ne (String.ne_of_lt (h first List.mem_cons_self))]
    exact ih fun pair hp => h pair (List.mem_cons_of_mem _ hp)

/-- Sorted pairs are determined by what is found in them. -/
theorem eq_of_forall_lookup_eq {ms ns : List Label} (hm : ms.Pairwise fun a b => a.1 < b.1)
    (hn : ns.Pairwise fun a b => a.1 < b.1) (h : ∀ name, ms.lookup name = ns.lookup name) :
    ms = ns := by
  have hnone : ∀ {a b : Label} {rest : List Label}, a.1 < b.1 → (∀ pair ∈ rest, b.1 < pair.1) →
      (b :: rest).lookup a.1 = none := by
    intro a b rest hlt hrest
    refine lookup_eq_none_of_forall_lt fun pair hp => ?_
    rcases List.mem_cons.1 hp with rfl | hp
    · exact hlt
    · exact String.lt_trans hlt (hrest pair hp)
  induction ms generalizing ns with
  | nil =>
    cases ns with
    | nil => rfl
    | cons b ns =>
      have := h b.1
      rw [lookup_cons_self] at this
      simp at this
  | cons a ms ih =>
    cases ns with
    | nil =>
      have := h a.1
      rw [lookup_cons_self] at this
      simp at this
    | cons b ns =>
      rw [List.pairwise_cons] at hm hn
      have hab : a.1 = b.1 := by
        refine Decidable.byContradiction fun hne => ?_
        by_cases hlt : a.1 < b.1
        · have := h a.1
          rw [lookup_cons_self, hnone hlt hn.1] at this
          simp at this
        · have := h b.1
          rw [lookup_cons_self, hnone (lt_of_not_lt_of_ne hlt hne) hm.1] at this
          simp at this
      have hvalue : a.2 = b.2 := by
        have := h a.1
        rw [lookup_cons_self, hab, lookup_cons_self] at this
        exact Option.some.inj this
      have hrest : ms = ns := by
        refine ih hm.2 hn.2 fun name => ?_
        by_cases hname : name = a.1
        · rw [hname, lookup_eq_none_of_forall_lt hm.1, hab, lookup_eq_none_of_forall_lt hn.1]
        · have := h name
          rwa [lookup_cons_of_ne hname, lookup_cons_of_ne (hab ▸ hname)] at this
      rw [Prod.ext hab hvalue, hrest]

/-- Two sets that give every name the same value are equal. -/
theorem ext_get? {m n : LabelSet} (h : ∀ name, m.get? name = n.get? name) : m = n :=
  LabelSet.ext (eq_of_forall_lookup_eq m.sorted n.sorted h)

end LabelSet

end ContainerUsage
