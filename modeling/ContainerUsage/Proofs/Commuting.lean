import Mathlib

/-!
# Steps that commute

Many files and messages are read step by step, and each step has a key: the field that a record
sets, the name at the start of a line. Where steps of different keys commute, the order of the steps
matters within each key only.

* `Commuting.foldlM_eq_of_filter_eq` compares two lists that have the same steps of each key, in the
  same order.
* `filter_eq_of_perm` says that lists are of this kind if they are permutations in which each key
  comes once.
-/

namespace ContainerUsage

/-- Where each key comes once, a permutation leaves what there is of each key as it is. -/
theorem filter_eq_of_perm {α κ : Type} [DecidableEq κ] {key : α → κ} {as bs : List α}
    (hperm : as.Perm bs) (hnodup : (as.map key).Nodup) (k : κ) :
    as.filter (key · = k) = bs.filter (key · = k) := by
  induction hperm with
  | nil => rfl
  | cons a _ ih =>
    have htail := ih (List.nodup_cons.1 hnodup).2
    rw [List.filter_cons, List.filter_cons, htail]
  | swap a b as =>
    have hne : key b ≠ key a := fun heq => (List.nodup_cons.1 hnodup).1 (by simp [heq])
    by_cases ha : key a = k
    · have hb : key b ≠ k := fun hb => hne (hb.trans ha.symm)
      simp [ha, hb]
    · simp [List.filter_cons, ha]
  | trans hperm _ ih ih' =>
    exact (ih hnodup).trans (ih' ((hperm.map key).nodup_iff.1 hnodup))

variable {σ α κ : Type} {step : σ → α → Option σ} {key : α → κ}

/-- Steps with different keys can be taken in either order. -/
def Commuting (step : σ → α → Option σ) (key : α → κ) : Prop :=
  ∀ ⦃a b⦄, key a ≠ key b → ∀ s, (step s a).bind (step · b) = (step s b).bind (step · a)

namespace Commuting

/-- A step can be taken before all those that have other keys. -/
theorem foldlM_move (h : Commuting step key) {a : α} {before : List α}
    (hbefore : ∀ b ∈ before, key b ≠ key a) (after : List α) (s : σ) :
    (before ++ a :: after).foldlM step s = (a :: (before ++ after)).foldlM step s := by
  induction before generalizing s with
  | nil => rfl
  | cons b before ih =>
    obtain ⟨hb, hbefore⟩ := List.forall_mem_cons.1 hbefore
    calc (b :: before ++ a :: after).foldlM step s
        = (step s b).bind fun s' => (a :: (before ++ after)).foldlM step s' := by
          rw [List.cons_append, List.foldlM_cons]
          exact Option.bind_congr fun s' _ => ih hbefore s'
      _ = ((step s b).bind (step · a)).bind fun s' => (before ++ after).foldlM step s' := by
          rw [Option.bind_assoc]
          rfl
      _ = ((step s a).bind (step · b)).bind fun s' => (before ++ after).foldlM step s' := by
          rw [h hb s]
      _ = (a :: (b :: before ++ after)).foldlM step s := by
          rw [Option.bind_assoc]
          rfl

variable [DecidableEq κ]

/-- **The order of the steps matters within each key only.** -/
theorem foldlM_eq_of_filter_eq (h : Commuting step key) {as bs : List α}
    (heq : ∀ k, as.filter (key · = k) = bs.filter (key · = k)) (s : σ) :
    as.foldlM step s = bs.foldlM step s := by
  induction as generalizing bs s with
  | nil =>
    have hnil : bs = [] := by
      apply List.eq_nil_iff_forall_not_mem.2
      intro b hb
      have hfilter := heq (key b)
      rw [List.filter_nil, eq_comm, List.filter_eq_nil_iff] at hfilter
      exact hfilter b hb (decide_eq_true rfl)
    rw [hnil]
  | cons a as ih =>
    -- the first step is found in the other list, where no step before it has its key
    have ha := heq (key a)
    rw [List.filter_cons_of_pos (by simp), eq_comm, List.filter_eq_cons_iff] at ha
    obtain ⟨before, after, rfl, hbefore, -, hafter⟩ := ha
    have hne : ∀ b ∈ before, key b ≠ key a := by simpa using hbefore
    rw [h.foldlM_move hne, List.foldlM_cons, List.foldlM_cons]
    refine bind_congr fun s' => ih (fun k => ?_) s'
    have hk := heq k
    by_cases hka : key a = k
    · subst hka
      have hnil : before.filter (key · = key a) = [] := List.filter_eq_nil_iff.2 hbefore
      rw [List.filter_append, hnil, hafter, List.nil_append]
    · simpa [hka] using hk

end Commuting

end ContainerUsage
