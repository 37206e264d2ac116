import Meetkit.Lib.GoMap

/-! Maps that forget what is old. A pruned map is compared with everything that was ever
put under its keys: it still has the last entry of a key, unless that is too old. Whoever
asks only for younger entries cannot tell the two apart. -/

namespace Aging

variable {κ α : Type} [DecidableEq κ] {ts : α → ℕ} {age now now' : ℕ} {items : GoMap κ α}
  {all : κ → Option α} {k : κ} {a : α}

/-- At `now`, `items` is `all` but for entries older than `age`. -/
def Forgets (ts : α → ℕ) (age now : ℕ) (items : GoMap κ α) (all : κ → Option α) : Prop :=
  ∀ k, items.lookup k = all k ∨
    items.lookup k = none ∧ ∀ a, all k = some a → age < now - ts a

theorem forgets_empty : Forgets ts age now (∅ : GoMap κ α) fun _ => none :=
  fun k => Or.inl (AList.lookup_empty k)

namespace Forgets

/-- What is too old stays too old. -/
theorem later (h : Forgets ts age now items all) (hnow : now ≤ now') :
    Forgets ts age now' items all := by
  intro k
  refine (h k).imp_right fun hk => ⟨hk.1, fun a ha => ?_⟩
  have hold := hk.2 a ha
  omega

theorem insert (h : Forgets ts age now items all) (k : κ) (a : α) :
    Forgets ts age now (items.insert k a) (Function.update all k (some a)) := by
  intro k'
  rw [GoMap.lookup_insert_iff, Function.update_apply]
  split_ifs
  · exact Or.inl rfl
  · exact h k'

/-- A loop that deletes the entries older than `age` only forgets. -/
theorem prune (h : Forgets ts age now items all) (rank : κ → ℕ) :
    Forgets ts age now (items.deleteWhere rank fun _ a => age < now - ts a) all := by
  intro k
  rw [GoMap.lookup_deleteWhere]
  rcases h k with hk | ⟨hk, hold⟩
  · cases ha : all k with
    | none =>
      rw [hk, ha]
      exact Or.inl rfl
    | some a =>
      rw [hk, ha, Option.filter_some]
      by_cases hage : age < now - ts a
      · rw [if_neg (by simp [hage])]
        exact Or.inr ⟨rfl, fun a' ha' => Option.some.inj ha' ▸ hage⟩
      · rw [if_pos (by simp [hage])]
        exact Or.inl rfl
  · rw [hk]
    exact Or.inr ⟨rfl, hold⟩

/-- Entries of at most a younger age are all there. -/
theorem lookup_filter (h : Forgets ts age now items all) {limit : ℕ} (hlimit : limit ≤ age) (k : κ) :
    (items.lookup k).filter (fun a => now - ts a ≤ limit) =
      (all k).filter fun a => now - ts a ≤ limit := by
  rcases h k with hk | ⟨hk, hold⟩
  · rw [hk]
  · rw [hk]
    cases ha : all k with
    | none => rfl
    | some a =>
      have hage := hold a ha
      rw [Option.filter_some, if_neg]
      · rfl
      · rw [decide_eq_true_eq]
        omega

end Forgets

end Aging
