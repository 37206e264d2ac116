import Mathlib.Data.List.AList
import Mathlib.Data.List.Sort

/-! Maps whose iteration order is unspecified. The map itself is an association
list with unique keys; a loop over it takes the order as an argument, a rank of
the keys, and visits the entries by increasing rank. Every order of the entries
is the one of some rank, so a statement for all ranks covers every order the
runtime may pick. -/

abbrev GoMap (κ α : Type) := AList (fun _ : κ => α)

section Range

variable {α β : Type}

/-- The elements of `l` by increasing rank. -/
def rangeBy (rank : α → ℕ) (l : List α) : List α :=
  l.insertionSort (fun a b => rank a ≤ rank b)

theorem rangeBy_perm (rank : α → ℕ) (l : List α) : (rangeBy rank l).Perm l :=
  List.perm_insertionSort _ l

@[simp] theorem mem_rangeBy {rank : α → ℕ} {l : List α} {a : α} : a ∈ rangeBy rank l ↔ a ∈ l :=
  (rangeBy_perm rank l).mem_iff

@[simp] theorem rangeBy_nil (rank : α → ℕ) : rangeBy rank [] = [] := rfl

theorem rangeBy_nodup {rank : α → ℕ} {l : List α} : (rangeBy rank l).Nodup ↔ l.Nodup :=
  (rangeBy_perm rank l).nodup_iff

private theorem rangeBy_pairwise (rank : α → ℕ) (l : List α) :
    (rangeBy rank l).Pairwise (fun a b => rank a ≤ rank b) := by
  have : Std.Total (fun a b : α => rank a ≤ rank b) := ⟨fun a b => Nat.le_total _ _⟩
  have : IsTrans α (fun a b => rank a ≤ rank b) := ⟨fun _ _ _ => Nat.le_trans⟩
  exact List.pairwise_insertionSort _ l

private theorem filter_orderedInsert (rank : α → ℕ) (p : α → Bool) (a : α) :
    ∀ l : List α, l.Pairwise (fun x y => rank x ≤ rank y) →
      (l.orderedInsert (fun x y => rank x ≤ rank y) a).filter p =
        if p a then (l.filter p).orderedInsert (fun x y => rank x ≤ rank y) a else l.filter p := by
  intro l
  induction l with
  | nil => intro _; cases h : p a <;> simp [h]
  | cons b l ih =>
    intro hl
    rw [List.pairwise_cons] at hl
    rw [List.orderedInsert_cons]
    by_cases hab : rank a ≤ rank b
    · -- everything kept from `b :: l` ranks at least as high as `a`
      have hhead : ∀ c ∈ (b :: l).filter p, rank a ≤ rank c := by
        intro c hc
        rcases List.mem_cons.1 (List.mem_filter.1 hc).1 with rfl | hc
        · exact hab
        · exact hab.trans (hl.1 c hc)
      rw [if_pos hab, List.filter_cons]
      split_ifs with ha
      · cases hf : (b :: l).filter p with
        | nil => rfl
        | cons c cs =>
          rw [hf] at hhead
          rw [List.orderedInsert_cons, if_pos (hhead c (by simp))]
      · rfl
    · rw [if_neg hab, List.filter_cons, ih hl.2, List.filter_cons]
      by_cases hb : p b <;> by_cases ha : p a <;> simp [ha, hb, hab]

/-- A loop that skips elements visits the others in the order of their own loop. -/
theorem filter_rangeBy (rank : α → ℕ) (p : α → Bool) (l : List α) :
    (rangeBy rank l).filter p = rangeBy rank (l.filter p) := by
  induction l with
  | nil => rfl
  | cons a l ih =>
    have hins := filter_orderedInsert rank p a _ (rangeBy_pairwise rank l)
    have hcons : rangeBy rank (a :: l) =
        (rangeBy rank l).orderedInsert (fun x y => rank x ≤ rank y) a := rfl
    rw [hcons, hins, ih, List.filter_cons]
    split <;> rfl

end Range

namespace GoMap

variable {κ α : Type} [DecidableEq κ]

/-- The key and value pairs of a map in the order of a loop over it. -/
def range (rank : κ → ℕ) (m : GoMap κ α) : List (κ × α) :=
  rangeBy (fun e => rank e.1) (m.entries.map fun e => (e.1, e.2))

theorem mem_range {rank : κ → ℕ} {m : GoMap κ α} {k : κ} {a : α} :
    (k, a) ∈ m.range rank ↔ m.lookup k = some a := by
  rw [range, mem_rangeBy, ← Option.mem_def, AList.mem_lookup_iff]
  constructor
  · intro h
    obtain ⟨⟨k', a'⟩, he, heq⟩ := List.mem_map.1 h
    simp only [Prod.mk.injEq] at heq
    obtain ⟨rfl, rfl⟩ := heq
    exact he
  · exact fun h => List.mem_map.2 ⟨⟨k, a⟩, h, rfl⟩

omit [DecidableEq κ] in
theorem range_nodup (rank : κ → ℕ) (m : GoMap κ α) : (m.range rank).Nodup := by
  refine rangeBy_nodup.2 (m.nodupKeys.nodup.map fun a b h => ?_)
  obtain ⟨k, x⟩ := a
  obtain ⟨k', x'⟩ := b
  simp only [Prod.mk.injEq] at h
  obtain ⟨rfl, rfl⟩ := h
  rfl

/-- Looking a key up in the entries a loop visits is looking it up in the map. -/
theorem find_range (rank : κ → ℕ) (m : GoMap κ α) (k : κ) :
    ((m.range rank).find? (fun e => e.1 = k)).map Prod.snd = m.lookup k := by
  cases h : m.lookup k with
  | none =>
    rw [Option.map_eq_none_iff, List.find?_eq_none]
    rintro ⟨k', a⟩ he hk
    simp only [decide_eq_true_eq] at hk
    subst hk
    rw [mem_range, h] at he
    cases he
  | some a =>
    have hmem : (k, a) ∈ m.range rank := mem_range.2 h
    cases hf : (m.range rank).find? (fun e => e.1 = k) with
    | none =>
      rw [List.find?_eq_none] at hf
      exact absurd (hf _ hmem) (by simp)
    | some e =>
      obtain ⟨k', a'⟩ := e
      have hk : k' = k := by simpa using List.find?_some hf
      have he := mem_range.1 (List.mem_of_find?_eq_some hf)
      rw [hk, h] at he
      simpa using he.symm

theorem lookup_insert_iff (m : GoMap κ α) (k k' : κ) (a : α) :
    (AList.insert k a m).lookup k' = if k' = k then some a else m.lookup k' := by
  split_ifs with h
  · subst h; exact AList.lookup_insert m
  · exact AList.lookup_insert_ne h

theorem lookup_erase_iff (m : GoMap κ α) (k k' : κ) :
    (m.erase k).lookup k' = if k' = k then none else m.lookup k' := by
  split_ifs with h
  · subst h; exact AList.lookup_erase _ _
  · exact AList.lookup_erase_ne h

theorem lookup_erase_absent {m : GoMap κ α} {k : κ} (hk : m.lookup k = none) :
    (m.erase k).lookup = m.lookup := by
  funext k'
  rw [lookup_erase_iff]
  split_ifs with h
  · rw [h, hk]
  · rfl

theorem lookup_erase_eq_some {m : GoMap κ α} {k k' : κ} {a : α} :
    (m.erase k).lookup k' = some a ↔ k' ≠ k ∧ m.lookup k' = some a := by
  rw [lookup_erase_iff]
  split_ifs with h
  · exact ⟨False.elim, fun hne => absurd h hne.1⟩
  · exact ⟨fun ha => ⟨h, ha⟩, And.right⟩

/-- The value of a key is changed in its place. -/
def modify (m : GoMap κ α) (k : κ) (f : α → α) : GoMap κ α :=
  match m.lookup k with
  | some a => m.replace k (f a)
  | none => m

private theorem dlookup_kreplace (k k' : κ) (a : α) (l : List (Sigma fun _ : κ => α)) :
    (l.kreplace k a).dlookup k' = if k' = k then (l.dlookup k).map fun _ => a else l.dlookup k' := by
  have hskip : ∀ (j j' : κ) (b : α) (l : List (Sigma fun _ : κ => α)), j' ≠ j →
      List.dlookup j' (⟨j, b⟩ :: l) = List.dlookup j' l :=
    fun j j' b l h => List.dlookup_cons_ne l ⟨j, b⟩ h
  induction l with
  | nil => simp [List.kreplace]
  | cons e l ih =>
    obtain ⟨j, b⟩ := e
    by_cases hj : k = j
    · subst hj
      have hcons : List.kreplace k a (⟨k, b⟩ :: l) = ⟨k, a⟩ :: l :=
        List.lookmap_cons_some _ _ (if_pos rfl)
      rw [hcons]
      by_cases hk : k' = k
      · subst hk
        simp
      · rw [hskip _ _ _ _ hk, hskip _ _ _ _ hk, if_neg hk]
    · have hcons : List.kreplace k a (⟨j, b⟩ :: l) = ⟨j, b⟩ :: List.kreplace k a l :=
        List.lookmap_cons_none _ _ (if_neg hj)
      rw [hcons, hskip _ _ _ _ hj]
      by_cases hk : k' = j
      · subst hk
        rw [List.dlookup_cons_eq, List.dlookup_cons_eq, if_neg (Ne.symm hj)]
      · rw [hskip _ _ _ _ hk, hskip _ _ _ _ hk, ih]

theorem lookup_modify (m : GoMap κ α) (k k' : κ) (f : α → α) :
    (m.modify k f).lookup k' = if k' = k then (m.lookup k).map f else m.lookup k' := by
  unfold modify
  cases h : m.lookup k with
  | none =>
    by_cases hk : k' = k
    · rw [if_pos hk, hk, h]
      rfl
    · rw [if_neg hk]
  | some a =>
    change (m.entries.kreplace k (f a)).dlookup k' = _
    rw [dlookup_kreplace]
    change (if k' = k then (m.lookup k).map _ else m.lookup k') = _
    rw [h]
    rfl

/-- Deleting a key twice is deleting it once. -/
theorem erase_erase (m : GoMap κ α) (k : κ) : (m.erase k).erase k = m.erase k :=
  AList.ext (List.kerase_of_notMem_keys (List.notMem_keys_kerase k m.nodupKeys))

/-- A loop over the map that deletes the entries `p` holds of. -/
def deleteWhere (rank : κ → ℕ) (p : κ → α → Bool) (m : GoMap κ α) : GoMap κ α :=
  (m.range rank).foldl (fun m e => if p e.1 e.2 then m.erase e.1 else m) m

theorem lookup_deleteWhere (rank : κ → ℕ) (p : κ → α → Bool) (m : GoMap κ α) (k : κ) :
    (m.deleteWhere rank p).lookup k = (m.lookup k).filter fun a => !p k a := by
  have hfold : ∀ (l : List (κ × α)) (m' : GoMap κ α),
      (l.foldl (fun m e => if p e.1 e.2 then m.erase e.1 else m) m').lookup k =
        if l.any fun e => e.1 = k && p e.1 e.2 then none else m'.lookup k := by
    intro l
    induction l with
    | nil => intro m'; rfl
    | cons e l ih =>
      intro m'
      rw [List.foldl_cons, ih, List.any_cons]
      by_cases hk : e.1 = k
      · subst hk
        rw [decide_eq_true rfl, Bool.true_and]
        cases hp : p e.1 e.2 with
        | false => rw [Bool.false_or, if_neg Bool.false_ne_true]
        | true => rw [Bool.true_or, if_pos rfl, lookup_erase_iff, if_pos rfl, if_pos rfl, ite_self]
      · rw [decide_eq_false hk, Bool.false_and, Bool.false_or]
        cases hp : p e.1 e.2 with
        | false => rw [if_neg Bool.false_ne_true]
        | true => rw [if_pos rfl, lookup_erase_iff, if_neg (Ne.symm hk)]
  rw [deleteWhere, hfold]
  cases h : m.lookup k with
  | none => simp
  | some a =>
    have hany : ((m.range rank).any fun e => e.1 = k && p e.1 e.2) = p k a := by
      rw [Bool.eq_iff_iff, List.any_eq_true]
      constructor
      · rintro ⟨⟨k', a'⟩, he, hkp⟩
        simp only [Bool.and_eq_true, decide_eq_true_eq] at hkp
        obtain ⟨rfl, hp⟩ := hkp
        rw [mem_range, h] at he
        rwa [Option.some.inj he]
      · exact fun hp => ⟨(k, a), mem_range.2 h, by simpa using hp⟩
    rw [hany, Option.filter_some]
    cases p k a <;> rfl

end GoMap
