import Mathlib.Data.List.DropRight

/-! Go slices: an array, where in it the slice begins and how long it is. Two slices may
share an array, and `append` writes into the array of its slice while that has room, so
what is read of a slice is said about a heap of arrays. -/

/-- The arrays that were allocated. -/
abbrev Arrays (α : Type) := List (List α)

structure Slice where
  array : ℕ
  off : ℕ
  len : ℕ
  deriving DecidableEq, Repr

namespace Slice

variable {α : Type} {h : Arrays α} {s t : Slice} {l : List α} {lo : ℕ}

def read (h : Arrays α) (s : Slice) : List α := (((h[s.array]?).getD []).drop s.off).take s.len

def cap (h : Arrays α) (s : Slice) : ℕ := ((h[s.array]?).getD []).length - s.off

/-- The slice lies within an array. -/
def Valid (h : Arrays α) (s : Slice) : Prop :=
  ∃ a, h[s.array]? = some a ∧ s.off + s.len ≤ a.length

/-- A slice of a new array with the elements of `l`. -/
def ofList (h : Arrays α) (l : List α) : Arrays α × Slice := (h ++ [l], ⟨h.length, 0, l.length⟩)

/-- `s[lo:]`. -/
def dropFront (s : Slice) (lo : ℕ) : Slice := ⟨s.array, s.off + lo, s.len - lo⟩

/-- `append(s, x)`. A new array has `spare` more cells than are used. -/
def append [Inhabited α] (h : Arrays α) (s : Slice) (x : α) (spare : ℕ) : Arrays α × Slice :=
  if s.len < s.cap h then
    (h.modify s.array fun a => a.set (s.off + s.len) x, ⟨s.array, s.off, s.len + 1⟩)
  else (h ++ [s.read h ++ x :: List.replicate spare default], ⟨h.length, 0, s.len + 1⟩)

theorem Valid.lt (hv : s.Valid h) : s.array < h.length := by
  obtain ⟨a, ha, -⟩ := hv
  exact (List.getElem?_eq_some_iff.1 ha).1

theorem Valid.length_read (hv : s.Valid h) : (s.read h).length = s.len := by
  obtain ⟨a, ha, hlen⟩ := hv
  rw [read, ha, Option.getD_some, List.length_take, List.length_drop]
  omega

theorem Valid.dropFront (hv : s.Valid h) (hlo : lo ≤ s.len) : (s.dropFront lo).Valid h := by
  obtain ⟨a, ha, hlen⟩ := hv
  refine ⟨a, ha, ?_⟩
  change s.off + lo + (s.len - lo) ≤ a.length
  omega

theorem read_dropFront : (s.dropFront lo).read h = (s.read h).drop lo := by
  rw [read, read, dropFront, List.drop_take, List.drop_drop]

/-! ### A new array -/

theorem read_ofList : (ofList h l).2.read (ofList h l).1 = l := by
  simp [ofList, read]

theorem valid_ofList : (ofList h l).2.Valid (ofList h l).1 :=
  ⟨l, by simp [ofList], by simp [ofList]⟩

/-- More arrays do not change what is in the old ones. -/
theorem Valid.grow (hv : t.Valid h) (h' : Arrays α) :
    t.Valid (h ++ h') ∧ t.read (h ++ h') = t.read h := by
  have hsame : (h ++ h')[t.array]? = h[t.array]? := List.getElem?_append_left hv.lt
  refine ⟨?_, by rw [read, hsame, read]⟩
  obtain ⟨a, ha, hlen⟩ := hv
  exact ⟨a, hsame.trans ha, hlen⟩

/-! ### Appending -/

section Append

variable [Inhabited α]

theorem read_append (hv : s.Valid h) (x : α) (spare : ℕ) :
    (append h s x spare).2.read (append h s x spare).1 = s.read h ++ [x] := by
  have hread := hv.length_read
  unfold append
  split_ifs with hroom
  · obtain ⟨a, ha, hlen⟩ := hv
    rw [cap, ha, Option.getD_some] at hroom
    dsimp only
    have hcell : (h.modify s.array fun a => a.set (s.off + s.len) x)[s.array]? =
        some (a.set (s.off + s.len) x) := by
      rw [List.getElem?_modify_eq, ha]
      rfl
    have hpos : s.len < ((a.drop s.off).set s.len x).length := by
      rw [List.length_set, List.length_drop]
      exact hroom
    rw [read, read, ha, hcell, Option.getD_some, Option.getD_some, ← List.set_drop,
      List.take_succ_eq_append_getElem hpos, List.take_set_of_le (Nat.le_refl _),
      List.getElem_set_self]
  · have hnew : (h ++ [s.read h ++ x :: List.replicate spare default])[h.length]? =
        some (s.read h ++ x :: List.replicate spare default) := List.getElem?_concat_length
    have hlen : (s.read h ++ [x]).length = s.len + 1 := by
      rw [List.length_append, hread, List.length_singleton]
    rw [read, hnew, Option.getD_some, List.drop_zero, ← List.take_left' hlen]
    congr 1
    exact List.append_cons ..

theorem valid_append (hv : s.Valid h) (x : α) (spare : ℕ) :
    (append h s x spare).2.Valid (append h s x spare).1 := by
  unfold append
  split_ifs with hroom
  · obtain ⟨a, ha, hlen⟩ := hv
    rw [cap, ha, Option.getD_some] at hroom
    refine ⟨a.set (s.off + s.len) x, by simp [ha], ?_⟩
    rw [List.length_set]
    change s.off + (s.len + 1) ≤ a.length
    omega
  · have hlen := hv.length_read
    refine ⟨s.read h ++ x :: List.replicate spare default, by simp, ?_⟩
    rw [List.length_append, List.length_cons, hlen]
    change 0 + (s.len + 1) ≤ _
    omega

/-- A slice of another array is as it was. -/
theorem append_other (ht : t.Valid h) (hne : t.array ≠ s.array) (x : α) (spare : ℕ) :
    t.Valid (append h s x spare).1 ∧ t.read (append h s x spare).1 = t.read h := by
  unfold append
  split_ifs
  · have hsame : (h.modify s.array fun a => a.set (s.off + s.len) x)[t.array]? = h[t.array]? :=
      List.getElem?_modify_ne _ h hne.symm
    refine ⟨?_, by rw [read, hsame, read]⟩
    obtain ⟨a, ha, hlen⟩ := ht
    exact ⟨a, hsame.trans ha, hlen⟩
  · exact ht.grow _

/-- The slice keeps its array or moves to a new one. -/
theorem array_append (h : Arrays α) (s : Slice) (x : α) (spare : ℕ) :
    (append h s x spare).2.array = s.array ∨
    (append h s x spare).2.array = h.length := by
  unfold append
  split_ifs
  · exact Or.inl rfl
  · exact Or.inr rfl

end Append

end Slice

/-! ### The last entries of a list -/

namespace List

variable {α : Type}

theorem rtake_rtake (k m : ℕ) (l : List α) : (l.rtake m).rtake k = l.rtake (min k m) := by
  simp only [rtake_eq_reverse_take_reverse, reverse_reverse, take_take]

/-- What was dropped before is dropped again. -/
theorem rtake_rtake_append (m : ℕ) (l l' : List α) :
    (l.rtake m ++ l').rtake m = (l ++ l').rtake m := by
  have hle : m - l'.reverse.length ≤ m := Nat.sub_le _ _
  simp only [rtake_eq_reverse_take_reverse, reverse_append, reverse_reverse, take_append, take_take,
    Nat.min_eq_left hle]

theorem length_rtake (k : ℕ) (l : List α) : (l.rtake k).length = min k l.length := by
  rw [rtake, length_drop]
  omega

end List
