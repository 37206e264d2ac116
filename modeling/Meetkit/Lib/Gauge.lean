import Mathlib.Order.Basic
import Mathlib.Data.UInt

/-! Counters that never go down, and what has been read of them. A gauge keeps every
reading in the order they were made, so a reading is known by its place and its value,
and the order of the places is an order of the values. -/

instance UInt64.preorder : Preorder UInt64 where
  le_refl := UInt64.le_refl
  le_trans _ _ _ := UInt64.le_trans
  lt_iff_le_not_ge a b := by
    rw [UInt64.lt_iff_toNat_lt, UInt64.le_iff_toNat_le, UInt64.le_iff_toNat_le]
    omega

structure Gauge (α : Type*) [Preorder α] where
  now : α
  readings : List α := []
  sorted : readings.Pairwise (· ≤ ·) := by exact List.Pairwise.nil
  reached : ∀ a ∈ readings, a ≤ now := by exact fun _ h => absurd h List.not_mem_nil

namespace Gauge

variable {α : Type*} [Preorder α] (g : Gauge α) {a b : α} {i j : ℕ}

/-- It moves to `a`, unless that is lower. -/
def advance [DecidableLE α] (a : α) : Gauge α :=
  if h : g.now ≤ a then { g with now := a, reached := fun b hb => (g.reached b hb).trans h } else g

/-- The next reading. -/
def read : Gauge α where
  now := g.now
  readings := g.readings ++ [g.now]
  sorted := List.pairwise_append.2
    ⟨g.sorted, List.pairwise_singleton _ _, fun a ha b hb => List.mem_singleton.1 hb ▸ g.reached a ha⟩
  reached := by
    intro a ha
    rcases List.mem_append.1 ha with h | h
    · exact g.reached a h
    · rw [List.mem_singleton.1 h]

/-- The `i`-th reading was `a`. -/
def Read (i : ℕ) (a : α) : Prop := g.readings[i]? = some a

@[simp] theorem read_advance [DecidableLE α] : (g.advance b).Read i a ↔ g.Read i a := by
  unfold advance
  split_ifs <;> exact Iff.rfl

theorem read_latest : g.read.Read g.readings.length g.now :=
  List.getElem?_concat_length

variable {g}

theorem Read.kept (h : g.Read i a) : g.read.Read i a :=
  (List.getElem?_append_left (List.getElem?_eq_some_iff.1 h).1).trans h

/-- Of two readings the earlier is no higher. -/
theorem Read.mono (ha : g.Read i a) (hb : g.Read j b) (hij : i ≤ j) : a ≤ b := by
  obtain ⟨hi, rfl⟩ := List.getElem?_eq_some_iff.1 ha
  obtain ⟨hj, rfl⟩ := List.getElem?_eq_some_iff.1 hb
  rcases hij.lt_or_eq with hlt | rfl
  · exact List.pairwise_iff_getElem.1 g.sorted i j hi hj hlt
  · exact le_refl _

/-- So the higher of two readings is the later one. -/
theorem Read.later (ha : g.Read i a) (hb : g.Read j b) (hlt : ¬b ≤ a) : i < j := by
  by_contra hij
  exact hlt (hb.mono ha (Nat.le_of_not_lt hij))

end Gauge
