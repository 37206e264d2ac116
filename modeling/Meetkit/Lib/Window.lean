import Mathlib.Data.List.Nodup
import Mathlib.Data.Nat.ModEq
import Mathlib.Tactic.Set

/-! Windows of a ring: `b` entries of a list read one after the other from `start` on,
and on at the front when the list ends. Windows laid end to end show every entry once
they are as long as the list together. -/

namespace List

variable {α : Type*} {l : List α} {start b j : ℕ} {x : α}

def window (l : List α) (start b : ℕ) : List α :=
  (List.range b).filterMap fun j => l[(start + j) % l.length]?

theorem window_eq_map (hl : 0 < l.length) : window l start b =
    (List.range b).map fun j => l.get ⟨(start + j) % l.length, Nat.mod_lt _ hl⟩ := by
  refine List.filterMap_eq_map_iff_forall_eq_some.2 fun j _ => ?_
  rw [List.getElem?_eq_getElem (Nat.mod_lt _ hl)]
  rfl

theorem length_window (hl : 0 < l.length) : (window l start b).length = b := by
  rw [window_eq_map hl, List.length_map, List.length_range]

theorem mem_of_mem_window (h : x ∈ window l start b) : x ∈ l := by
  obtain ⟨j, -, hj⟩ := List.mem_filterMap.1 h
  exact List.mem_of_getElem? hj

/-- A window that is not longer than the ring shows no entry twice. -/
theorem nodup_window (hnd : l.Nodup) (hb : b ≤ l.length) : (window l start b).Nodup := by
  rcases Nat.eq_zero_or_pos l.length with hl | hl
  · have hb0 : b = 0 := by omega
    rw [hb0]
    exact List.nodup_nil
  rw [window_eq_map hl]
  refine List.Nodup.map_on (fun i hi j hj hij => ?_) List.nodup_range
  have hmod := Fin.mk.inj (hnd.injective_get hij)
  have hmod' : i % l.length = j % l.length := Nat.ModEq.add_left_cancel' start hmod
  rw [List.mem_range] at hi hj
  rwa [Nat.mod_eq_of_lt (by omega), Nat.mod_eq_of_lt (by omega)] at hmod'

theorem mem_window (hj : j < b) (hx : l[(start + j) % l.length]? = some x) :
    x ∈ window l start b :=
  List.mem_filterMap.2 ⟨j, List.mem_range.2 hj, hx⟩

/-- Windows one behind the other from the window `first` on, as many as it takes to be as
long as the ring, show every entry. -/
theorem exists_mem_window (hb : 0 < b) (first : ℕ) (hx : x ∈ l) :
    ∃ m < (l.length + b - 1) / b, x ∈ window l ((first + m) * b % l.length) b := by
  obtain ⟨p, hp, rfl⟩ := List.mem_iff_getElem.1 hx
  set n := l.length with hn
  have hn0 : 0 < n := by omega
  -- how far the entry lies behind the start of the first window
  set t := (p + (n - first * b % n)) % n with ht
  have htn : t < n := Nat.mod_lt _ hn0
  have hpos : (first * b + t) % n = p := by
    have hlt : first * b % n < n := Nat.mod_lt _ hn0
    calc (first * b + t) % n = (first * b % n + (p + (n - first * b % n))) % n := by
          rw [ht, Nat.add_mod_mod, Nat.mod_add_mod]
      _ = (p + n) % n := by
          congr 1
          omega
      _ = p := by rw [Nat.add_mod_right, Nat.mod_eq_of_lt hp]
  refine ⟨t / b, ?_, mem_window (Nat.mod_lt t hb) ?_⟩
  · apply (Nat.div_lt_iff_lt_mul hb).2
    have hceil : n ≤ (n + b - 1) / b * b := by
      have h1 := Nat.div_add_mod (n + b - 1) b
      have h2 := Nat.mod_lt (n + b - 1) hb
      rw [Nat.mul_comm] at h1
      omega
    omega
  · have hsplit : (first + t / b) * b + t % b = first * b + t := by
      rw [Nat.add_mul, Nat.add_assoc, Nat.div_add_mod']
    rw [← hn, Nat.mod_add_mod, hsplit, hpos]
    exact List.getElem?_eq_getElem hp

end List
