import Mathlib.Algebra.GroupWithZero.Nat
import Meetkit.Lib.GoMap

/-! Maps that count. The entries sum up to what was counted. -/

namespace GoMap

variable {κ : Type} [DecidableEq κ]

def count (m : GoMap κ ℕ) (k : κ) : ℕ := (m.lookup k).getD 0

def total (m : GoMap κ ℕ) : ℕ := (m.entries.map Sigma.snd).sum

/-- `m[k]++`. -/
def incr (m : GoMap κ ℕ) (k : κ) : GoMap κ ℕ := AList.insert k (m.count k + 1) m

/-- `m[k]++` for each of the keys. -/
def tally (m : GoMap κ ℕ) (ks : List κ) : GoMap κ ℕ := ks.foldl incr m

variable (m : GoMap κ ℕ) (k k' : κ) (ks : List κ)

@[simp] theorem tally_nil : m.tally [] = m := rfl

@[simp] theorem tally_cons : m.tally (k :: ks) = (m.incr k).tally ks := rfl

theorem count_incr : (m.incr k).count k' = m.count k' + if k' = k then 1 else 0 := by
  unfold incr
  rw [count, lookup_insert_iff]
  split_ifs with h
  · rw [h]; rfl
  · rfl

/-- What a key counts for goes with its entry. -/
private theorem sum_kerase (l : List (Sigma fun _ : κ => ℕ)) :
    ((l.kerase k).map Sigma.snd).sum + (l.dlookup k).getD 0 = (l.map Sigma.snd).sum := by
  induction l with
  | nil => rfl
  | cons e l ih =>
    obtain ⟨j, n⟩ := e
    by_cases hj : k = j
    · subst hj
      have herase : List.kerase k (⟨k, n⟩ :: l) = l :=
        List.kerase_cons_eq (s := (⟨k, n⟩ : Sigma fun _ : κ => ℕ)) rfl
      rw [herase, List.dlookup_cons_eq, List.map_cons, List.sum_cons, Nat.add_comm]
      rfl
    · have herase : List.kerase k (⟨j, n⟩ :: l) = ⟨j, n⟩ :: l.kerase k :=
        List.kerase_cons_ne (s := (⟨j, n⟩ : Sigma fun _ : κ => ℕ)) hj
      have hlook : List.dlookup k (⟨j, n⟩ :: l) = l.dlookup k := List.dlookup_cons_ne l ⟨j, n⟩ hj
      rw [herase, hlook, List.map_cons, List.sum_cons, List.map_cons, List.sum_cons, ← ih,
        Nat.add_assoc]

theorem total_incr : (m.incr k).total = m.total + 1 := by
  have hentries : (m.incr k).entries = ⟨k, m.count k + 1⟩ :: m.entries.kerase k := rfl
  have herase : ((m.entries.kerase k).map Sigma.snd).sum + m.count k = m.total :=
    sum_kerase k m.entries
  rw [total, hentries, List.map_cons, List.sum_cons]
  change m.count k + 1 + _ = _
  omega

theorem count_tally : (m.tally ks).count k = m.count k + ks.count k := by
  induction ks generalizing m with
  | nil => rfl
  | cons j ks ih =>
    rw [tally_cons, ih, count_incr, List.count_cons]
    by_cases hj : k = j
    · subst hj
      rw [if_pos rfl, if_pos (beq_self_eq_true k)]
      omega
    · rw [if_neg hj, if_neg (by simpa using Ne.symm hj), Nat.add_zero, Nat.add_zero]

theorem total_tally : (m.tally ks).total = m.total + ks.length := by
  induction ks generalizing m with
  | nil => rfl
  | cons j ks ih =>
    rw [tally_cons, ih, total_incr, List.length_cons]
    omega

end GoMap
