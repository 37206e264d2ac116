import Meetkit.Model.AuditLog

/-! The bounded audit log against one that keeps everything. Its entries are the last `max`
of that one's, and what it hands out is in arrays of its own, which no later operation
writes into. -/

namespace Meetkit

/-- The entries recorded since the log was cleared. -/
def keepAll (recorded : List AuditEntry) : AuditOp → List AuditEntry
  | .record time username action room detail _ => recorded ++ [⟨time, username, action, room, detail⟩]
  | .clear => []
  | .recent _ | .setChangeHook _ => recorded

def unboundedLog : Machine (List AuditEntry) AuditOp where
  init := []
  step := keepAll

namespace AuditLog

variable {l : AuditLog} {recorded : List AuditEntry} {t : Slice}

@[simp] theorem changed_arrays : l.changed.arrays = l.arrays := by
  unfold changed
  split <;> rfl

@[simp] theorem changed_entries : l.changed.entries = l.entries := by
  unfold changed
  split <;> rfl

@[simp] theorem changed_max : l.changed.max = l.max := by
  unfold changed
  split <;> rfl

/-- The entries are the last `max` of those recorded. -/
structure Keeps (l : AuditLog) (recorded : List AuditEntry) : Prop where
  max_pos : 0 < l.max
  valid : l.entries.Valid l.arrays
  read : l.entries.read l.arrays = recorded.rtake l.max.toNat

theorem Keeps.len (h : l.Keeps recorded) : l.entries.len = min l.max.toNat recorded.length := by
  rw [← h.valid.length_read, h.read, List.length_rtake]

theorem Keeps.record (h : l.Keeps recorded) (entry : AuditEntry) (spare : ℕ) :
    (l.record entry spare).Keeps (recorded ++ [entry]) := by
  have hmax := h.max_pos
  have hvalid := Slice.valid_append h.valid entry spare
  have hread := Slice.read_append h.valid entry spare
  rw [h.read] at hread
  unfold AuditLog.record
  set p := Slice.append l.arrays l.entries entry spare
  have hlen := hvalid.length_read
  rw [hread] at hlen
  dsimp only
  refine ⟨by rwa [changed_max], ?_, ?_⟩
  · rw [changed_arrays, changed_entries]
    dsimp only
    split_ifs with hover
    · exact hvalid.dropFront (by omega)
    · exact hvalid
  · rw [changed_arrays, changed_entries, changed_max]
    dsimp only
    -- what is over `max` is dropped, after what was dropped before
    rw [← List.rtake_rtake_append, List.rtake, hlen]
    split_ifs with hover
    · rw [Slice.read_dropFront, hread]
      congr 1
      omega
    · have hzero : p.2.len - l.max.toNat = 0 := by omega
      rw [hread, hzero, List.drop_zero]

theorem Keeps.clear (h : l.Keeps recorded) : l.clear.Keeps [] := by
  refine ⟨by rw [AuditLog.clear, changed_max]; exact h.max_pos, ?_, ?_⟩
  · rw [AuditLog.clear, changed_arrays, changed_entries]
    exact Slice.valid_ofList
  · rw [AuditLog.clear, changed_arrays, changed_entries, List.rtake_nil]
    exact Slice.read_ofList

/-- `Recent` copies into a new array. -/
theorem recent_arrays (l : AuditLog) (limit : ℤ) : (l.recent limit).1.arrays =
    l.arrays ++ [(l.recent limit).2.read (l.recent limit).1.arrays] := by
  rw [AuditLog.recent]
  dsimp only
  rw [Slice.read_ofList]
  rfl

theorem Keeps.recent (h : l.Keeps recorded) (limit : ℤ) : (l.recent limit).1.Keeps recorded := by
  obtain ⟨hvalid, hread⟩ := h.valid.grow [(l.recent limit).2.read (l.recent limit).1.arrays]
  rw [← recent_arrays] at hvalid hread
  exact ⟨h.max_pos, hvalid, hread.trans h.read⟩

theorem keeps_init (max : ℤ) : (newAuditLog max).Keeps [] := by
  refine ⟨?_, ⟨[], rfl, Nat.le_refl 0⟩, (List.rtake_nil _).symm⟩
  change 0 < if max ≤ 0 then 200 else max
  split_ifs with hmax <;> omega

theorem Keeps.step (h : l.Keeps recorded) (op : AuditOp) :
    (l.step op).Keeps (keepAll recorded op) := by
  cases op with
  | record time username action room detail spare => exact h.record _ spare
  | recent limit => exact h.recent limit
  | clear => exact h.clear
  | setChangeHook fn => exact ⟨h.max_pos, h.valid, h.read⟩

theorem keeps_run (max : ℤ) (ops : List AuditOp) :
    ((auditLog max).run ops).Keeps (unboundedLog.run ops) := by
  induction ops using List.reverseRecOn with
  | nil => exact keeps_init max
  | append_singleton ops op ih =>
    rw [Machine.run_snoc, Machine.run_snoc]
    exact ih.step op

theorem max_run (max : ℤ) (ops : List AuditOp) :
    ((auditLog max).run ops).max = if max ≤ 0 then 200 else max := by
  refine Machine.run_invariant (P := fun l : AuditLog => l.max = if max ≤ 0 then 200 else max)
    rfl (fun l op h => ?_) ops
  change (l.step op).max = _
  cases op with
  | record time username action room detail spare =>
    exact changed_max.trans h
  | recent limit => exact h
  | clear => exact changed_max.trans h
  | setChangeHook fn => exact h

/-- What `Recent` returns. -/
theorem Keeps.read_recent (h : l.Keeps recorded) (limit : ℤ) :
    (l.recent limit).2.read (l.recent limit).1.arrays =
      recorded.rtake (min (if limit ≤ 0 then 50 else limit) l.max).toNat := by
  have hlen := h.valid.length_read
  rw [AuditLog.recent]
  dsimp only
  rw [Slice.read_ofList]
  set k := if limit ≤ 0 then 50 else limit with hk
  have hpos : 0 < k := by
    rw [hk]
    split_ifs <;> omega
  have hmax := h.max_pos
  have hmin : (min k l.max).toNat = min k.toNat l.max.toNat := by omega
  rw [hmin, ← List.rtake_rtake, ← h.read, List.rtake, hlen]
  split_ifs with hempty hover
  · have hnil : l.entries.read l.arrays = [] := by
      rw [← List.length_eq_zero_iff, hlen, hempty]
    rw [hnil, List.drop_nil]
  · rw [Slice.read_dropFront]
    congr 1
    omega
  · rw [Slice.read_dropFront]
    congr 1
    omega

/-- A slice that was handed out: the log writes into another array. -/
structure Apart (t : Slice) (content : List AuditEntry) (l : AuditLog) : Prop where
  valid : t.Valid l.arrays
  array_ne : t.array ≠ l.entries.array
  read : t.read l.arrays = content

theorem Keeps.apart_recent (h : l.Keeps recorded) (limit : ℤ) :
    Apart (l.recent limit).2 ((l.recent limit).2.read (l.recent limit).1.arrays) (l.recent limit).1 where
  valid := Slice.valid_ofList
  array_ne := (Nat.ne_of_lt h.valid.lt).symm
  read := rfl

theorem Apart.step {content : List AuditEntry} (h : Apart t content l) (op : AuditOp) :
    Apart t content (l.step op) := by
  cases op with
  | record time username action room detail spare =>
    obtain ⟨hvalid, hread⟩ :=
      Slice.append_other h.valid h.array_ne ⟨time, username, action, room, detail⟩ spare
    have harray : t.array ≠ (Slice.append l.arrays l.entries
        ⟨time, username, action, room, detail⟩ spare).2.array := by
      rcases Slice.array_append l.arrays l.entries ⟨time, username, action, room, detail⟩ spare with
        heq | heq
      · rw [heq]
        exact h.array_ne
      · rw [heq]
        exact Nat.ne_of_lt h.valid.lt
    change Apart t content (l.record _ spare)
    unfold AuditLog.record
    refine ⟨by rwa [changed_arrays], ?_, by rw [changed_arrays]; exact hread.trans h.read⟩
    rw [changed_entries]
    dsimp only
    split_ifs
    · exact harray
    · exact harray
  | recent limit =>
    obtain ⟨hvalid, hread⟩ := h.valid.grow [(l.recent limit).2.read (l.recent limit).1.arrays]
    rw [← recent_arrays] at hvalid hread
    exact ⟨hvalid, h.array_ne, hread.trans h.read⟩
  | clear =>
    obtain ⟨hvalid, hread⟩ := h.valid.grow [[]]
    change Apart t content l.clear
    unfold AuditLog.clear
    refine ⟨by rw [changed_arrays]; exact hvalid, ?_,
      by rw [changed_arrays]; exact hread.trans h.read⟩
    rw [changed_entries]
    exact Nat.ne_of_lt h.valid.lt
  | setChangeHook fn => exact ⟨h.valid, h.array_ne, h.read⟩

end AuditLog

open AuditLog

/-- After any operations the log holds at most `max` entries, and `Recent` returns the last
`min (limit, max, n)` of the `n` entries recorded since the last clear; that is also what the
slice it returned holds after any later operations. -/
theorem audit_log_refines (max limit : ℤ) (ops later : List AuditOp) :
    (((auditLog max).run ops).entries.len : ℤ) ≤ (if max ≤ 0 then 200 else max) ∧
      (((auditLog max).run ops).recent limit).2.read
          ((auditLog max).run (ops ++ .recent limit :: later)).arrays =
        (unboundedLog.run ops).rtake
          (min (if limit ≤ 0 then 50 else limit) (if max ≤ 0 then 200 else max)).toNat := by
  have h := keeps_run max ops
  constructor
  · have hlen := h.len
    have hpos := h.max_pos
    rw [← max_run max ops]
    omega
  · rw [← max_run max ops, ← h.read_recent limit, Machine.run_append, Machine.runFrom_cons]
    exact (Machine.runFrom_invariant (M := auditLog max) (P := Apart _ _)
      (fun _ op hl => hl.step op) later _ (h.apart_recent limit)).read

end Meetkit
