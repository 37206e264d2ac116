import Meetkit.Model.HostStats
import Mathlib.Tactic.SplitIfs

/-! Whether a sample of the process CPU can be subtracted from a later one. `compare` goes by
the timestamps. A call reads the counter and the clock one after the other, so a sample
stamped later has the higher counter too, unless both readings of the other one fall
between its own. -/

namespace Meetkit

/-- `prev` was read after `cur` was, and stamped before it. -/
structure Straddles (cur prev : ProcCPUSample) : Prop where
  readAt : cur.readAt < prev.readAt
  stampedAt : prev.stampedAt < cur.stampedAt
  ticks : cur.ticks ≠ prev.ticks
  takenAt : cur.takenAt ≠ prev.takenAt

namespace HostStats

variable {s : HostStats} {l : SampleLabel} {c : ℕ} {p cur prev : ProcCPUSample}

/-- `p` is made of a reading and a timestamp. -/
structure Taken (s : HostStats) (p : ProcCPUSample) : Prop where
  read : s.kernelTicks.Read p.readAt p.ticks
  stamped : s.clock.Read p.stampedAt p.takenAt

/-- Compared by their timestamps, the counter seems to have gone down from `prev` to `cur`. -/
theorem Taken.wraps_iff (hcur : s.Taken cur) (hprev : s.Taken prev) :
    prev.takenAt < cur.takenAt ∧ ¬prev.ticks ≤ cur.ticks ↔ Straddles cur prev := by
  constructor
  · rintro ⟨hlt, hwrap⟩
    have hread := hcur.read.later hprev.read hwrap
    have hstamp := hprev.stamped.later hcur.stamped (Nat.not_le.2 hlt)
    exact ⟨hread, hstamp, fun h => hwrap h.symm.le, hlt.ne'⟩
  · intro h
    have hticks := hcur.read.mono hprev.read h.readAt.le
    have htime := hprev.stamped.mono hcur.stamped h.stampedAt.le
    exact ⟨lt_of_le_of_ne htime h.takenAt.symm,
      fun hle => h.ticks (UInt64.le_antisymm hticks hle)⟩

/-- What a call holds has been read. -/
def Holds (s : HostStats) : SampleCall → Prop
  | .outside => True
  | .ticksRead ticks readAt => s.kernelTicks.Read readAt ticks
  | .sampled cur => s.Taken cur

structure Sound (s : HostStats) : Prop where
  call : ∀ c, s.Holds (s.call c)
  prevProc : ∀ p, s.prevProc = some p → s.Taken p

/-- Nothing that was read is forgotten. -/
structure Keeps (s s' : HostStats) : Prop where
  read : ∀ i a, s.kernelTicks.Read i a → s'.kernelTicks.Read i a
  stamped : ∀ i a, s.clock.Read i a → s'.clock.Read i a

section Keeps

variable {s' : HostStats}

theorem Keeps.taken (h : Keeps s s') (hp : s.Taken p) : s'.Taken p :=
  ⟨h.read _ _ hp.read, h.stamped _ _ hp.stamped⟩

theorem Keeps.holds (h : Keeps s s') {q : SampleCall} (hq : s.Holds q) : s'.Holds q := by
  cases q with
  | outside => trivial
  | ticksRead ticks readAt => exact h.read _ _ hq
  | sampled cur => exact h.taken hq

/-- A step after which at most one call holds something else. -/
theorem Sound.of_keeps (hs : s.Sound) (hkeep : Keeps s s') {q : SampleCall}
    (hcall : s'.call = Function.update s.call c q) (hq : s'.Holds q)
    (hprev : ∀ p, s'.prevProc = some p → s.prevProc = some p ∨ s'.Taken p) : s'.Sound := by
  refine ⟨fun d => ?_, fun p hp => ?_⟩
  · rw [hcall, Function.update_apply]
    split_ifs
    · exact hq
    · exact hkeep.holds (hs.call d)
  · rcases hprev p hp with h | h
    · exact hkeep.taken (hs.prevProc p h)
    · exact h

end Keeps

theorem Sound.readTicks (hs : s.Sound) (ok : Bool) : (s.readTicks c ok).Sound := by
  unfold HostStats.readTicks
  split
  · split_ifs
    · exact hs.of_keeps ⟨fun _ _ h => h.kept, fun _ _ h => h⟩ rfl s.kernelTicks.read_latest
        fun p hp => Or.inl hp
    · exact hs
  · exact hs

theorem Sound.stamp (hs : s.Sound) : (s.stamp c).Sound := by
  unfold HostStats.stamp
  split
  · rename_i ticks readAt hcall
    have hread : s.kernelTicks.Read readAt ticks := by
      have h := hs.call c
      rwa [hcall] at h
    exact hs.of_keeps ⟨fun _ _ h => h, fun _ _ h => h.kept⟩ rfl ⟨hread, s.clock.read_latest⟩
      fun p hp => Or.inl hp
  · exact hs

theorem Sound.sampled (hs : s.Sound) (hcall : s.call c = .sampled cur) : s.Taken cur := by
  have h := hs.call c
  rwa [hcall] at h

theorem Sound.compare (hs : s.Sound) : (s.compare c).Sound := by
  unfold HostStats.compare
  split
  · rename_i cur hcall
    have hcur := hs.sampled hcall
    split
    · refine hs.of_keeps ⟨fun _ _ h => h, fun _ _ h => h⟩ rfl trivial fun p hp => Or.inr ?_
      cases hp
      exact ⟨hcur.read, hcur.stamped⟩
    · split_ifs
      · exact hs.of_keeps ⟨fun _ _ h => h, fun _ _ h => h⟩ rfl trivial fun p hp => Or.inl hp
      · refine hs.of_keeps ⟨fun _ _ h => h, fun _ _ h => h⟩ rfl trivial fun p hp => Or.inr ?_
        cases hp
        exact ⟨hcur.read, hcur.stamped⟩
  · exact hs

theorem Sound.step (hs : s.Sound) (l : SampleLabel) : (s.step l).Sound := by
  have hsame : Function.update s.call 0 (s.call 0) = s.call := Function.update_eq_self 0 s.call
  cases l with
  | run ticks =>
    have hkeep : Keeps s (s.step (.run ticks)) :=
      ⟨fun _ _ h => Gauge.read_advance _ |>.2 h, fun _ _ h => h⟩
    exact hs.of_keeps hkeep hsame.symm (hkeep.holds (hs.call 0)) fun p hp => Or.inl hp
  | pass now =>
    have hkeep : Keeps s (s.step (.pass now)) :=
      ⟨fun _ _ h => h, fun _ _ h => Gauge.read_advance _ |>.2 h⟩
    exact hs.of_keeps hkeep hsame.symm (hkeep.holds (hs.call 0)) fun p hp => Or.inl hp
  | readTicks c ok => exact hs.readTicks ok
  | stamp c => exact hs.stamp
  | compare c => exact hs.compare

theorem sound_run (ls : List SampleLabel) : (hostStats.run ls).Sound :=
  Machine.run_invariant ⟨fun _ => trivial, fun _ h => by cases h⟩ (fun _ l hs => hs.step l) ls

/-! ### The subtractions -/

/-- A step subtracts nothing, or it is the comparison of a call with an older sample. -/
theorem deltas_step (s : HostStats) (l : SampleLabel) : (s.step l).deltas = s.deltas ∨
    ∃ c cur prev, l = .compare c ∧ s.call c = .sampled cur ∧ s.prevProc = some prev ∧
      prev.takenAt < cur.takenAt ∧ (s.step l).deltas = s.deltas ++ [⟨cur, prev⟩] := by
  cases l with
  | run ticks => exact Or.inl rfl
  | pass now => exact Or.inl rfl
  | readTicks c ok =>
    left
    simp only [HostStats.step, HostStats.readTicks]
    split
    · split_ifs <;> rfl
    · rfl
  | stamp c =>
    left
    simp only [HostStats.step, HostStats.stamp]
    split <;> rfl
  | compare c =>
    cases hcall : s.call c with
    | outside => left; simp only [HostStats.step, HostStats.compare, hcall]
    | ticksRead ticks readAt => left; simp only [HostStats.step, HostStats.compare, hcall]
    | sampled cur =>
      cases hprev : s.prevProc with
      | none =>
        left
        simp only [HostStats.step, HostStats.compare, hcall, hprev]
        rfl
      | some prev =>
        by_cases hle : cur.takenAt ≤ prev.takenAt
        · left
          simp only [HostStats.step, HostStats.compare, hcall, hprev, hle, if_true]
          rfl
        · right
          refine ⟨c, cur, prev, rfl, hcall, rfl, Nat.not_le.1 hle, ?_⟩
          simp only [HostStats.step, HostStats.compare, hcall, hprev, hle, if_false]

theorem mem_deltas_step {d : TickDelta} (h : d ∈ s.deltas) (l : SampleLabel) :
    d ∈ (s.step l).deltas := by
  rcases s.deltas_step l with heq | ⟨c, cur, prev, -, -, -, -, heq⟩
  · exact heq ▸ h
  · exact heq ▸ List.mem_append_left _ h

theorem compare_deltas (hcall : s.call c = .sampled cur) (hprev : s.prevProc = some prev)
    (hlt : prev.takenAt < cur.takenAt) :
    (s.step (.compare c)).deltas = s.deltas ++ [⟨cur, prev⟩] := by
  simp only [HostStats.step, HostStats.compare, hcall, hprev, Nat.not_le.2 hlt, if_false]

/-- A call that gets the lock finds no sample whose two readings both fall between its own. -/
def Unstraddled (s : HostStats) : SampleLabel → Prop
  | .compare c => ∀ cur prev, s.call c = .sampled cur → s.prevProc = some prev →
      ¬Straddles cur prev
  | _ => True

def Unwrapped (s : HostStats) : Prop := ∀ d ∈ s.deltas, d.prev.ticks ≤ d.cur.ticks

theorem Unwrapped.step (hs : s.Sound) (hl : s.Unstraddled l) (h : s.Unwrapped) :
    (s.step l).Unwrapped := by
  intro d hd
  rcases s.deltas_step l with heq | ⟨c, cur, prev, rfl, hcall, hprev, hlt, heq⟩
  · exact h d (heq ▸ hd)
  · rw [heq, List.mem_append, List.mem_singleton] at hd
    rcases hd with hd | rfl
    · exact h d hd
    · have hstraddle := hl cur prev hcall hprev
      rw [← Taken.wraps_iff (hs.sampled hcall) (hs.prevProc prev hprev)] at hstraddle
      exact Classical.not_not.1 fun hwrap => hstraddle ⟨hlt, hwrap⟩

theorem Sound.wrapped (hs : s.Sound) (hl : ¬s.Unstraddled l) : ¬(s.step l).Unwrapped := by
  cases l with
  | compare c =>
    intro h
    refine hl fun cur prev hcall hprev hstraddle => ?_
    obtain ⟨hlt, hwrap⟩ :=
      (Taken.wraps_iff (hs.sampled hcall) (hs.prevProc prev hprev)).2 hstraddle
    refine hwrap (h ⟨cur, prev⟩ ?_)
    rw [compare_deltas hcall hprev hlt]
    exact List.mem_append_right _ (List.mem_singleton.2 rfl)
  | run | pass | readTicks | stamp => exact absurd trivial hl

end HostStats

/-- No subtraction of a run wraps if and only if no call that got the lock found a sample
that was read and stamped between its own reading and its own timestamp, with the counter
and the clock having moved. -/
theorem samples_unwrapped_iff (ls : List SampleLabel) :
    (∀ d ∈ (hostStats.run ls).deltas, d.prev.ticks ≤ d.cur.ticks) ↔
      hostStats.Guarded HostStats.Unstraddled ls := by
  have hinit : hostStats.init.Unwrapped := fun d hd => absurd hd List.not_mem_nil
  have hkeep : ∀ s l, HostStats.Unstraddled s l → s.Sound → s.Unwrapped →
      (hostStats.step s l).Unwrapped := fun s l hl hs h => h.step hs hl
  constructor
  · intro h
    -- a wrapped subtraction stays in the list
    rcases Machine.guarded_or (B := fun s => ¬s.Unwrapped) HostStats.sound_run hinit hkeep
        (fun s l hl hs _ => hs.wrapped hl)
        (fun s l _ hB h => hB fun d hd => h d (HostStats.mem_deltas_step hd l)) ls with
      ⟨hg, -⟩ | hB
    · exact hg
    · exact absurd h hB
  · exact Machine.guarded_invariant_of HostStats.sound_run hinit hkeep

/-- Call 0 reads the counter at 10. Before it takes its timestamp call 1 reads it at 20, takes
its own and stores both. -/
def outpaced : List SampleLabel :=
  [.run 10, .pass 1, .readTicks 0 true, .run 20, .readTicks 1 true, .pass 5, .stamp 1, .compare 1,
    .pass 6, .stamp 0, .compare 0]

/-- The 10 ticks less become 2^64 - 10 more. -/
theorem sample_wraps :
    ¬(∀ d ∈ (hostStats.run outpaced).deltas, d.prev.ticks ≤ d.cur.ticks) ∧
      (hostStats.run outpaced).deltas.map (fun d => d.value.toNat) = [2 ^ 64 - 10] := by
  decide

end Meetkit
