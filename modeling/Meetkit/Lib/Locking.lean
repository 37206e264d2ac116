import Meetkit.Lib.Machine
import Mathlib.Algebra.Ring.Nat
import Mathlib.Data.List.MinMax

/-! Threads that share mutexes and reader-writer locks. A thread is the list of lock
operations it has still to do. A writer first announces itself, which keeps new readers
out, and enters once the readers that are in have left. When every thread takes its
locks in the order of a rank, no reachable state is a deadlock: the lock a waiting
thread waits for ranks below the one its holder waits for. -/

namespace Locking

inductive Mode
  | read
  | write
  deriving DecidableEq, Repr

inductive Op (L : Type*)
  | lock (m : Mode) (l : L)
  | unlock (m : Mode) (l : L)
  deriving DecidableEq, Repr

variable {L : Type*}

/-- What a piece of code does with locks: nothing, a body under a lock, one piece after
another, one of two, or any number of turns of a loop, each with an item of its own. -/
inductive Code (L : Type*)
  | skip
  | under (m : Mode) (l : L) (body : Code L)
  | seq (c d : Code L)
  | either (c d : Code L)
  | each (body : Nat → Code L)

namespace Code

/-- One piece after another. -/
def block (cs : List (Code L)) : Code L := cs.foldr seq skip

/-- A piece that some ways through the code leave out. -/
def maybe (c : Code L) : Code L := either skip c

/-- One of several branches, or none. -/
def oneOf (cs : List (Code L)) : Code L := cs.foldr either skip

/-- The lock operations of one way through the code. -/
inductive Runs : Code L → List (Op L) → Prop
  | skip : Runs skip []
  | under {m l body w} (h : Runs body w) : Runs (under m l body) (.lock m l :: w ++ [.unlock m l])
  | seq {c d v w} (h : Runs c v) (h' : Runs d w) : Runs (seq c d) (v ++ w)
  | left {c d w} (h : Runs c w) : Runs (either c d) w
  | right {c d w} (h : Runs d w) : Runs (either c d) w
  | stop {body} : Runs (each body) []
  | again {body n v w} (h : Runs (body n) v) (h' : Runs (each body) w) : Runs (each body) (v ++ w)

/-- The lock order of the code, checked on its text: locks rank from `lo` up, and what
stands under a lock ranks above it. -/
def Above (rank : L → Nat) : Nat → Code L → Prop
  | _, skip => True
  | lo, under _ l body => lo ≤ rank l ∧ Above rank (rank l + 1) body
  | lo, seq c d => Above rank lo c ∧ Above rank lo d
  | lo, either c d => Above rank lo c ∧ Above rank lo d
  | lo, each body => ∀ n, Above rank lo (body n)

variable {rank : L → Nat} {lo : Nat} {c d : Code L}

@[simp] theorem above_skip : Above rank lo (skip : Code L) := trivial

@[simp] theorem above_under {m : Mode} {l : L} :
    Above rank lo (under m l c) ↔ lo ≤ rank l ∧ Above rank (rank l + 1) c :=
  Iff.rfl

@[simp] theorem above_seq : Above rank lo (seq c d) ↔ Above rank lo c ∧ Above rank lo d := Iff.rfl

@[simp] theorem above_either : Above rank lo (either c d) ↔ Above rank lo c ∧ Above rank lo d :=
  Iff.rfl

@[simp] theorem above_each {body : Nat → Code L} :
    Above rank lo (each body) ↔ ∀ n, Above rank lo (body n) :=
  Iff.rfl

@[simp] theorem above_block {cs : List (Code L)} :
    Above rank lo (block cs) ↔ ∀ c ∈ cs, Above rank lo c := by
  induction cs with
  | nil => simp [block]
  | cons c cs ih => simpa [block] using fun _ => ih

@[simp] theorem above_maybe : Above rank lo (maybe c) ↔ Above rank lo c := by simp [maybe]

@[simp] theorem above_oneOf {cs : List (Code L)} :
    Above rank lo (oneOf cs) ↔ ∀ c ∈ cs, Above rank lo c := by
  induction cs with
  | nil => simp [oneOf]
  | cons c cs ih => simpa [oneOf] using fun _ => ih

theorem Above.mono {hi : Nat} (h : Above rank hi c) (hlo : lo ≤ hi) : Above rank lo c := by
  induction c generalizing lo hi with
  | skip => trivial
  | under m l body ih => exact ⟨hlo.trans h.1, h.2⟩
  | seq c d ihc ihd => exact ⟨ihc h.1 hlo, ihd h.2 hlo⟩
  | either c d ihc ihd => exact ⟨ihc h.1 hlo, ihd h.2 hlo⟩
  | each body ih => exact fun n => ih n (h n) hlo

end Code

/-- `announced`: the thread is next to write-lock, has kept other writers and new
readers out and waits for the readers that are in. -/
structure Thread (L : Type*) where
  rest : List (Op L)
  held : List (Mode × L)
  announced : Bool
  deriving DecidableEq, Repr

variable [DecidableEq L]

namespace Thread

def fresh (ops : List (Op L)) : Thread L := ⟨ops, [], false⟩

def Done (t : Thread L) : Prop := t.rest = []

instance (t : Thread L) : Decidable t.Done := inferInstanceAs (Decidable (t.rest = []))

def Holds (t : Thread L) (l : L) : Prop := ∃ m, (m, l) ∈ t.held

/-- The thread keeps other writers out of `l`, and new readers. -/
def Claims (t : Thread L) (l : L) : Prop :=
  (Mode.write, l) ∈ t.held ∨ (t.announced = true ∧ t.rest.head? = some (.lock .write l))

instance (t : Thread L) (l : L) : Decidable (t.Holds l) :=
  decidable_of_iff ((Mode.read, l) ∈ t.held ∨ (Mode.write, l) ∈ t.held)
    ⟨fun h => h.elim (fun h => ⟨.read, h⟩) (fun h => ⟨.write, h⟩),
      fun ⟨m, h⟩ => match m, h with
        | .read, h => Or.inl h
        | .write, h => Or.inr h⟩

instance (t : Thread L) (l : L) : Decidable (t.Claims l) :=
  inferInstanceAs (Decidable (_ ∨ _))

/-- Whether the thread's next operation can happen beside the threads `ts`. -/
def Ready (ts : List (Thread L)) (t : Thread L) : Prop :=
  match t.rest with
  | [] => False
  | .unlock _ _ :: _ => True
  | .lock .read l :: _ => ∀ u ∈ ts, ¬u.Claims l
  | .lock .write l :: _ => if t.announced then ∀ u ∈ ts, ¬u.Holds l else ∀ u ∈ ts, ¬u.Claims l

instance (ts : List (Thread L)) : (t : Thread L) → Decidable (t.Ready ts)
  | ⟨[], _, _⟩ => inferInstanceAs (Decidable False)
  | ⟨.unlock _ _ :: _, _, _⟩ => inferInstanceAs (Decidable True)
  | ⟨.lock .read l :: _, _, _⟩ => inferInstanceAs (Decidable (∀ u ∈ ts, ¬u.Claims l))
  | ⟨.lock .write l :: _, _, true⟩ => inferInstanceAs (Decidable (∀ u ∈ ts, ¬u.Holds l))
  | ⟨.lock .write l :: _, _, false⟩ => inferInstanceAs (Decidable (∀ u ∈ ts, ¬u.Claims l))

/-- The thread after its next operation. -/
def advance (t : Thread L) : Thread L :=
  match t.rest with
  | [] => t
  | .unlock m l :: rest => { t with rest := rest, held := t.held.erase (m, l) }
  | .lock .read l :: rest => { t with rest := rest, held := (.read, l) :: t.held }
  | .lock .write l :: rest =>
    if t.announced then ⟨rest, (.write, l) :: t.held, false⟩ else { t with announced := true }

end Thread

/-- A new thread starts, or the thread at a place takes its next operation. -/
inductive Turn (α : Type*)
  | start (a : α)
  | go (n : Nat)
  deriving DecidableEq, Repr

def turn {α : Type*} (ops : α → List (Op L)) (ts : List (Thread L)) : Turn α → List (Thread L)
  | .start a => ts ++ [Thread.fresh (ops a)]
  | .go n =>
    match ts[n]? with
    | none => ts
    | some t => if t.Ready ts then ts.set n t.advance else ts

theorem turn_go {α : Type*} (ops : α → List (Op L)) {ts : List (Thread L)} {t : Thread L} {n : Nat}
    (hn : ts[n]? = some t) :
    turn ops ts (.go n) = if t.Ready ts then ts.set n t.advance else ts := by
  simp only [turn, hn]

/-- Any number of threads, each with the operations of some `a`, in any order. -/
def threads {α : Type*} (ops : α → List (Op L)) : Machine (List (Thread L)) (Turn α) where
  init := []
  step := turn ops

/-- No thread that has operations left can take one. -/
def Stuck (ts : List (Thread L)) : Prop := (∃ t ∈ ts, ¬t.Done) ∧ ∀ t ∈ ts, ¬t.Ready ts

instance (ts : List (Thread L)) : Decidable (Stuck ts) := inferInstanceAs (Decidable (_ ∧ _))

/-! ### The discipline -/

/-- Locks are taken above every lock held, only held locks are left, and all are left
in the end. -/
def Ordered (rank : L → Nat) : List (Mode × L) → List (Op L) → Prop
  | held, [] => held = []
  | held, .lock m l :: rest => (∀ h ∈ held, rank h.2 < rank l) ∧ Ordered rank ((m, l) :: held) rest
  | held, .unlock m l :: rest => (m, l) ∈ held ∧ Ordered rank (held.erase (m, l)) rest

variable {rank : L → Nat} {α : Type*} {ops : α → List (Op L)} {ts : List (Thread L)} {t : Thread L}

def Thread.Obeys (rank : L → Nat) (t : Thread L) : Prop := Ordered rank t.held t.rest

theorem Thread.Obeys.advance (h : t.Obeys rank) : t.advance.Obeys rank := by
  obtain ⟨rest, held, announced⟩ := t
  match rest, h with
  | [], h => exact h
  | .unlock m l :: rest, h => exact h.2
  | .lock .read l :: rest, h => exact h.2
  | .lock .write l :: rest, h =>
    cases announced with
    | false => exact h
    | true => exact h.2

/-- What a turn preserves: every thread obeys the order. -/
theorem turn_obeys (hops : ∀ a, Ordered rank [] (ops a)) (s : Turn α)
    (h : ∀ t ∈ ts, t.Obeys rank) : ∀ t ∈ turn ops ts s, t.Obeys rank := by
  cases s with
  | start a =>
    intro t ht
    rcases List.mem_append.1 ht with ht | ht
    · exact h t ht
    · rw [List.mem_singleton.1 ht]
      exact hops a
  | go n =>
    cases hn : ts[n]? with
    | none => simpa only [turn, hn] using h
    | some u =>
      have hu : u.Obeys rank := h u (List.mem_of_getElem? hn)
      rw [turn_go ops hn]
      intro t ht
      split at ht
      · rcases List.mem_or_eq_of_mem_set ht with ht | rfl
        · exact h t ht
        · exact hu.advance
      · exact h t ht

theorem run_obeys (hops : ∀ a, Ordered rank [] (ops a)) (is : List (Turn α)) :
    ∀ t ∈ (threads ops).run is, t.Obeys rank :=
  Machine.run_invariant (M := threads ops) (P := fun ts => ∀ t ∈ ts, t.Obeys rank)
    (by intro t ht; cases ht) (fun _ s h => turn_obeys hops s h) is

/-! ### No deadlock -/

/-- The lock a thread is about to take. -/
def Thread.wants (t : Thread L) : Option L :=
  match t.rest with
  | .lock _ l :: _ => some l
  | _ => none

omit [DecidableEq L] in
/-- A thread that is not finished and cannot move is about to take a lock. -/
theorem Thread.wants_of_not_ready (hd : ¬t.Done) (hr : ¬t.Ready ts) : ∃ l, t.wants = some l := by
  obtain ⟨rest, held, announced⟩ := t
  match rest, hd, hr with
  | [], hd, _ => exact absurd rfl hd
  | .unlock m l :: rest, _, hr => exact absurd trivial hr
  | .lock m l :: rest, _, _ => exact ⟨l, rfl⟩

/-- A thread that holds a lock is not finished. -/
theorem Thread.Obeys.not_done (h : t.Obeys rank) {l : L} (hl : t.Holds l) : ¬t.Done := by
  obtain ⟨m, hm⟩ := hl
  intro hd
  unfold Thread.Obeys at h
  rw [hd] at h
  rw [show t.held = [] from h] at hm
  cases hm

/-- The lock a thread is about to take ranks above those it holds. -/
theorem Thread.Obeys.rank_lt (h : t.Obeys rank) {l l' : L} (hl : t.Holds l)
    (hw : t.wants = some l') : rank l < rank l' := by
  obtain ⟨rest, held, announced⟩ := t
  obtain ⟨m, hm⟩ := hl
  match rest, h, hw with
  | .lock m' l'' :: rest, h, hw =>
    cases hw
    exact h.1 (m, l) hm

/-- When nothing can move, somebody holds the lock a thread waits for: either what keeps
it out is a holder, or it is a writer that waits for a holder itself. -/
theorem holder_of_stuck (hstuck : ∀ t ∈ ts, ¬t.Ready ts) (ht : t ∈ ts) {l : L}
    (hw : t.wants = some l) : ∃ u ∈ ts, u.Holds l := by
  have of_claims : (∃ u ∈ ts, u.Claims l) → ∃ u ∈ ts, u.Holds l := by
    rintro ⟨u, hu, hheld | ⟨hann, hhead⟩⟩
    · exact ⟨u, hu, .write, hheld⟩
    · have hr := hstuck u hu
      obtain ⟨rest, held, announced⟩ := u
      cases rest with
      | nil => cases hhead
      | cons op rest =>
        cases hhead
        rw [show announced = true from hann] at hr
        simpa [Thread.Ready] using hr
  have hr := hstuck t ht
  obtain ⟨rest, held, announced⟩ := t
  match rest, hw, hr with
  | .lock .read l' :: rest, hw, hr =>
    cases hw
    exact of_claims (by simpa [Thread.Ready] using hr)
  | .lock .write l' :: rest, hw, hr =>
    cases hw
    cases announced with
    | false => exact of_claims (by simpa [Thread.Ready] using hr)
    | true => simpa [Thread.Ready] using hr

/-- Threads that all obey one order are never stuck: among the waiting ones, look at
the one that waits for the highest lock. -/
theorem not_stuck_of_obeys (h : ∀ t ∈ ts, t.Obeys rank) : ¬Stuck ts := by
  rintro ⟨⟨t, ht, hd⟩, hstuck⟩
  have climb : ∀ n, ∃ u ∈ ts, ∃ l, u.wants = some l ∧ n ≤ rank l := by
    intro n
    induction n with
    | zero =>
      obtain ⟨l, hl⟩ := Thread.wants_of_not_ready hd (hstuck t ht)
      exact ⟨t, ht, l, hl, Nat.zero_le _⟩
    | succ n ih =>
      obtain ⟨u, hu, l, hl, hn⟩ := ih
      obtain ⟨v, hv, hheld⟩ := holder_of_stuck hstuck hu hl
      obtain ⟨l', hl'⟩ := Thread.wants_of_not_ready ((h v hv).not_done hheld) (hstuck v hv)
      have hlt : rank l < rank l' := (h v hv).rank_lt hheld hl'
      exact ⟨v, hv, l', hl', by omega⟩
  -- the locks wanted are finitely many, so their ranks are bounded
  have hbound : ∀ u ∈ ts, ∀ l, u.wants = some l →
      rank l ≤ ((ts.filterMap Thread.wants).map rank).foldr max 0 := by
    intro u hu l hl
    have hmem : rank l ∈ (ts.filterMap Thread.wants).map rank :=
      List.mem_map_of_mem (List.mem_filterMap.2 ⟨u, hu, hl⟩)
    exact List.le_max_of_le' 0 hmem le_rfl
  obtain ⟨u, hu, l, hl, hn⟩ := climb (((ts.filterMap Thread.wants).map rank).foldr max 0 + 1)
  have := hbound u hu l hl
  omega

/-- No run of threads that obey one order comes to a deadlock. -/
theorem never_stuck (hops : ∀ a, Ordered rank [] (ops a)) (is : List (Turn α)) :
    ¬Stuck ((threads ops).run is) :=
  not_stuck_of_obeys (run_obeys hops is)

/-- Without an order they can: a reader that reads the lock again once a writer has
announced itself waits for the writer, and the writer for it. -/
example :
    let reader : List (Op Unit) :=
      [.lock .read (), .lock .read (), .unlock .read (), .unlock .read ()]
    let writer : List (Op Unit) := [.lock .write (), .unlock .write ()]
    Stuck ((threads fun b : Bool => if b then reader else writer).run
      [.start true, .start false, .go 0, .go 1]) := by
  decide

/-! ### Every thread can finish -/

/-- The operations a thread has left, an announcement counted as one. -/
def Thread.work (t : Thread L) : Nat := 2 * t.rest.length - t.announced.toNat

def work (ts : List (Thread L)) : Nat := (ts.map Thread.work).sum

theorem Thread.work_advance (hr : t.Ready ts) : t.advance.work < t.work := by
  obtain ⟨rest, held, announced⟩ := t
  match rest, hr with
  | .unlock m l :: rest, _ =>
    have := Bool.toNat_le announced
    simp only [Thread.advance, Thread.work, List.length_cons]
    omega
  | .lock .read l :: rest, _ =>
    have := Bool.toNat_le announced
    simp only [Thread.advance, Thread.work, List.length_cons]
    omega
  | .lock .write l :: rest, _ =>
    cases announced with
    | false =>
      simp only [Thread.advance, Thread.work, List.length_cons, Bool.toNat_true, Bool.toNat_false,
        Bool.false_eq_true, if_false]
      omega
    | true =>
      simp only [Thread.advance, Thread.work, List.length_cons, Bool.toNat_true, Bool.toNat_false,
        if_true]
      omega

omit [DecidableEq L] in
theorem work_set {n : Nat} {u : Thread L} (hn : ts[n]? = some t) (hu : u.work < t.work) :
    work (ts.set n u) < work ts := by
  induction ts generalizing n with
  | nil => simp at hn
  | cons v ts ih =>
    cases n with
    | zero =>
      rw [List.getElem?_cons_zero, Option.some.injEq] at hn
      subst hn
      simpa [work] using hu
    | succ n =>
      have := ih (n := n) (by simpa using hn)
      simpa [work] using this

/-- A thread that can move does less and less. -/
theorem work_go {n : Nat} (hn : ts[n]? = some t) (hr : t.Ready ts) :
    work (turn ops ts (.go n)) < work ts := by
  rw [turn_go ops hn, if_pos hr]
  exact work_set hn (Thread.work_advance hr)

/-- Left to themselves, threads that obey one order all finish, after no more turns than
they have work. -/
theorem drains (hops : ∀ a, Ordered rank [] (ops a)) (h : ∀ t ∈ ts, t.Obeys rank) :
    ∃ ns : List Nat, ns.length ≤ work ts ∧
      ∀ t ∈ (threads ops).runFrom ts (ns.map .go), t.Done := by
  induction hw : work ts using Nat.strong_induction_on generalizing ts with
  | _ w ih =>
    by_cases hdone : ∃ t ∈ ts, ¬t.Done
    · have hready : ∃ t ∈ ts, t.Ready ts := by
        by_contra hno
        exact not_stuck_of_obeys h ⟨hdone, fun t ht hr => hno ⟨t, ht, hr⟩⟩
      obtain ⟨t, ht, hr⟩ := hready
      obtain ⟨n, hn⟩ := List.mem_iff_getElem?.1 ht
      have hlt : work (turn ops ts (.go n)) < w := hw ▸ work_go hn hr
      obtain ⟨ns, hlen, hend⟩ := ih _ hlt (turn_obeys hops (.go n) h) rfl
      exact ⟨n :: ns, by rw [List.length_cons]; omega, hend⟩
    · refine ⟨[], Nat.zero_le _, fun t ht => ?_⟩
      by_contra hd
      exact hdone ⟨t, ht, hd⟩

/-- The check is sound: code that passes it obeys the order before any code that does. -/
theorem Code.Runs.ordered {c : Code L} {w : List (Op L)} (hrun : Code.Runs c w) :
    ∀ {lo : Nat} {held : List (Mode × L)} {rest : List (Op L)}, c.Above rank lo →
      (∀ h ∈ held, rank h.2 < lo) → Ordered rank held rest → Ordered rank held (w ++ rest) := by
  induction hrun with
  | skip => exact fun _ _ hrest => hrest
  | @under m l body w _ ih =>
    intro lo held rest hc hheld hrest
    have hbelow : ∀ h ∈ held, rank h.2 < rank l := fun h hh => (hheld h hh).trans_le hc.1
    have hbody : ∀ h ∈ (m, l) :: held, rank h.2 < rank l + 1 := by
      intro h hh
      rcases List.mem_cons.1 hh with rfl | hh
      · exact Nat.lt_succ_self _
      · exact (hbelow h hh).trans (Nat.lt_succ_self _)
    have hleave : Ordered rank ((m, l) :: held) (.unlock m l :: rest) := by
      refine ⟨List.mem_cons_self, ?_⟩
      rw [List.erase_cons_head]
      exact hrest
    rw [List.cons_append, List.cons_append, List.append_assoc]
    exact ⟨hbelow, ih hc.2 hbody hleave⟩
  | seq _ _ ihc ihd =>
    intro lo held rest hc hheld hrest
    rw [List.append_assoc]
    exact ihc hc.1 hheld (ihd hc.2 hheld hrest)
  | left _ ih => exact fun hc hheld hrest => ih hc.1 hheld hrest
  | right _ ih => exact fun hc hheld hrest => ih hc.2 hheld hrest
  | stop => exact fun _ _ hrest => hrest
  | @again body n v w _ _ ihv ihw =>
    intro lo held rest hc hheld hrest
    rw [List.append_assoc]
    exact ihv (hc n) hheld (ihw hc hheld hrest)

/-- A whole way through such code obeys the order. -/
theorem Code.Runs.ordered_nil {c : Code L} {w : List (Op L)} (hrun : Code.Runs c w) (hc : c.Above rank 0) :
    Ordered rank [] w := by
  have hnone : ∀ h ∈ ([] : List (Mode × L)), rank h.2 < 0 := by
    intro h hh
    cases hh
  have hend : Ordered rank [] ([] : List (Op L)) := rfl
  have := hrun.ordered hc hnone hend
  rwa [List.append_nil] at this

end Locking
