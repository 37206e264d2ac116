import Meetkit.Lib.Machine
import Mathlib.Logic.Function.Basic

/-! Go channels with a buffer, and senders that settle where they will send before
they send: by copying a set of channels or by reading a flag. `posting` is the
system of all such senders; no send meets a closed channel as long as no channel
is closed that somebody still owes a send. -/

structure Channel (α : Type*) where
  capacity : ℕ
  queue : List α := []
  closed : Bool := false

namespace Channel

variable {α : Type*} (ch : Channel α) (a : α)

/-- The channel is open and its buffer is not full. -/
def HasSpace : Prop := ¬(ch.closed ∨ ch.capacity ≤ ch.queue.length)

instance : Decidable ch.HasSpace := inferInstanceAs (Decidable ¬_)

/-- What `select { case ch <- a: default: }` leaves; a full buffer drops the value,
on a closed channel the send panics. -/
def offer : Channel α := if ch.HasSpace then { ch with queue := ch.queue ++ [a] } else ch

/-- `close(ch)`. -/
def close : Channel α := { ch with closed := true }

/-- `<-ch`, when something is in the buffer. -/
def receive : Channel α := { ch with queue := ch.queue.tail }

theorem offer_space (h : ch.HasSpace) : ch.offer a = { ch with queue := ch.queue ++ [a] } := if_pos h

theorem offer_full (h : ¬ch.HasSpace) : ch.offer a = ch := if_neg h

@[simp] theorem offer_closed : (ch.offer a).closed = ch.closed := by
  unfold offer; split_ifs <;> rfl

@[simp] theorem close_closed : ch.close.closed = true := rfl

@[simp] theorem receive_closed : ch.receive.closed = ch.closed := rfl

end Channel

/-- Senders `β` that owe sends to channels `κ`, each in its own order. -/
@[ext] structure Posts (β κ α : Type*) where
  chan : κ → Channel α
  owed : β → List κ
  /-- A send was made on a closed channel. -/
  panicked : Bool := false

inductive PostStep (β κ α : Type*)
  | rest
  /-- The sender settles where it sends next. -/
  | commit (b : β) (ks : List κ)
  /-- The sender makes the first send it owes. -/
  | offer (b : β) (a : α)
  /-- A send that was not settled before. -/
  | post (k : κ) (a : α)
  | receive (k : κ)
  | close (k : κ)

namespace Posts

variable {β κ α : Type*} [DecidableEq β] [DecidableEq κ]

def setChan (s : Posts β κ α) (k : κ) (f : Channel α → Channel α) : Posts β κ α :=
  { s with chan := Function.update s.chan k (f (s.chan k)) }

def setOwed (s : Posts β κ α) (b : β) (ks : List κ) : Posts β κ α :=
  { s with owed := Function.update s.owed b ks }

def send (s : Posts β κ α) (k : κ) (a : α) : Posts β κ α :=
  { s.setChan k (·.offer a) with panicked := s.panicked || (s.chan k).closed }

def step (s : Posts β κ α) : PostStep β κ α → Posts β κ α
  | .rest => s
  | .commit b ks => s.setOwed b ks
  | .offer b a =>
    match s.owed b with
    | [] => s
    | k :: ks => (s.setOwed b ks).send k a
  | .post k a => s.send k a
  | .receive k => s.setChan k (·.receive)
  | .close k => s.setChan k (·.close)

/-- Senders settle on open channels only. -/
def Lawful (s : Posts β κ α) : PostStep β κ α → Prop
  | .commit _ ks => ∀ k ∈ ks, (s.chan k).closed = false
  | .post k _ => (s.chan k).closed = false
  | _ => True

/-- A channel is closed when nobody owes it a send. -/
def Patient (s : Posts β κ α) : PostStep β κ α → Prop
  | .close k => ∀ b, k ∉ s.owed b
  | _ => True

/-- Whoever owes a send owes it to an open channel. -/
structure Safe (s : Posts β κ α) : Prop where
  owed : ∀ b, ∀ k ∈ s.owed b, (s.chan k).closed = false
  panicked : s.panicked = false

variable {s : Posts β κ α}

omit [DecidableEq β] in
theorem setChan_closed {k : κ} {f : Channel α → Channel α}
    (hf : (f (s.chan k)).closed = (s.chan k).closed) (j : κ) :
    ((s.setChan k f).chan j).closed = (s.chan j).closed := by
  simp only [setChan, Function.update_apply]
  split_ifs with hj
  · rw [hj, hf]
  · rfl

namespace Safe

omit [DecidableEq β] in
theorem setChan (hs : s.Safe) {k : κ} {f : Channel α → Channel α}
    (hf : (f (s.chan k)).closed = (s.chan k).closed) : (s.setChan k f).Safe :=
  ⟨fun b j hj => (setChan_closed hf j).trans (hs.owed b j hj), hs.panicked⟩

omit [DecidableEq κ] in
theorem setOwed (hs : s.Safe) {b : β} {ks : List κ} (hks : ∀ k ∈ ks, (s.chan k).closed = false) :
    (s.setOwed b ks).Safe := by
  refine ⟨fun b' k hk => ?_, hs.panicked⟩
  simp only [Posts.setOwed, Function.update_apply] at hk
  split_ifs at hk
  · exact hks k hk
  · exact hs.owed b' k hk

omit [DecidableEq β] in
theorem send (hs : s.Safe) {k : κ} (hk : (s.chan k).closed = false) (a : α) : (s.send k a).Safe := by
  have h := hs.setChan (f := (·.offer a)) (k := k) (Channel.offer_closed _ _)
  exact ⟨h.owed, by simp [Posts.send, hs.panicked, hk]⟩

theorem step (hs : s.Safe) {l : PostStep β κ α} (hpatient : s.Patient l) (hlawful : s.Lawful l) :
    (s.step l).Safe := by
  cases l with
  | rest => exact hs
  | commit b ks => exact hs.setOwed hlawful
  | offer b a =>
    cases howed : s.owed b with
    | nil => simpa only [Posts.step, howed] using hs
    | cons k ks =>
      simp only [Posts.step, howed]
      have hopen : ∀ j ∈ k :: ks, (s.chan j).closed = false := fun j hj =>
        hs.owed b j (howed ▸ hj)
      have hrest := hs.setOwed (b := b) fun j hj => hopen j (List.mem_cons_of_mem k hj)
      exact hrest.send (hopen k List.mem_cons_self) a
  | post k a => exact hs.send hlawful a
  | receive k => exact hs.setChan (Channel.receive_closed _)
  | close k =>
    refine ⟨fun b j hj => ?_, hs.panicked⟩
    have hne : j ≠ k := by rintro rfl; exact hpatient b hj
    simp only [Posts.step, Posts.setChan, Function.update_of_ne hne]
    exact hs.owed b j hj

end Safe

/-- Channels that exist from the start, and senders that owe nothing yet. -/
def posting (chan : κ → Channel α) : Machine (Posts β κ α) (PostStep β κ α) where
  init := { chan, owed := fun _ => [] }
  step := step

theorem posting_safe {chan : κ → Channel α} {ls : List (PostStep β κ α)}
    (hg : (posting chan).Guarded (fun s l => Patient s l ∧ Lawful s l) ls) :
    ((posting chan).run ls).Safe := by
  refine Machine.guarded_invariant (P := Safe) ?_ ?_ hg
  · exact ⟨fun b k hk => absurd hk List.not_mem_nil, rfl⟩
  · rintro s l ⟨hpatient, hlawful⟩ hs
    exact hs.step hpatient hlawful

end Posts
