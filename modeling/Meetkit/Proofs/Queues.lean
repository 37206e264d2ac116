import Meetkit.Model.Queues

/-! A broadcast and a departing client. `c.closed` is set before anything else of a
departure, but a broadcast that has read it false sends later; seen as posting,
reading the flag settles the send. -/

namespace Meetkit

theorem Phase.aim_back (phase : Phase) : phase.back.aim = none := by
  cases phase <;> rfl

theorem Phase.aim_unwound (phase : Phase) : phase.unwound.aim = none := by
  cases phase <;> rfl

namespace RoomQueues

/-- The goroutines as senders: each owes the send it has found its client open for. -/
def posts (s : RoomQueues) : Posts UserID UserID String where
  chan := s.sendCh
  owed c := (s.loop c).aim.toList
  panicked := s.panicked

def runStep (s : RoomQueues) (c : UserID) : PostStep UserID UserID String :=
  match s.loop c with
  | .casting _ none (d :: _) _ =>
    if s.isObserver d then .rest else if s.closed d then .rest else .commit c [d]
  | .casting raw (some _) _ _ => .offer c raw
  | .closing _ => .close c
  | _ => .rest

/-- What a step is to the queues. -/
def postStep (s : RoomQueues) : QueueLabel → PostStep UserID UserID String
  | .run c => s.runStep c
  | .send c raw => if s.closed c then .rest else .post c raw
  | .write c => .receive c
  | _ => .rest

/-- Nobody is between reading `c.closed` and its send when `c` closes its queue. -/
def unaimed (s : RoomQueues) : QueueLabel → Bool
  | .run c =>
    match s.loop c with
    | .closing _ => s.loops.entries.all fun e => e.2.aim ≠ some c
    | _ => true
  | _ => true

section Posts

variable (s : RoomQueues) (c : UserID)

theorem loop_setLoop (l : Speaker) (d : UserID) :
    (s.setLoop c l).loop d = if d = c then l else s.loop d := by
  simp only [loop, setLoop, GoMap.lookup_insert_iff]
  split_ifs <;> rfl

theorem posts_setLoop (l : Speaker) : (s.setLoop c l).posts = s.posts.setOwed c l.aim.toList := by
  refine Posts.ext rfl (funext fun d => ?_) rfl
  simp only [posts, loop_setLoop, Posts.setOwed, Function.update_apply]
  split_ifs <;> rfl

/-- A goroutine that owes nothing goes on to something in which it owes nothing. -/
theorem posts_setLoop_idle {l : Speaker} (h : (s.loop c).aim = none) (hl : l.aim = none) :
    (s.setLoop c l).posts = s.posts := by
  rw [posts_setLoop, hl]
  refine Posts.ext rfl (funext fun d => ?_) rfl
  simp only [Posts.setOwed, Function.update_apply]
  split_ifs with hd
  · simp only [hd, posts, h]
  · rfl

theorem run_posts : (s.run c).posts = s.posts.step (s.runStep c) := by
  unfold run runStep
  cases hl : s.loop c with
  | casting raw aim todo phase =>
    cases aim with
    | none =>
      have haim : (s.loop c).aim = none := by rw [hl]; rfl
      cases todo with
      | nil => exact s.posts_setLoop_idle c haim phase.aim_back
      | cons d todo =>
        dsimp only
        split_ifs
        · exact s.posts_setLoop_idle c haim phase.aim_unwound
        · exact s.posts_setLoop_idle c haim rfl
        · exact s.posts_setLoop_idle c haim rfl
        · exact s.posts_setLoop c _
    | some d =>
      have howed : s.posts.owed c = [d] := by simp only [posts, hl]; rfl
      have hset : ∀ l : Speaker, l.aim = none → (s.setLoop c l).posts = s.posts.setOwed c [] := by
        intro l hnone
        rw [s.posts_setLoop, hnone]
        rfl
      change (s.setLoop c _).posts.send d raw = _
      rw [hset _ (by split_ifs <;> [exact phase.aim_unwound; rfl])]
      simp only [Posts.step, howed]
  | closing housed =>
    have haim : (s.loop c).aim = none := by rw [hl]; rfl
    change (s.setLoop c _).posts.setChan c (·.close) = _
    rw [s.posts_setLoop_idle c haim (by split_ifs <;> rfl)]
    rfl
  | leaving =>
    have haim : (s.loop c).aim = none := by rw [hl]; rfl
    dsimp only
    split_ifs
    · exact s.posts_setLoop_idle c haim rfl
    · rfl
  | joining | departed => exact s.posts_setLoop_idle c (by rw [hl]; rfl) rfl
  | outside | serving | gone => rfl

theorem step_posts (l : QueueLabel) : (s.step l).posts = s.posts.step (s.postStep l) := by
  cases l with
  | join c =>
    simp only [step, postStep]
    split
    · rename_i hl
      split_ifs
      · exact s.posts_setLoop_idle c (by rw [hl]; rfl) rfl
      · rfl
    · rfl
  | observe o => simp only [step, postStep]; split_ifs <;> rfl
  | unobserve o => simp only [step, postStep]; split_ifs <;> rfl
  | broadcast c kind raw rank =>
    simp only [step, postStep]
    split
    · rename_i hl
      exact s.posts_setLoop_idle c (by rw [hl]; rfl) rfl
    · rename_i hl
      exact s.posts_setLoop_idle c (by rw [hl]; rfl) rfl
    · rename_i hl
      exact s.posts_setLoop_idle c (by rw [hl]; rfl) rfl
    · rfl
  | exit c =>
    simp only [step, postStep]
    split
    · rename_i hl
      exact s.posts_setLoop_idle c (by rw [hl]; rfl) rfl
    · rfl
  | run c => exact s.run_posts c
  | shut o => rfl
  | send c raw => simp only [step, postStep]; split_ifs <;> rfl
  | write c => rfl

end Posts

/-- The flag of a client says whether its queue is closed. -/
def Flagged (s : RoomQueues) : Prop := ∀ c, s.closed c = (s.sendCh c).closed

section Flagged

variable {s : RoomQueues}

theorem Flagged.setChan (hf : s.Flagged) {c : UserID} {ch : Channel String}
    (hch : ch.closed = (s.sendCh c).closed) (d : UserID) :
    s.closed d = (Function.update s.sendCh c ch d).closed := by
  rw [Function.update_apply]
  split_ifs with hd
  · rw [hd, hch]; exact hf c
  · exact hf d

theorem Flagged.run (hf : s.Flagged) (c : UserID) : (s.run c).Flagged := by
  unfold RoomQueues.run
  split
  · exact hf
  · exact hf
  · split_ifs <;> exact hf
  · exact hf.setChan (Channel.offer_closed _ _)
  · intro j
    simp only [close, setLoop, Function.update_apply]
    split_ifs
    · rfl
    · exact hf j
  · split_ifs <;> exact hf
  · exact hf
  · exact hf

theorem Flagged.step (hf : s.Flagged) (l : QueueLabel) : (s.step l).Flagged := by
  cases l with
  | run c => exact hf.run c
  | write c => exact hf.setChan (Channel.receive_closed _)
  | send c raw =>
    simp only [RoomQueues.step]
    split_ifs
    · exact hf
    · exact hf.setChan (Channel.offer_closed _ _)
  | shut o => exact hf
  | join c =>
    simp only [RoomQueues.step]
    split
    · split_ifs <;> exact hf
    · exact hf
  | observe o => simp only [RoomQueues.step]; split_ifs <;> exact hf
  | unobserve o => simp only [RoomQueues.step]; split_ifs <;> exact hf
  | broadcast c kind raw rank => simp only [RoomQueues.step]; split <;> exact hf
  | exit c => simp only [RoomQueues.step]; split <;> exact hf

/-- `send` goes on only with a client whose queue is open. -/
theorem Flagged.lawful (hf : s.Flagged) (l : QueueLabel) : s.posts.Lawful (s.postStep l) := by
  cases l with
  | run c =>
    simp only [postStep, runStep]
    split
    · rename_i d _ _ _
      split_ifs with hobserver hclosed
      · trivial
      · trivial
      · intro j hj
        rw [List.mem_singleton.1 hj]
        exact (hf d).symm.trans (Bool.not_eq_true _ ▸ hclosed)
    · trivial
    · trivial
    · trivial
  | send c raw =>
    simp only [postStep]
    split_ifs with hclosed
    · trivial
    · exact (hf c).symm.trans (Bool.not_eq_true _ ▸ hclosed)
  | _ => trivial

end Flagged

theorem patient_of_unaimed (s : RoomQueues) (l : QueueLabel) (hl : s.unaimed l = true) :
    s.posts.Patient (s.postStep l) := by
  cases l with
  | run c =>
    simp only [postStep, runStep]
    simp only [unaimed] at hl
    split
    · split_ifs <;> trivial
    · trivial
    · rename_i hclosing
      rw [hclosing] at hl
      intro a ha
      have haim : (s.loop a).aim = some c := Option.mem_toList.1 ha
      unfold loop at haim
      cases hlook : s.loops.lookup a with
      | none => rw [hlook] at haim; cases haim
      | some x =>
        rw [hlook] at haim
        have hmem := AList.mem_lookup_iff.1 hlook
        exact absurd haim (by simpa using List.all_eq_true.1 hl _ hmem)
    · trivial
  | send c raw => simp only [postStep]; split_ifs <;> trivial
  | _ => trivial

end RoomQueues

open RoomQueues

/-- A room broadcast never sends on a closed queue in a run in which no client closes
its queue while a broadcast is between reading its `closed` and sending to it. -/
theorem room_broadcast_never_panics {ls : List QueueLabel}
    (hg : roomQueues.Guarded (fun s l => s.unaimed l = true) ls) :
    (roomQueues.run ls).panicked = false := by
  have hsim := Machine.simulate (M := roomQueues) (N := Posts.posting ({} : RoomQueues).sendCh)
    postStep posts (P := Flagged)
    (K := Posts.Patient) (L := Posts.Lawful) rfl (fun _ => rfl) ?_
    (hg.mono patient_of_unaimed)
  · obtain ⟨hrun, hguard⟩ := hsim
    have hsafe := Posts.posting_safe hguard
    rw [← hrun] at hsafe
    exact hsafe.panicked
  · intro s l hf
    exact ⟨hf.step l, s.step_posts l, hf.lawful l⟩

/-- Alice chats while Bob, whom she has passed, departs. -/
theorem chat_around_departure : (roomQueues.run [.join "alice", .run "alice", .join "bob", .run "bob",
    .observe "admin", .broadcast "alice" .chat "hi" (fun _ => 0), .exit "bob", .run "bob",
    .run "alice", .run "alice", .run "alice", .run "alice", .run "alice", .run "bob"]).panicked = false :=
  room_broadcast_never_panics (by decide +kernel)

/-- Bob's cleanup comes between Alice's look at his flag and her send. -/
theorem close_after_check_panics : (roomQueues.run [.join "bob", .run "bob", .join "alice", .run "alice",
    .broadcast "alice" .except "hi" (fun _ => 0), .run "alice", .exit "bob", .run "bob",
    .run "alice"]).panicked = true := by
  decide +kernel

end Meetkit
