import Meetkit.Proofs.Queues

/-! Who hears what. Broadcasts of several clients go through the room at the same time,
and each takes its own way through the clients. Whatever is said to a client that stays
has one end: its queue accepts it or is full, or the broadcast panics before it comes to
the client, which has the sender depart. -/

namespace Meetkit

/-- What the goroutine still has to hand to `d`. -/
def Speaker.owes : Speaker → UserID → List String
  | casting raw aim todo _, d => if aim = some d ∨ d ∈ todo then [raw] else []
  | _, _ => []

def Speaker.Straight : Speaker → Prop
  | casting _ aim todo _ => (aim.toList ++ todo).Nodup
  | _ => True

/-- Whether it has begun to depart. -/
def Speaker.parting : Speaker → Bool
  | casting _ _ _ phase => phase = .departed
  | outside | joining | serving => false
  | _ => true

/-- What becomes of a message. -/
inductive Fate
  | heard
  /-- The queue was full. -/
  | dropped
  /-- The broadcast panicked before it came to the client. -/
  | cut
  deriving DecidableEq

namespace RoomQueues

/-- What a step says, by whom and to whom: a broadcast speaks to its audience. -/
def saidBy (s : RoomQueues) : QueueLabel → UserID → UserID → List String
  | .broadcast c kind raw _, a, d =>
    match s.loop c with
    | .joining | .serving | .departed => if a = c ∧ d ∈ s.audience c kind then [raw] else []
    | _ => []
  | _, _, _ => []

/-- What comes in a step of what has been said, by whom and to whom. -/
def fateBy (s : RoomQueues) : QueueLabel → UserID → UserID → List (String × Fate)
  | .run c, a, d =>
    match s.loop c with
    | .casting raw none (e :: todo) _ =>
      if a = c ∧ s.isObserver e ∧ s.shut e ∧ d ∈ todo then [(raw, .cut)] else []
    | .casting raw (some e) todo _ =>
      if a ≠ c then []
      else if (s.sendCh e).closed then if d ∈ todo then [(raw, .cut)] else []
      else if d = e then [(raw, if (s.sendCh e).HasSpace then .heard else .dropped)] else []
    | _ => []
  | _, _, _ => []

/-- What a queue accepts in a step, and from whose broadcast. -/
def acceptedBy (s : RoomQueues) : QueueLabel → UserID → List (Option UserID × String)
  | .run c, d =>
    match s.loop c with
    | .casting raw (some e) _ _ => if d = e ∧ (s.sendCh e).HasSpace then [(some c, raw)] else []
    | _ => []
  | .send c raw, d =>
    if s.closed c = false ∧ d = c ∧ (s.sendCh c).HasSpace then [(none, raw)] else []
  | _, _ => []

def takenBy (s : RoomQueues) : QueueLabel → UserID → List String
  | .write c, d => if d = c then (s.sendCh c).queue.head?.toList else []
  | _, _ => []

end RoomQueues

/-- A room and the book of its broadcasts. -/
structure HeardRoom where
  room : RoomQueues := {}
  /-- What a client has said for another to hear, and what has become of it. -/
  said : UserID → UserID → List String := fun _ _ => []
  fates : UserID → UserID → List (String × Fate) := fun _ _ => []
  /-- What a client's queue has accepted, and what its writeLoop has taken. -/
  inbox : UserID → List (Option UserID × String) := fun _ => []
  taken : UserID → List String := fun _ => []

namespace HeardRoom

open RoomQueues

def step (s : HeardRoom) (l : QueueLabel) : HeardRoom where
  room := s.room.step l
  said a d := s.said a d ++ s.room.saidBy l a d
  fates a d := s.fates a d ++ s.room.fateBy l a d
  inbox d := s.inbox d ++ s.room.acceptedBy l d
  taken d := s.taken d ++ s.room.takenBy l d

def heard (s : HeardRoom) (c d : UserID) : List String :=
  ((s.inbox d).filter (·.1 = some c)).map Prod.snd

structure Kept (s : HeardRoom) : Prop where
  clients : s.room.clients.Nodup
  flagged : s.room.Flagged
  straight : ∀ c, (s.room.loop c).Straight
  told : ∀ c d, s.room.closed d = false → s.room.isObserver d = false →
    (s.fates c d).map Prod.fst ++ (s.room.loop c).owes d = s.said c d

variable {s : HeardRoom}

/-- A step that moves a goroutine on: what it no longer owes has had its end. -/
theorem Kept.turn (hs : s.Kept) {l : QueueLabel} {c : UserID} {p : Speaker}
    (hsaid : ∀ a d, s.room.saidBy l a d = []) (hother : ∀ a d, a ≠ c → s.room.fateBy l a d = [])
    (hloop : ∀ a, (s.room.step l).loop a = if a = c then p else s.room.loop a)
    (hp : ∀ d, s.room.closed d = false → s.room.isObserver d = false →
      (s.room.fateBy l c d).map Prod.fst ++ p.owes d = (s.room.loop c).owes d)
    (hstraight : p.Straight) (hclients : (s.room.step l).clients.Nodup)
    (hclosed : ∀ d, (s.room.step l).closed d = false → s.room.closed d = false)
    (hobserver : ∀ d, (s.room.step l).isObserver d = false → s.room.isObserver d = false) :
    (s.step l).Kept := by
  refine ⟨hclients, hs.flagged.step l, fun a => ?_, fun a d hopen hreal => ?_⟩
  · change ((s.room.step l).loop a).Straight
    rw [hloop]
    split_ifs
    · exact hstraight
    · exact hs.straight a
  · change (s.fates a d ++ s.room.fateBy l a d).map Prod.fst ++ ((s.room.step l).loop a).owes d =
      s.said a d ++ s.room.saidBy l a d
    have hopen' := hclosed d hopen
    have hreal' := hobserver d hreal
    have hold := hs.told a d hopen' hreal'
    rw [hsaid, List.append_nil, ← hold, List.map_append, List.append_assoc, hloop]
    by_cases ha : a = c
    · rw [if_pos ha, ha, hp d hopen' hreal']
    · rw [if_neg ha, hother a d ha, List.map_nil, List.nil_append]

theorem Kept.idle (hs : s.Kept) {l : QueueLabel} {c : UserID} {p : Speaker}
    (hsaid : ∀ a d, s.room.saidBy l a d = []) (hfate : ∀ a d, s.room.fateBy l a d = [])
    (hloop : ∀ a, (s.room.step l).loop a = if a = c then p else s.room.loop a)
    (hp : ∀ d, s.room.closed d = false → s.room.isObserver d = false →
      p.owes d = (s.room.loop c).owes d) (hstraight : p.Straight)
    (hclients : (s.room.step l).clients.Nodup)
    (hclosed : ∀ d, (s.room.step l).closed d = false → s.room.closed d = false)
    (hobserver : ∀ d, (s.room.step l).isObserver d = false → s.room.isObserver d = false) :
    (s.step l).Kept :=
  hs.turn hsaid (fun a d _ => hfate a d) hloop
    (fun d hopen hreal => by rw [hfate]; exact hp d hopen hreal) hstraight hclients hclosed hobserver

theorem Kept.move (hs : s.Kept) {l : QueueLabel} {c : UserID} {p : Speaker}
    (hsaid : ∀ a d, s.room.saidBy l a d = []) (hother : ∀ a d, a ≠ c → s.room.fateBy l a d = [])
    (hstep : s.room.step l = s.room.setLoop c p)
    (hp : ∀ d, s.room.closed d = false → s.room.isObserver d = false →
      (s.room.fateBy l c d).map Prod.fst ++ p.owes d = (s.room.loop c).owes d)
    (hstraight : p.Straight) : (s.step l).Kept := by
  refine hs.turn hsaid hother (fun a => ?_) hp hstraight ?_ ?_ ?_
  · rw [hstep]
    exact s.room.loop_setLoop c p a
  · rw [hstep]
    exact hs.clients
  · rw [hstep]
    exact fun _ h => h
  · rw [hstep]
    exact fun _ h => h

theorem Kept.still (hs : s.Kept) {l : QueueLabel}
    (hsaid : ∀ a d, s.room.saidBy l a d = []) (hfate : ∀ a d, s.room.fateBy l a d = [])
    (hloop : ∀ a, (s.room.step l).loop a = s.room.loop a)
    (hclients : (s.room.step l).clients.Nodup)
    (hclosed : ∀ d, (s.room.step l).closed d = false → s.room.closed d = false)
    (hobserver : ∀ d, (s.room.step l).isObserver d = false → s.room.isObserver d = false) :
    (s.step l).Kept := by
  refine hs.idle (c := "") (p := s.room.loop "") hsaid hfate (fun a => ?_) (fun _ _ _ => rfl)
    (hs.straight "") hclients hclosed hobserver
  rw [hloop]
  split_ifs with ha
  · rw [ha]
  · rfl

theorem Kept.same (hs : s.Kept) {l : QueueLabel}
    (hsaid : ∀ a d, s.room.saidBy l a d = []) (hfate : ∀ a d, s.room.fateBy l a d = [])
    (hstep : s.room.step l = s.room) : (s.step l).Kept := by
  refine hs.still hsaid hfate (fun _ => by rw [hstep]) ?_ ?_ ?_
  · rw [hstep]
    exact hs.clients
  · rw [hstep]
    exact fun _ h => h
  · rw [hstep]
    exact fun _ h => h

theorem audience_nodup (hs : s.Kept) (c : UserID) (kind : CastKind) :
    (s.room.audience c kind).Nodup := by
  cases kind with
  | except => exact hs.clients.filter _
  | toAllExcept => exact hs.clients.filter _
  | chat => exact hs.clients.filter _

theorem owes_casting (raw : String) (aim : Option UserID) (todo : List UserID) (phase : Phase)
    (d : UserID) : (Speaker.casting raw aim todo phase).owes d =
      if aim = some d ∨ d ∈ todo then [raw] else [] := rfl

theorem owes_unwound (phase : Phase) (d : UserID) : phase.unwound.owes d = [] := by
  cases phase <;> rfl

theorem owes_back (phase : Phase) (d : UserID) : phase.back.owes d = [] := by
  cases phase <;> rfl

theorem straight_unwound (phase : Phase) : phase.unwound.Straight := by
  cases phase <;> trivial

theorem straight_back (phase : Phase) : phase.back.Straight := by
  cases phase <;> trivial

theorem Kept.broadcast (hs : s.Kept) {c : UserID} {kind : CastKind} {raw : String}
    {rank : UserID → ℕ} {phase : Phase} (hidle : ∀ d, (s.room.loop c).owes d = [])
    (hstep : s.room.step (.broadcast c kind raw rank) = s.room.broadcast c kind raw rank phase)
    (hsaid : ∀ a d, s.room.saidBy (.broadcast c kind raw rank) a d =
      if a = c ∧ d ∈ s.room.audience c kind then [raw] else []) :
    (s.step (.broadcast c kind raw rank)).Kept := by
  refine ⟨?_, hs.flagged.step _, fun a => ?_, fun a d hopen hreal => ?_⟩
  · change (s.room.step _).clients.Nodup
    rw [hstep]
    exact hs.clients
  · change ((s.room.step _).loop a).Straight
    rw [hstep, RoomQueues.broadcast, loop_setLoop]
    split_ifs
    · exact rangeBy_nodup.2 (audience_nodup hs c kind)
    · exact hs.straight a
  · change (s.fates a d ++ []).map Prod.fst ++ ((s.room.step _).loop a).owes d = s.said a d ++ _
    change (s.room.step _).closed d = false at hopen
    change (s.room.step _).isObserver d = false at hreal
    rw [hstep] at hopen hreal
    rw [hsaid, hstep, RoomQueues.broadcast, loop_setLoop, List.append_nil]
    have hold := hs.told a d hopen hreal
    by_cases ha : a = c
    · rw [ha, hidle, List.append_nil] at hold
      rw [if_pos ha, ha, hold]
      simp [owes_casting]
    · rw [if_neg ha, if_neg (fun h => ha h.1), List.append_nil, hold]

/-- A send: the message has come to its end, or the broadcast has, which comes to nobody else. -/
theorem Kept.hand (hs : s.Kept) {c e : UserID} {raw : String} {todo : List UserID} {phase : Phase}
    (hl : s.room.loop c = .casting raw (some e) todo phase) : (s.step (.run c)).Kept := by
  let p : Speaker := if (s.room.sendCh e).closed then phase.unwound else .casting raw none todo phase
  have hstep : s.room.step (.run c) = (s.room.setLoop c p).offer e raw := by
    change s.room.run c = _
    simp only [RoomQueues.run, hl]
    rfl
  have hnodup : e ∉ todo ∧ todo.Nodup := by
    have := hs.straight c
    rw [hl] at this
    exact List.nodup_cons.1 this
  refine hs.turn (c := c) (p := p) (fun _ _ => rfl) (fun a d ha => ?_) (fun a => ?_)
    (fun d hopen hreal => ?_) ?_ ?_ ?_ ?_
  · simp only [fateBy, hl, if_pos ha]
  · rw [hstep]
    exact s.room.loop_setLoop c p a
  · by_cases hclosed : (s.room.sendCh e).closed = true
    · -- it panics, and not at `d`
      have hne : e ≠ d := by
        rintro rfl
        rw [hs.flagged e, hclosed] at hopen
        cases hopen
      by_cases htodo : d ∈ todo <;> simp [fateBy, hl, p, hclosed, owes_unwound, owes_casting, hne, htodo]
    · by_cases hd : d = e
      · subst hd
        simp [fateBy, hl, p, hclosed, owes_casting, hnodup.1]
      · simp [fateBy, hl, p, hclosed, owes_casting, hd, Ne.symm hd]
  · dsimp only [p]
    split_ifs
    · exact straight_unwound phase
    · exact hnodup.2
  · rw [hstep]
    exact hs.clients
  · rw [hstep]
    exact fun _ h => h
  · rw [hstep]
    exact fun _ h => h

theorem Kept.look (hs : s.Kept) {c e : UserID} {raw : String} {todo : List UserID} {phase : Phase}
    (hl : s.room.loop c = .casting raw none (e :: todo) phase) : (s.step (.run c)).Kept := by
  have hsaid : ∀ a d, s.room.saidBy (.run c) a d = [] := fun _ _ => rfl
  have hother : ∀ a d, a ≠ c → s.room.fateBy (.run c) a d = [] := by
    intro a d ha
    simp only [fateBy, hl, ha, false_and, if_false]
  have hnodup : (e :: todo).Nodup := by
    have := hs.straight c
    rwa [hl] at this
  have hrun : s.room.step (.run c) = s.room.run c := rfl
  by_cases hobserver : s.room.isObserver e = true
  · have hne : ∀ {d}, s.room.isObserver d = false → d ≠ e := by
      rintro d hreal rfl
      rw [hobserver] at hreal
      cases hreal
    by_cases hshut : s.room.shut e = true
    · refine hs.move (c := c) (p := phase.unwound) hsaid hother
        (by simp only [hrun, RoomQueues.run, hl, hobserver, hshut, if_true]) (fun d _ hreal => ?_)
        (straight_unwound phase)
      rw [hl, owes_unwound]
      by_cases hd : d ∈ todo <;> simp [fateBy, hl, hobserver, hshut, owes_casting, hne hreal, hd]
    · refine hs.move (c := c) (p := .casting raw none todo phase) hsaid hother
        (by simp only [hrun, RoomQueues.run, hl, hobserver, if_true]; rw [if_neg hshut])
        (fun d _ hreal => ?_) (List.nodup_cons.1 hnodup).2
      simp [fateBy, hl, hshut, owes_casting, hne hreal]
  · have hfate : ∀ d, s.room.fateBy (.run c) c d = [] := by
      intro d
      simp [fateBy, hl, hobserver]
    by_cases hclosed : s.room.closed e = true
    · refine hs.move (c := c) (p := .casting raw none todo phase) hsaid hother
        (by simp only [hrun, RoomQueues.run, hl, hclosed, if_true]; rw [if_neg hobserver])
        (fun d hopen _ => ?_) (List.nodup_cons.1 hnodup).2
      have hne : d ≠ e := by
        rintro rfl
        rw [hclosed] at hopen
        cases hopen
      rw [hfate, hl]
      simp [owes_casting, hne]
    · refine hs.move (c := c) (p := .casting raw (some e) todo phase) hsaid hother
        (by simp only [hrun, RoomQueues.run, hl]; rw [if_neg hobserver, if_neg hclosed])
        (fun d _ _ => ?_) hnodup
      rw [hfate, hl]
      simp [owes_casting, eq_comm]

theorem Kept.run (hs : s.Kept) (c : UserID) : (s.step (.run c)).Kept := by
  have hsaid : ∀ a d, s.room.saidBy (.run c) a d = [] := fun _ _ => rfl
  have hrun : s.room.step (.run c) = s.room.run c := rfl
  cases hl : s.room.loop c with
  | casting raw aim todo phase =>
    cases aim with
    | some e => exact hs.hand hl
    | none =>
      cases todo with
      | nil =>
        refine hs.move (c := c) (p := phase.back) hsaid (fun a d _ => by simp only [fateBy, hl])
          (by simp only [hrun, RoomQueues.run, hl]) (fun d _ _ => ?_) (straight_back phase)
        simp [fateBy, hl, owes_back, owes_casting]
      | cons e todo => exact hs.look hl
  | closing housed =>
    have hstep : s.room.step (.run c) =
        (s.room.setLoop c (if housed then .leaving else .gone)).close c := by
      simp only [hrun, RoomQueues.run, hl]
    refine hs.idle (p := if housed then .leaving else .gone) hsaid
      (fun a d => by simp only [fateBy, hl]) (fun a => ?_)
      (fun d _ _ => by rw [hl]; split_ifs <;> rfl) (by split_ifs <;> trivial) ?_ ?_ ?_
    · rw [hstep]
      exact s.room.loop_setLoop c _ a
    · rw [hstep]
      exact hs.clients
    · intro d hd
      rw [hstep] at hd
      simp only [close, setLoop, Function.update_apply] at hd
      split_ifs at hd
      exact hd
    · rw [hstep]
      exact fun _ h => h
  | leaving =>
    have hfate : ∀ a d, s.room.fateBy (.run c) a d = [] := by
      intro a d
      simp only [fateBy, hl]
    by_cases hread : s.room.unread = true
    · have hstep : s.room.step (.run c) = (s.room.setLoop c .departed).remove c := by
        simp only [hrun, RoomQueues.run, hl, hread, if_true]
      refine hs.idle (p := .departed) hsaid hfate (fun a => ?_) (fun d _ _ => by rw [hl]; rfl)
        trivial ?_ ?_ ?_
      · rw [hstep]
        exact s.room.loop_setLoop c _ a
      · rw [hstep]
        exact hs.clients.filter _
      · rw [hstep]
        exact fun _ h => h
      · rw [hstep]
        exact fun _ h => h
    · refine hs.same hsaid hfate ?_
      simp only [hrun, RoomQueues.run, hl]
      rw [if_neg hread]
  | joining =>
    refine hs.move (c := c) (p := .serving) hsaid (fun a d _ => by simp only [fateBy, hl])
      (by simp only [hrun, RoomQueues.run, hl]) (fun d _ _ => ?_) trivial
    simp only [fateBy, hl]
    rfl
  | departed =>
    refine hs.move (c := c) (p := .gone) hsaid (fun a d _ => by simp only [fateBy, hl])
      (by simp only [hrun, RoomQueues.run, hl]) (fun d _ _ => ?_) trivial
    simp only [fateBy, hl]
    rfl
  | outside | serving | gone =>
    exact hs.same hsaid (fun a d => by simp only [fateBy, hl])
      (by simp only [hrun, RoomQueues.run, hl])

theorem Kept.step (hs : s.Kept) (l : QueueLabel) : (s.step l).Kept := by
  cases l with
  | run c => exact hs.run c
  | broadcast c kind raw rank =>
    cases hl : s.room.loop c with
    | joining =>
      have hstep : s.room.step (.broadcast c kind raw rank) =
          s.room.broadcast c kind raw rank .joining := by simp only [RoomQueues.step, hl]
      exact hs.broadcast (fun _ => by rw [hl]; rfl) hstep (fun a d => by simp only [saidBy, hl])
    | serving =>
      have hstep : s.room.step (.broadcast c kind raw rank) =
          s.room.broadcast c kind raw rank .serving := by simp only [RoomQueues.step, hl]
      exact hs.broadcast (fun _ => by rw [hl]; rfl) hstep (fun a d => by simp only [saidBy, hl])
    | departed =>
      have hstep : s.room.step (.broadcast c kind raw rank) =
          s.room.broadcast c kind raw rank .departed := by simp only [RoomQueues.step, hl]
      exact hs.broadcast (fun _ => by rw [hl]; rfl) hstep (fun a d => by simp only [saidBy, hl])
    | outside | casting | closing | leaving | gone =>
      exact hs.same (fun a d => by simp only [saidBy, hl]) (fun _ _ => rfl)
        (by simp only [RoomQueues.step, hl])
  | exit c =>
    cases hl : s.room.loop c with
    | serving =>
      exact hs.move (c := c) (p := .closing true) (fun _ _ => rfl) (fun _ _ _ => rfl)
        (by simp only [RoomQueues.step, hl]) (fun d _ _ => by rw [hl]; rfl) trivial
    | outside | joining | casting | closing | leaving | departed | gone =>
      exact hs.same (fun _ _ => rfl) (fun _ _ => rfl) (by simp only [RoomQueues.step, hl])
  | join c =>
    by_cases hin : s.room.loop c = .outside ∧ s.room.unread = true
    · have hstep : s.room.step (.join c) = (s.room.setLoop c .joining).enter c := by
        simp only [RoomQueues.step, hin.1, hin.2, if_true]
      refine hs.idle (p := .joining) (fun _ _ => rfl) (fun _ _ => rfl) (fun a => ?_)
        (fun d _ _ => by rw [hin.1]; rfl) trivial ?_ ?_ ?_
      · rw [hstep]
        exact s.room.loop_setLoop c _ a
      · rw [hstep]
        exact hs.clients.insert
      · rw [hstep]
        exact fun _ h => h
      · rw [hstep]
        exact fun _ h => h
    · refine hs.same (fun _ _ => rfl) (fun _ _ => rfl) ?_
      simp only [RoomQueues.step]
      split
      · rename_i hout
        exact if_neg fun hread => hin ⟨hout, hread⟩
      · rfl
  | observe o =>
    by_cases hin : (s.room.unread && o ∉ s.room.clients) = true
    · have hstep : s.room.step (.observe o) =
          { s.room.enter o with isObserver := Function.update s.room.isObserver o true } := by
        simp only [RoomQueues.step, hin, if_true]
      refine hs.still (fun _ _ => rfl) (fun _ _ => rfl) (fun a => ?_) ?_ ?_ ?_
      · rw [hstep]
        rfl
      · rw [hstep]
        exact hs.clients.insert
      · rw [hstep]
        exact fun _ h => h
      · intro d hd
        rw [hstep] at hd
        simp only [Function.update_apply] at hd
        split_ifs at hd
        exact hd
    · exact hs.same (fun _ _ => rfl) (fun _ _ => rfl) (if_neg hin)
  | unobserve o =>
    by_cases hin : (s.room.unread && s.room.isObserver o) = true
    · have hstep : s.room.step (.unobserve o) = s.room.remove o := by
        simp only [RoomQueues.step, hin, if_true]
      refine hs.still (fun _ _ => rfl) (fun _ _ => rfl) (fun a => ?_) ?_ ?_ ?_
      · rw [hstep]
        rfl
      · rw [hstep]
        exact hs.clients.filter _
      · rw [hstep]
        exact fun _ h => h
      · rw [hstep]
        exact fun _ h => h
    · exact hs.same (fun _ _ => rfl) (fun _ _ => rfl) (if_neg hin)
  | send c raw =>
    by_cases hclosed : s.room.closed c = true
    · exact hs.same (fun _ _ => rfl) (fun _ _ => rfl) (if_pos hclosed)
    · have hstep : s.room.step (.send c raw) = s.room.offer c raw := if_neg hclosed
      refine hs.still (fun _ _ => rfl) (fun _ _ => rfl) (fun a => ?_) ?_ ?_ ?_
      · rw [hstep]
        rfl
      · rw [hstep]
        exact hs.clients
      · rw [hstep]
        exact fun _ h => h
      · rw [hstep]
        exact fun _ h => h
  | shut o =>
    exact hs.still (fun _ _ => rfl) (fun _ _ => rfl) (fun _ => rfl) hs.clients (fun _ h => h)
      fun _ h => h
  | write c =>
    exact hs.still (fun _ _ => rfl) (fun _ _ => rfl) (fun _ => rfl) hs.clients (fun _ h => h)
      fun _ h => h

/-! ### The queues -/

theorem queue_offer (ch : Channel String) (raw : String) :
    (ch.offer raw).queue = ch.queue ++ if ch.HasSpace then [raw] else [] := by
  by_cases h : ch.HasSpace
  · rw [Channel.offer_space _ _ h, if_pos h]
  · rw [Channel.offer_full _ _ h, if_neg h, List.append_nil]

theorem queue_send (r : RoomQueues) (e d : UserID) (raw : String) (c : Option UserID) :
    ((r.offer e raw).sendCh d).queue = (r.sendCh d).queue ++
      (if d = e ∧ (r.sendCh e).HasSpace then [(c, raw)] else []).map Prod.snd := by
  simp only [offer, Function.update_apply]
  by_cases hd : d = e
  · subst hd
    rw [if_pos rfl, queue_offer]
    by_cases hspace : (r.sendCh d).HasSpace <;> simp [hspace]
  · simp [hd]

theorem queue_step (r : RoomQueues) (l : QueueLabel) (d : UserID) :
    r.takenBy l d ++ ((r.step l).sendCh d).queue =
      (r.sendCh d).queue ++ (r.acceptedBy l d).map Prod.snd := by
  cases l with
  | run c =>
    change ((r.run c).sendCh d).queue = _
    cases hl : r.loop c with
    | casting raw aim todo phase =>
      cases aim with
      | some e =>
        simp only [RoomQueues.run, acceptedBy, hl]
        exact queue_send _ e d raw (some c)
      | none =>
        cases todo with
        | nil => simp only [RoomQueues.run, acceptedBy, hl]; exact (List.append_nil _).symm
        | cons e todo =>
          simp only [RoomQueues.run, acceptedBy, hl]
          split_ifs <;> exact (List.append_nil _).symm
    | closing housed =>
      simp only [RoomQueues.run, acceptedBy, hl, close, List.map_nil, List.append_nil]
      by_cases hd : d = c
      · rw [hd, Function.update_self]; rfl
      · rw [Function.update_of_ne hd]; rfl
    | leaving =>
      simp only [RoomQueues.run, acceptedBy, hl]
      split_ifs <;> exact (List.append_nil _).symm
    | outside | joining | serving | departed | gone =>
      simp only [RoomQueues.run, acceptedBy, hl]
      exact (List.append_nil _).symm
  | send c raw =>
    change ((r.step _).sendCh d).queue = _
    simp only [RoomQueues.step, acceptedBy]
    cases hclosed : r.closed c with
    | true => simp
    | false =>
      simp only [Bool.false_eq_true, if_false, true_and]
      exact queue_send r c d raw none
  | write c =>
    simp only [takenBy, RoomQueues.step, acceptedBy, Function.update_apply]
    split_ifs with hd
    · rw [hd, Channel.receive]
      cases (r.sendCh c).queue <;> simp
    · simp
  | join c =>
    simp only [takenBy, RoomQueues.step, acceptedBy]
    split
    · split_ifs <;> exact (List.append_nil _).symm
    · exact (List.append_nil _).symm
  | observe o =>
    simp only [takenBy, RoomQueues.step, acceptedBy]
    split_ifs <;> exact (List.append_nil _).symm
  | unobserve o =>
    simp only [takenBy, RoomQueues.step, acceptedBy]
    split_ifs <;> exact (List.append_nil _).symm
  | shut o => exact (List.append_nil _).symm
  | broadcast c kind raw rank =>
    simp only [takenBy, RoomQueues.step, acceptedBy]
    split <;> exact (List.append_nil _).symm
  | exit c =>
    simp only [takenBy, RoomQueues.step, acceptedBy]
    split <;> exact (List.append_nil _).symm

/-- A queue hands on what it has accepted, in that order. -/
def Queued (s : HeardRoom) : Prop :=
  ∀ d, s.taken d ++ (s.room.sendCh d).queue = (s.inbox d).map Prod.snd

theorem Queued.step (hs : s.Queued) (l : QueueLabel) : (s.step l).Queued := by
  intro d
  change (s.taken d ++ s.room.takenBy l d) ++ ((s.room.step l).sendCh d).queue =
    (s.inbox d ++ s.room.acceptedBy l d).map Prod.snd
  rw [List.append_assoc, queue_step, ← List.append_assoc, hs d, List.map_append]

theorem accepted_heard (r : RoomQueues) (l : QueueLabel) (c d : UserID) :
    ((r.acceptedBy l d).filter (·.1 = some c)).map Prod.snd =
      ((r.fateBy l c d).filter (·.2 = .heard)).map Prod.fst := by
  cases l with
  | run a =>
    cases hl : r.loop a with
    | casting raw aim todo phase =>
      cases aim with
      | none =>
        cases todo with
        | nil => simp only [acceptedBy, fateBy, hl]; rfl
        | cons e todo =>
          simp only [acceptedBy, fateBy, hl]
          split_ifs <;> rfl
      | some e =>
        simp only [acceptedBy, fateBy, hl]
        by_cases hc : c = a
        · subst hc
          by_cases hclosed : (r.sendCh e).closed = true
          · have hspace : ¬(r.sendCh e).HasSpace := fun h => h (Or.inl hclosed)
            by_cases htodo : d ∈ todo <;> simp [hclosed, hspace, htodo]
          · by_cases hd : d = e
            · by_cases hspace : (r.sendCh e).HasSpace <;> simp [hclosed, hspace, hd]
            · simp [hclosed, hd]
        · by_cases hd : d = e ∧ (r.sendCh e).HasSpace <;> simp [hc, Ne.symm hc, hd]
    | outside | joining | serving | closing | leaving | departed | gone =>
      simp only [acceptedBy, fateBy, hl]
      rfl
  | send a raw =>
    simp only [acceptedBy, fateBy]
    split_ifs <;> rfl
  | _ => rfl

def Heard (s : HeardRoom) : Prop :=
  ∀ c d, s.heard c d = ((s.fates c d).filter (·.2 = .heard)).map Prod.fst

theorem Heard.step (hs : s.Heard) (l : QueueLabel) : (s.step l).Heard := by
  intro c d
  change ((s.inbox d ++ s.room.acceptedBy l d).filter _).map _ =
    ((s.fates c d ++ s.room.fateBy l c d).filter _).map _
  rw [List.filter_append, List.filter_append, List.map_append, List.map_append, accepted_heard,
    ← hs c d]
  rfl

/-! ### The senders -/

theorem parting_unwound (phase : Phase) : phase.unwound.parting = true := by
  cases phase <;> rfl

theorem run_loop_ne (r : RoomQueues) {a c : UserID} (ha : c ≠ a) :
    (r.run a).loop c = r.loop c := by
  have hloop : ∀ p, (r.setLoop a p).loop c = r.loop c := fun p => by
    rw [loop_setLoop, if_neg ha]
  unfold RoomQueues.run
  split
  · exact hloop _
  · exact hloop _
  · split_ifs <;> exact hloop _
  · exact hloop _
  · exact hloop _
  · split_ifs
    · exact hloop _
    · rfl
  · exact hloop _
  · rfl

theorem parting_setLoop (r : RoomQueues) {a c : UserID} {p : Speaker}
    (h : (r.loop c).parting = true) (hp : c = a → p.parting = true) :
    ((r.setLoop a p).loop c).parting = true := by
  rw [loop_setLoop]
  split_ifs with ha
  · exact hp ha
  · exact h

theorem parting_run (r : RoomQueues) {c : UserID} (h : (r.loop c).parting = true) :
    ((r.run c).loop c).parting = true := by
  have hset : ∀ p : Speaker, p.parting = true → ((r.setLoop c p).loop c).parting = true :=
    fun p hp => parting_setLoop r h fun _ => hp
  cases hl : r.loop c with
  | casting raw aim todo phase =>
    rw [hl] at h
    obtain rfl : phase = .departed := of_decide_eq_true h
    cases aim with
    | some e =>
      simp only [RoomQueues.run, hl]
      exact hset _ (by split_ifs <;> rfl)
    | none =>
      cases todo with
      | nil => simp only [RoomQueues.run, hl]; exact hset _ rfl
      | cons e todo =>
        simp only [RoomQueues.run, hl]
        split_ifs <;> exact hset _ rfl
  | closing housed =>
    simp only [RoomQueues.run, hl]
    exact hset _ (by split_ifs <;> rfl)
  | leaving =>
    simp only [RoomQueues.run, hl]
    split_ifs
    · exact hset _ rfl
    · exact h
  | departed => simp only [RoomQueues.run, hl]; exact hset _ rfl
  | gone => simp only [RoomQueues.run, hl]; rfl
  | outside | joining | serving => rw [hl] at h; cases h

/-- Whoever has begun to depart never serves again. -/
theorem parting_step (r : RoomQueues) (l : QueueLabel) {c : UserID}
    (h : (r.loop c).parting = true) : ((r.step l).loop c).parting = true := by
  cases l with
  | run a =>
    change ((r.run a).loop c).parting = true
    by_cases ha : c = a
    · exact ha ▸ parting_run r h
    · rwa [run_loop_ne r ha]
  | join a =>
    simp only [RoomQueues.step]
    split
    · rename_i hl
      split_ifs
      · refine parting_setLoop r h fun ha => ?_
        rw [ha, hl] at h
        cases h
      · exact h
    · exact h
  | observe o => simp only [RoomQueues.step]; split_ifs <;> exact h
  | unobserve o => simp only [RoomQueues.step]; split_ifs <;> exact h
  | shut o => exact h
  | broadcast a kind raw rank =>
    simp only [RoomQueues.step]
    split
    · rename_i hl
      exact parting_setLoop r h fun ha => by rw [ha, hl] at h; cases h
    · rename_i hl
      exact parting_setLoop r h fun ha => by rw [ha, hl] at h; cases h
    · exact parting_setLoop r h fun _ => rfl
    · exact h
  | exit a =>
    simp only [RoomQueues.step]
    split
    · exact parting_setLoop r h fun _ => rfl
    · exact h
  | send a raw => simp only [RoomQueues.step]; split_ifs <;> exact h
  | write a => exact h

theorem parting_of_cut (r : RoomQueues) (l : QueueLabel) {c d : UserID} {raw : String}
    (h : (raw, .cut) ∈ r.fateBy l c d) : ((r.step l).loop c).parting = true := by
  cases l with
  | run a =>
    have hset : ∀ p, (r.setLoop c p).loop c = p := fun p => by rw [loop_setLoop, if_pos rfl]
    cases hl : r.loop a with
    | casting said aim todo phase =>
      cases aim with
      | none =>
        cases todo with
        | nil => simp [fateBy, hl] at h
        | cons e todo =>
          simp only [fateBy, hl] at h
          split_ifs at h with hcut
          · obtain ⟨rfl, hobserver, hshut, -⟩ := hcut
            have hstep : (r.step (.run c)).loop c = phase.unwound := by
              change (r.run c).loop c = _
              simp only [RoomQueues.run, hl, hobserver, hshut, if_true]
              exact hset _
            rw [hstep]
            exact parting_unwound phase
          · exact absurd h List.not_mem_nil
      | some e =>
        simp only [fateBy, hl] at h
        split_ifs at h with ha hclosed htodo hd hspace
        · exact absurd h List.not_mem_nil
        · obtain rfl : c = a := not_not.1 ha
          have hstep : (r.step (.run c)).loop c = phase.unwound := by
            change (r.run c).loop c = _
            simp only [RoomQueues.run, hl, hclosed, if_true]
            exact hset _
          rw [hstep]
          exact parting_unwound phase
        all_goals simp at h
    | outside | joining | serving | closing | leaving | departed | gone => simp [fateBy, hl] at h
  | _ => exact absurd h List.not_mem_nil

def Cut (s : HeardRoom) : Prop :=
  ∀ c d raw, (raw, .cut) ∈ s.fates c d → (s.room.loop c).parting = true

theorem Cut.step (hs : s.Cut) (l : QueueLabel) : (s.step l).Cut := by
  intro c d raw h
  rcases List.mem_append.1 h with hold | hnew
  · exact parting_step _ l (hs c d raw hold)
  · exact parting_of_cut _ l hnew

end HeardRoom

def heardRoom : Machine HeardRoom QueueLabel where
  init := {}
  step := HeardRoom.step

theorem heardRoom_kept (ls : List QueueLabel) : (heardRoom.run ls).Kept :=
  Machine.run_invariant ⟨List.nodup_nil, fun _ => rfl, fun _ => trivial, fun _ _ _ _ => rfl⟩
    (fun _ l hs => hs.step l) ls

theorem heardRoom_room (ls : List QueueLabel) : (heardRoom.run ls).room = roomQueues.run ls :=
  Machine.run_proj HeardRoom.room rfl (fun _ _ => rfl) ls

/-- Whatever order the goroutines of a room take their turns in: of everything a client has
said for a business client to hear that has not begun to depart, each message has come to
one end, in the order said, but for the one now under way. It is heard, being in the queue
or taken from it in its turn, or the queue was full, or the broadcast panicked before it
came there; and then its sender departs. -/
theorem broadcasts_heard_in_order (ls : List QueueLabel) (c d : UserID)
    (hopen : (roomQueues.run ls).closed d = false)
    (hreal : (roomQueues.run ls).isObserver d = false) :
    let s := heardRoom.run ls
    (s.fates c d).map Prod.fst ++ ((roomQueues.run ls).loop c).owes d = s.said c d ∧
      s.heard c d = ((s.fates c d).filter (·.2 = .heard)).map Prod.fst ∧
      s.taken d ++ ((roomQueues.run ls).sendCh d).queue = (s.inbox d).map Prod.snd ∧
      (((roomQueues.run ls).loop c).parting = false → ∀ raw, (raw, .cut) ∉ s.fates c d) := by
  rw [← heardRoom_room] at hopen hreal ⊢
  have hheard : (heardRoom.run ls).Heard :=
    Machine.run_invariant (fun _ _ => rfl) (fun _ l hs => hs.step l) ls
  have hqueued : (heardRoom.run ls).Queued :=
    Machine.run_invariant (fun _ => rfl) (fun _ l hs => hs.step l) ls
  have hcut : (heardRoom.run ls).Cut := Machine.run_invariant
    (fun _ _ _ h => absurd h List.not_mem_nil) (fun _ l hs => hs.step l) ls
  refine ⟨(heardRoom_kept ls).told c d hopen hreal, hheard c d, hqueued d, fun hstays raw h => ?_⟩
  rw [hcut c d raw h] at hstays
  cases hstays

/-- Alice and Bob chat at the same time, each to itself first. -/
def crossedChats : List QueueLabel :=
  [.join "alice", .run "alice", .join "bob", .run "bob",
    .broadcast "alice" .chat "a" (fun c => if c = "alice" then 0 else 1),
    .broadcast "bob" .chat "b" (fun c => if c = "bob" then 0 else 1), .run "alice", .run "alice",
    .run "bob", .run "bob", .run "alice", .run "alice", .run "bob"]

theorem crossed_chats_heard :
    let s := heardRoom.run crossedChats
    (s.fates "bob" "alice").map Prod.fst ++ ((roomQueues.run crossedChats).loop "bob").owes "alice" =
        s.said "bob" "alice" ∧
      s.heard "bob" "alice" = ((s.fates "bob" "alice").filter (·.2 = .heard)).map Prod.fst ∧
      s.taken "alice" ++ ((roomQueues.run crossedChats).sendCh "alice").queue =
        (s.inbox "alice").map Prod.snd ∧
      (((roomQueues.run crossedChats).loop "bob").parting = false →
        ∀ raw, (raw, .cut) ∉ s.fates "bob" "alice") :=
  broadcasts_heard_in_order crossedChats "bob" "alice" (by decide +kernel) (by decide +kernel)

/-- Only one sender's messages keep their order: the log is not the same for all. -/
example : ((roomQueues.run (crossedChats ++ [.run "bob"])).sendCh "alice").queue = ["a", "b"] ∧
    ((roomQueues.run (crossedChats ++ [.run "bob"])).sendCh "bob").queue = ["b", "a"] := by
  decide +kernel

end Meetkit
