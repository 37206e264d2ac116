import Meetkit.Model.ForceKick
import Meetkit.Proofs.Runs

/-! Whether a kicked member is told why. What an outbound queue has accepted goes over the
connection in its order, so the notice goes over it once the writeLoop has written
everything ahead of it. The connection is closed whether it has or not. -/

namespace Meetkit

namespace Outbox

variable {o o' : Outbox} {m : Outgoing} {n : KickId} {es : List Outgoing}

/-- How many messages the writeLoop has in hand and in the queue. -/
def backlog (o : Outbox) : ℕ := o.writeLoop.inHand.length + o.sendCh.queue.length

/-- What has been accepted, written or not, in its order. -/
def accepted (o : Outbox) : List Outgoing := o.written ++ o.writeLoop.inHand ++ o.sendCh.queue

theorem accepted_length (o : Outbox) : o.accepted.length = o.written.length + o.backlog := by
  rw [accepted, backlog, List.length_append, List.length_append, Nat.add_assoc]

/-- A step that is no part of a `ForceKick`. -/
structure Serves (o o' : Outbox) : Prop where
  closedBy : o'.closedBy = o.closedBy
  grows : o.closedBy = none → ∃ es, o'.accepted = o.accepted ++ es ∧ ∀ m ∈ es, m.kick = none
  sent : ∀ m ∈ o'.accepted, m ∈ o.accepted ∨ m.kick = none
  written : ∀ m ∈ o.written, m ∈ o'.written
  closed : o.closedBy ≠ none → o'.written = o.written

theorem send_accepted (h : o.sendCh.HasSpace) (m : Outgoing) :
    (o.send m).accepted = o.accepted ++ [m] := by
  rw [accepted, send, Channel.offer_space _ _ h, accepted]
  exact (List.append_assoc _ _ _).symm

theorem send_dropped (h : ¬o.sendCh.HasSpace) (m : Outgoing) : o.send m = o := by
  rw [send, Channel.offer_full _ _ h]

theorem grows_by_none {P : Outgoing → Prop} (hacc : o'.accepted = o.accepted) :
    ∃ es, o'.accepted = o.accepted ++ es ∧ ∀ m ∈ es, P m :=
  ⟨[], by rw [hacc, List.append_nil], fun _ h => absurd h List.not_mem_nil⟩

/-- A send accepts its message or nothing. -/
theorem send_grows {P : Outgoing → Prop} (o : Outbox) (hm : P m) :
    ∃ es, (o.send m).accepted = o.accepted ++ es ∧ ∀ m ∈ es, P m := by
  by_cases h : o.sendCh.HasSpace
  · exact ⟨[m], send_accepted h m, fun _ h => List.mem_singleton.1 h ▸ hm⟩
  · exact grows_by_none (by rw [send_dropped h])

theorem serves_send (hm : m.kick = none) : o.Serves (o.send m) := by
  have hes := o.send_grows (P := fun m => m.kick = none) hm
  refine ⟨rfl, fun _ => hes, fun m' hm' => ?_, fun _ h => h, fun _ => rfl⟩
  obtain ⟨es, hacc, hkick⟩ := hes
  rw [hacc] at hm'
  exact (List.mem_append.1 hm').imp_right (hkick m')

theorem Serves.quiet (hclosed : o'.closedBy = o.closedBy)
    (hacc : o.closedBy = none → o'.accepted = o.accepted) (hsub : ∀ m ∈ o'.accepted, m ∈ o.accepted)
    (hwritten : ∀ m ∈ o.written, m ∈ o'.written)
    (hsame : o.closedBy ≠ none → o'.written = o.written) : o.Serves o' :=
  ⟨hclosed, fun hopen => grows_by_none (hacc hopen), fun m hm => Or.inl (hsub m hm), hwritten, hsame⟩

theorem Serves.refl (o : Outbox) : o.Serves o :=
  .quiet rfl (fun _ => rfl) (fun _ h => h) (fun _ h => h) fun _ => rfl

theorem serves_take (o : Outbox) : o.Serves o.take := by
  have hacc : o.take.accepted = o.accepted := by
    unfold take
    cases hw : o.writeLoop with
    | waiting =>
      cases hq : o.sendCh.queue with
      | nil =>
        dsimp only
        split_ifs
        · simp only [accepted, hw, WriteLoop.inHand]
        · rfl
      | cons m q => simp [accepted, hw, hq, WriteLoop.inHand, Channel.receive]
    | writing m => rfl
    | returned => rfl
  have hrest : o.take.closedBy = o.closedBy ∧ o.take.written = o.written := by
    unfold take
    split
    · exact ⟨rfl, rfl⟩
    · split_ifs <;> exact ⟨rfl, rfl⟩
    · exact ⟨rfl, rfl⟩
  exact .quiet hrest.1 (fun _ => hacc) (fun m hm => hacc ▸ hm) (fun m hm => hrest.2 ▸ hm)
    fun _ => hrest.2

theorem serves_write (o : Outbox) : o.Serves o.write := by
  unfold write
  cases hw : o.writeLoop with
  | waiting => exact .refl o
  | returned => exact .refl o
  | writing m =>
    dsimp only
    split_ifs with hopen
    · have hacc : Outbox.accepted { o with writeLoop := .waiting, written := o.written ++ [m] } =
          o.accepted := by
        simp [accepted, hw, WriteLoop.inHand]
      exact .quiet rfl (fun _ => hacc) (fun m' hm' => hacc ▸ hm')
        (fun m' hm' => List.mem_append_left _ hm') fun hclosed => absurd hopen hclosed
    · refine .quiet rfl (fun h => absurd h hopen) (fun m' hm' => ?_) (fun _ h => h) fun _ => rfl
      -- the message in hand is lost
      simp only [accepted, WriteLoop.inHand, List.append_nil, List.mem_append] at hm' ⊢
      exact hm'.imp_left Or.inl

theorem serves_cleanup (o : Outbox) : o.Serves o.cleanup := by
  unfold cleanup
  split_ifs
  · exact .refl o
  · exact .quiet rfl (fun _ => rfl) (fun _ h => h) (fun _ h => h) fun _ => rfl

theorem close_closedBy (o : Outbox) (n : KickId) :
    o.closedBy = none ∧ (o.close n).closedBy = some n ∨
      o.closedBy ≠ none ∧ (o.close n).closedBy = o.closedBy := by
  cases h : o.closedBy with
  | none => exact Or.inl ⟨rfl, by rw [close, h]; rfl⟩
  | some k => exact Or.inr ⟨Option.some_ne_none k, by rw [close, h]; rfl⟩

theorem mem_written_accepted (h : m ∈ o.written) : m ∈ o.accepted :=
  List.mem_append_left _ (List.mem_append_left _ h)

/-- A new message has gone over the connection when everything ahead of it has. -/
theorem mem_written (hnew : m ∉ o.accepted) (hacc : o'.accepted = o.accepted ++ m :: es) :
    m ∈ o'.written ↔ o.accepted.length < o'.written.length := by
  have htake : o'.written = (o.accepted ++ m :: es).take o'.written.length := by
    rw [← hacc, accepted, List.append_assoc, List.take_left]
  constructor
  · intro hm
    by_contra hle
    rw [htake, List.take_append_of_le_length (not_lt.1 hle)] at hm
    exact hnew (List.mem_of_mem_take hm)
  · intro hlt
    obtain ⟨k, hk⟩ := Nat.exists_eq_add_of_lt hlt
    rw [htake, hk, Nat.add_assoc, List.take_length_add_append, List.take_succ_cons]
    exact List.mem_append_right _ List.mem_cons_self

end Outbox

namespace Kicks

variable {s : Kicks} {l : KickLabel} {c : UserID} {n : KickId} {o : Outbox}

structure Sound (s : Kicks) : Prop where
  fresh : ∀ n, s.newCall ≤ n → s.call n = {}
  closer : ∀ c n, (s.outbox c).closedBy = some n → n < s.newCall
  origin : ∀ c n, ∀ m ∈ (s.outbox c).accepted, m.kick = some n → n < s.newCall
  nodup : ∀ n, (s.call n).todo.Nodup
  unsent : ∀ n, ∀ c ∈ (s.call n).todo, s.notice n ∉ (s.outbox c).accepted

/-- What may be put into the queue of `c`: not the notice of a call that is still to send
one to `c`. -/
def MaySend (s : Kicks) (c : UserID) (m : Outgoing) : Prop :=
  ∀ n, m.kick = some n → n < s.newCall ∧ c ∉ (s.call n).todo

def Told (s : Kicks) : Prop :=
  ∀ c n, (s.outbox c).closedBy = some n → s.notice n ∈ (s.outbox c).written

def Sends (s : Kicks) (n : KickId) (c : UserID) : Prop :=
  (s.call n).closing = none ∧ (s.call n).todo.head? = some c ∧ (s.hub.client c).hasConn = true

def Closes (s : Kicks) (n : KickId) (c : UserID) : Prop :=
  (s.call n).closing = some c ∧ (s.outbox c).closedBy = none

/-- What the step writes on the connection of `c`. -/
def writesAt (s : Kicks) (c : UserID) : KickLabel → ℕ
  | .write d => if d = c then (s.outbox c).writeLoop.inHand.length else 0
  | _ => 0

/-- How many messages the writeLoop of `c` writes in a run from `s`. -/
def writes (c : UserID) : Kicks → List KickLabel → ℕ
  | _, [] => 0
  | s, l :: ls => s.writesAt c l + writes c (s.step l) ls

/-- Whenever a call has sent its notice to `c` and closes the open connection by its next
step, the queue had space for the notice, and in between the writeLoop of `c` has written
more messages than it had in hand and in the queue then. -/
def InTime (ls : List KickLabel) : Prop :=
  ∀ pre mid post n c, ls = pre ++ .forceKick n :: (mid ++ .forceKick n :: post) →
    (∀ l ∈ mid, l ≠ .forceKick n) → (kicks.run pre).Sends n c →
    (kicks.run (pre ++ .forceKick n :: mid)).Closes n c →
      ((kicks.run pre).outbox c).sendCh.HasSpace ∧
        ((kicks.run pre).outbox c).backlog < writes c (kicks.run (pre ++ [.forceKick n])) mid

def Reported (s : Kicks) : KickLabel → Prop
  | .forceKick n => ∀ c, s.Closes n c → s.notice n ∈ (s.outbox c).written
  | _ => True

@[simp] theorem setOutbox_same : (s.setOutbox c o).outbox c = o := Function.update_self ..

theorem setOutbox_ne {d : UserID} (h : d ≠ c) : (s.setOutbox c o).outbox d = s.outbox d :=
  Function.update_of_ne h ..

@[simp] theorem setCall_same {x : KickCall} : (s.setCall n x).call n = x := Function.update_self ..

theorem setCall_ne {x : KickCall} {k : KickId} (h : k ≠ n) : (s.setCall n x).call k = s.call k :=
  Function.update_of_ne h ..

theorem notice_setCall {x : KickCall} (h : x.reason = (s.call n).reason) (k : KickId) :
    (s.setCall n x).notice k = s.notice k := by
  by_cases hk : k = n
  · subst hk
    rw [notice, setCall_same, h, notice]
  · rw [notice, setCall_ne hk, notice]

theorem notice_startCall {victims : List UserID} {reason : String} (h : n ≠ s.newCall) :
    (s.startCall reason victims).notice n = s.notice n := by
  have hcall : (s.startCall reason victims).call n = s.call n := setCall_ne h
  rw [notice, hcall, notice]

namespace Sound

theorem setOutbox (hs : s.Sound) (hcloser : ∀ k, o.closedBy = some k → k < s.newCall)
    (hsent : ∀ m ∈ o.accepted, m ∈ (s.outbox c).accepted ∨ s.MaySend c m) :
    (s.setOutbox c o).Sound := by
  refine ⟨hs.fresh, fun d k hd => ?_, fun d k m hm hkick => ?_, hs.nodup, fun k d hd hmem => ?_⟩
  all_goals by_cases hdc : d = c
  · subst hdc
    rw [setOutbox_same] at hd
    exact hcloser k hd
  · rw [setOutbox_ne hdc] at hd
    exact hs.closer d k hd
  · subst hdc
    rw [setOutbox_same] at hm
    rcases hsent m hm with hm | hnew
    · exact hs.origin d k m hm hkick
    · exact (hnew k hkick).1
  · rw [setOutbox_ne hdc] at hm
    exact hs.origin d k m hm hkick
  · subst hdc
    rw [setOutbox_same] at hmem
    rcases hsent _ hmem with hm | hnew
    · exact hs.unsent k d hd hm
    · exact (hnew k rfl).2 hd
  · rw [setOutbox_ne hdc] at hmem
    exact hs.unsent k d hd hmem

theorem serve (hs : s.Sound) (h : (s.outbox c).Serves o) : (s.setOutbox c o).Sound := by
  refine hs.setOutbox (fun k hk => hs.closer c k (h.closedBy ▸ hk)) fun m hm => ?_
  refine (h.sent m hm).imp_right fun hnone k hk => ?_
  rw [hnone] at hk
  cases hk

theorem startCall (hs : s.Sound) {victims : List UserID} (hnodup : victims.Nodup) (reason : String) :
    (s.startCall reason victims).Sound := by
  have hold : ∀ k, k ≠ s.newCall → (s.startCall reason victims).call k = s.call k :=
    fun k hk => setCall_ne hk
  have hnew : (s.startCall reason victims).call s.newCall =
      { reason := if reason = "" then "您已被管理员移出" else reason, todo := victims } := setCall_same
  refine ⟨fun k hk => ?_, fun d k hd => (hs.closer d k hd).trans (Nat.lt_succ_self _),
    fun d k m hm hkick => (hs.origin d k m hm hkick).trans (Nat.lt_succ_self _),
    fun k => ?_, fun k d hd hmem => ?_⟩
  · have hlt : s.newCall < k := hk
    rw [hold k hlt.ne']
    exact hs.fresh k hlt.le
  · by_cases hk : k = s.newCall
    · rw [hk, hnew]
      exact hnodup
    · rw [hold k hk]
      exact hs.nodup k
  · by_cases hk : k = s.newCall
    · exact absurd (hs.origin d k _ hmem rfl) (by rw [hk]; exact lt_irrefl _)
    · rw [hold k hk] at hd
      rw [notice_startCall hk] at hmem
      exact hs.unsent k d hd hmem

theorem setCall (hs : s.Sound) (hn : n < s.newCall) {x : KickCall}
    (hreason : x.reason = (s.call n).reason) (hnodup : x.todo.Nodup)
    (htodo : ∀ d ∈ x.todo, s.notice n ∉ (s.outbox d).accepted) : (s.setCall n x).Sound := by
  refine ⟨fun k hk => ?_, hs.closer, hs.origin, fun k => ?_, fun k d hd hmem => ?_⟩
  · have hkn : k ≠ n := by
      rintro rfl
      exact absurd hn (not_lt.2 hk)
    rw [setCall_ne hkn]
    exact hs.fresh k hk
  · by_cases hkn : k = n
    · rw [hkn, setCall_same]
      exact hnodup
    · rw [setCall_ne hkn]
      exact hs.nodup k
  · rw [notice_setCall hreason] at hmem
    by_cases hkn : k = n
    · subst hkn
      rw [setCall_same] at hd
      exact htodo d hd hmem
    · rw [setCall_ne hkn] at hd
      exact hs.unsent k d hd hmem

/-- A call that has something to do was made. -/
theorem started (hs : s.Sound) (h : s.call n ≠ {}) : n < s.newCall := by
  by_contra hlt
  exact h (hs.fresh n (not_lt.1 hlt))

theorem started_todo (hs : s.Sound) {todo : List UserID} (htodo : (s.call n).todo = c :: todo) :
    n < s.newCall := by
  refine hs.started fun h => ?_
  rw [h] at htodo
  cases htodo

theorem started_closing (hs : s.Sound) (hclosing : (s.call n).closing = some c) : n < s.newCall := by
  refine hs.started fun h => ?_
  rw [h] at hclosing
  cases hclosing

theorem close (hs : s.Sound) (hn : n < s.newCall) (c : UserID) :
    (s.setOutbox c ((s.outbox c).close n)).Sound := by
  refine hs.setOutbox (fun k hk => ?_) fun m hm => Or.inl hm
  rcases (s.outbox c).close_closedBy n with ⟨-, hnew⟩ | ⟨-, hold⟩
  · exact Option.some.inj (hnew.symm.trans hk) ▸ hn
  · exact hs.closer c k (hold ▸ hk)

theorem sends (hs : s.Sound) {todo : List UserID} (htodo : (s.call n).todo = c :: todo) :
    ((s.setCall n { s.call n with todo, closing := some c }).setOutbox c
      ((s.outbox c).send (s.notice n))).Sound := by
  have hn : n < s.newCall := hs.started_todo htodo
  have hnodup : (c :: todo).Nodup := htodo ▸ hs.nodup n
  have hs₁ : (s.setCall n { s.call n with todo, closing := some c }).Sound :=
    hs.setCall hn rfl hnodup.of_cons fun d hd =>
      hs.unsent n d (htodo ▸ List.mem_cons_of_mem c hd)
  refine hs₁.setOutbox (fun k hk => hs.closer c k hk) fun m hm => ?_
  obtain ⟨es, hacc, hnew⟩ := (s.outbox c).send_grows (P := fun m => m = s.notice n) rfl
  rw [hacc] at hm
  refine (List.mem_append.1 hm).imp_right fun hmem k hk => ?_
  rw [hnew m hmem] at hk
  obtain rfl : n = k := Option.some.inj hk
  refine ⟨hn, ?_⟩
  rw [setCall_same]
  exact (List.nodup_cons.1 hnodup).1

end Sound

inductive Stepped (s : Kicks) : KickLabel → Kicks → Prop
  | hubChanged (h : Hub) : Stepped s (.hubChanges h) { s with hub := h }
  | served {l : KickLabel} {c : UserID} {o : Outbox} (hl : ∀ n, l ≠ .forceKick n)
      (h : (s.outbox c).Serves o) : Stepped s l (s.setOutbox c o)
  | started {l : KickLabel} {victims : List UserID} (hl : ∀ n, l ≠ .forceKick n)
      (hnodup : victims.Nodup) (reason : String) : Stepped s l (s.startCall reason victims)
  | idle (n : KickId) (hidle : (s.call n).closing = none) : Stepped s (.forceKick n) s
  | passed {n : KickId} {c : UserID} {todo : List UserID} (hidle : (s.call n).closing = none)
      (htodo : (s.call n).todo = c :: todo) :
      Stepped s (.forceKick n) (s.setCall n { s.call n with todo })
  | sent {n : KickId} {c : UserID} {todo : List UserID} (hidle : (s.call n).closing = none)
      (htodo : (s.call n).todo = c :: todo) (hconn : (s.hub.client c).hasConn = true) :
      Stepped s (.forceKick n)
        ((s.setCall n { s.call n with todo, closing := some c }).setOutbox c
          ((s.outbox c).send (s.notice n)))
  | closed {n : KickId} {c : UserID} (hclosing : (s.call n).closing = some c) :
      Stepped s (.forceKick n)
        ((s.setCall n { s.call n with closing := none }).setOutbox c ((s.outbox c).close n))

theorem kickVictims_nodup (h : Hub) (roomID : RoomID) (userID : UserID) :
    (h.kickVictims roomID userID).Nodup := by
  unfold Hub.kickVictims
  split
  · exact List.nodup_nil
  · split_ifs
    · exact List.nodup_singleton _
    · exact List.nodup_nil

theorem dissolveVictims_nodup (h : Hub) (ord : MapOrder) (roomID : RoomID) :
    (h.dissolveVictims ord roomID).Nodup := by
  unfold Hub.dissolveVictims
  split
  · exact List.nodup_nil
  · exact (h.clientsOf_nodup ord _).filter _

theorem step_stepped (s : Kicks) (l : KickLabel) : Stepped s l (s.step l) := by
  cases l with
  | hubChanges h => exact .hubChanged h
  | send c m => exact .served (fun _ h => by cases h) (Outbox.serves_send rfl)
  | take c => exact .served (fun _ h => by cases h) (Outbox.serves_take _)
  | write c => exact .served (fun _ h => by cases h) (Outbox.serves_write _)
  | cleanup c => exact .served (fun _ h => by cases h) (Outbox.serves_cleanup _)
  | kickMember roomID userID reason =>
    exact .started (fun _ h => by cases h) (kickVictims_nodup _ _ _) _
  | dissolveRoom ord roomID reason =>
    exact .started (fun _ h => by cases h) (dissolveVictims_nodup _ _ _) _
  | forceKick n =>
    rw [step, forceKick]
    cases hclosing : (s.call n).closing with
    | some c => exact .closed hclosing
    | none =>
      cases htodo : (s.call n).todo with
      | nil => exact .idle n hclosing
      | cons c todo =>
        dsimp only
        split_ifs with hconn
        · have hsent := Stepped.sent hclosing htodo hconn
          exact hsent
        · have hpassed := Stepped.passed hclosing htodo
          exact hpassed

theorem Sends.step (h : s.Sends n c) : ∃ todo, s.step (.forceKick n) =
    (s.setCall n { s.call n with todo, closing := some c }).setOutbox c
      ((s.outbox c).send (s.notice n)) := by
  obtain ⟨hidle, hhead, hconn⟩ := h
  cases htodo : (s.call n).todo with
  | nil => rw [htodo] at hhead; cases hhead
  | cons d todo =>
    rw [htodo] at hhead
    obtain rfl : d = c := Option.some.inj hhead
    refine ⟨todo, ?_⟩
    rw [Kicks.step, forceKick, hidle, htodo]
    exact if_pos hconn

section Steps

variable {s' : Kicks}

theorem Sound.stepped (hs : s.Sound) (h : Stepped s l s') : s'.Sound := by
  cases h with
  | hubChanged g => exact ⟨hs.fresh, hs.closer, hs.origin, hs.nodup, hs.unsent⟩
  | served _ h => exact hs.serve h
  | started _ hnodup reason => exact hs.startCall hnodup reason
  | idle => exact hs
  | @passed n c todo hidle htodo =>
    have hn : n < s.newCall := hs.started_todo htodo
    have hnodup : (c :: todo).Nodup := htodo ▸ hs.nodup n
    exact hs.setCall hn rfl hnodup.of_cons fun d hd =>
      hs.unsent n d (htodo ▸ List.mem_cons_of_mem c hd)
  | sent hidle htodo hconn => exact hs.sends htodo
  | @closed n c hclosing =>
    have hn : n < s.newCall := hs.started_closing hclosing
    have hnext := hs.setCall (x := { s.call n with closing := none }) hn rfl (hs.nodup n) (hs.unsent n)
    exact hnext.close hn c

/-- A step is over a closed connection, over an open one that it leaves open, or closes one. -/
theorem Stepped.outbox (h : Stepped s l s') (c : UserID) :
    (s'.outbox c).closedBy = (s.outbox c).closedBy ∧
        ((s.outbox c).closedBy ≠ none → (s'.outbox c).written = (s.outbox c).written) ∨
      (s'.outbox c).written = (s.outbox c).written ∧
        ∃ n, l = .forceKick n ∧ s.Closes n c ∧ (s'.outbox c).closedBy = some n := by
  cases h with
  | hubChanged | started | idle | passed => exact Or.inl ⟨rfl, fun _ => rfl⟩
  | @served _ d o _ h =>
    refine Or.inl ?_
    by_cases hd : c = d
    · rw [hd, setOutbox_same]
      exact ⟨h.closedBy, h.closed⟩
    · rw [setOutbox_ne hd]
      exact ⟨rfl, fun _ => rfl⟩
  | @sent _ d =>
    refine Or.inl ?_
    by_cases hd : c = d
    · rw [hd, setOutbox_same]
      exact ⟨rfl, fun _ => rfl⟩
    · rw [setOutbox_ne hd]
      exact ⟨rfl, fun _ => rfl⟩
  | @closed n d hclosing =>
    by_cases hd : c = d
    · rw [hd, setOutbox_same]
      rcases (s.outbox d).close_closedBy n with ⟨hopen, hnew⟩ | ⟨-, hold⟩
      · exact Or.inr ⟨rfl, n, rfl, ⟨hclosing, hopen⟩, hnew⟩
      · exact Or.inl ⟨hold, fun _ => rfl⟩
    · rw [setOutbox_ne hd]
      exact Or.inl ⟨rfl, fun _ => rfl⟩

theorem Stepped.notice (h : Stepped s l s') (hn : n < s.newCall) : s'.notice n = s.notice n := by
  cases h with
  | hubChanged | served | idle => rfl
  | started hl hnodup reason => exact notice_startCall hn.ne
  | passed => exact notice_setCall (by rfl) n
  | sent => exact notice_setCall (by rfl) n
  | closed => exact notice_setCall (by rfl) n

theorem Told.stepped (h : s.Told) (hs : s.Sound) (hin : s.Reported l) (hstep : Stepped s l s') :
    s'.Told := by
  intro c n hn
  rcases hstep.outbox c with ⟨hclosed, hsame⟩ | ⟨hsame, k, rfl, hcloses, hk⟩
  · rw [hclosed] at hn
    rw [hstep.notice (hs.closer c n hn), hsame (by rw [hn]; exact Option.some_ne_none n)]
    exact h c n hn
  · obtain rfl : k = n := Option.some.inj (hk.symm.trans hn)
    rw [hstep.notice (hs.started_closing hcloses.1), hsame]
    exact hin c hcloses

/-- Closing the connection too early cannot be made up for. -/
theorem Sound.late (hs : s.Sound) (hlate : ¬s.Reported l) (hstep : Stepped s l s') : ¬s'.Told := by
  cases l with
  | forceKick n =>
    simp only [Reported, not_forall] at hlate
    obtain ⟨c, hcloses, hno⟩ := hlate
    intro htold
    rcases hstep.outbox c with ⟨hclosed, -⟩ | ⟨hsame, k, hk, -, hnew⟩
    · -- the step closes the connection
      have hnew : s' = (s.setCall n { s.call n with closing := none }).setOutbox c
          ((s.outbox c).close n) := by
        rcases hstep with _ | ⟨hl⟩ | ⟨hl⟩ | ⟨_, hidle⟩ | ⟨hidle⟩ | ⟨hidle⟩ | ⟨hclosing⟩
        · exact absurd rfl (hl n)
        · exact absurd rfl (hl n)
        · rw [hcloses.1] at hidle; cases hidle
        · rw [hcloses.1] at hidle; cases hidle
        · rw [hcloses.1] at hidle; cases hidle
        · obtain rfl := Option.some.inj (hcloses.1.symm.trans hclosing)
          rfl
      rw [hnew, setOutbox_same, Outbox.close, hcloses.2] at hclosed
      cases hclosed
    · obtain rfl : n = k := by injection hk
      have hwritten := htold c n hnew
      rw [hstep.notice (hs.started_closing hcloses.1), hsame] at hwritten
      exact hno hwritten
  | _ => exact absurd trivial hlate

theorem Told.before (hs : s.Sound) (hstep : Stepped s l s') (h : s'.Told) : s.Told := by
  intro c n hn
  have hclosed : (s.outbox c).closedBy ≠ none := by rw [hn]; exact Option.some_ne_none n
  rcases hstep.outbox c with ⟨hsame, hwritten⟩ | ⟨-, k, -, hcloses, -⟩
  · have hold := h c n (hsame.trans hn)
    rwa [hstep.notice (hs.closer c n hn), hwritten hclosed] at hold
  · exact absurd hcloses.2 hclosed

/-! ### Between the notice and the close -/

theorem Stepped.still_closed (h : Stepped s l s') (hc : (s.outbox c).closedBy ≠ none) :
    (s'.outbox c).closedBy ≠ none := by
  rcases h.outbox c with ⟨hsame, -⟩ | ⟨-, k, -, hcloses, -⟩
  · rwa [hsame]
  · exact absurd hcloses.2 hc

/-- A call that is about to close a connection has just sent its notice or was so before. -/
theorem Stepped.closing (h : Stepped s l s') (hn : (s'.call n).closing = some c) :
    (s.call n).closing = some c ∧ l ≠ .forceKick n ∨ l = .forceKick n ∧ s.Sends n c := by
  cases h with
  | hubChanged => exact Or.inl ⟨hn, by simp⟩
  | served hl => exact Or.inl ⟨hn, hl n⟩
  | @started _ victims hl hnodup reason =>
    refine Or.inl ⟨?_, hl n⟩
    by_cases hnew : n = s.newCall
    · rw [hnew, Kicks.startCall] at hn
      simp only [setCall_same] at hn
      cases hn
    · have hold : (s.startCall reason victims).call n = s.call n := setCall_ne hnew
      rwa [hold] at hn
  | idle k hidle =>
    refine Or.inl ⟨hn, fun hk => ?_⟩
    injection hk with hk
    rw [← hk, hidle] at hn
    cases hn
  | @passed k d todo hidle htodo =>
    by_cases hk : n = k
    · subst hk
      rw [setCall_same] at hn
      rw [hidle] at hn
      cases hn
    · rw [setCall_ne hk] at hn
      exact Or.inl ⟨hn, fun h => hk (by injection h with h; exact h.symm)⟩
  | @sent k d todo hidle htodo hconn =>
    by_cases hk : n = k
    · subst hk
      have hd : ({ s.call n with todo, closing := some d } : KickCall).closing = some c := by
        rw [← hn]
        exact congrArg KickCall.closing setCall_same.symm
      obtain rfl : d = c := Option.some.inj hd
      exact Or.inr ⟨rfl, hidle, by rw [htodo]; rfl, hconn⟩
    · have hold : (s.setCall k { s.call k with todo, closing := some d }).call n = s.call n :=
        setCall_ne hk
      refine Or.inl ⟨hold ▸ hn, fun h => hk (by injection h with h; exact h.symm)⟩
  | @closed k d hclosing =>
    by_cases hk : n = k
    · subst hk
      have hnone : ({ s.call n with closing := none } : KickCall).closing = some c := by
        rw [← hn]
        exact congrArg KickCall.closing setCall_same.symm
      cases hnone
    · have hold : (s.setCall k { s.call k with closing := none }).call n = s.call n := setCall_ne hk
      exact Or.inl ⟨hold ▸ hn, fun h => hk (by injection h with h; exact h.symm)⟩

theorem Stepped.keeps_closing (h : Stepped s l s') (hs : s.Sound) (hl : l ≠ .forceKick n)
    (hn : (s.call n).closing = some c) : (s'.call n).closing = some c := by
  have hcall : ∀ {k} {x : KickCall}, .forceKick k = l → ((s.setCall k x).call n).closing = some c := by
    intro k x hk
    have hkn : n ≠ k := fun h => hl (by rw [← hk, h])
    rwa [setCall_ne hkn]
  cases h with
  | hubChanged | served | idle => exact hn
  | @started _ victims _ hnodup reason =>
    have hold : (s.startCall reason victims).call n = s.call n :=
      setCall_ne (hs.started_closing hn).ne
    rwa [hold]
  | passed | sent | closed => exact hcall rfl

/-- Until the call closes the open connection of `c`, nothing like its notice is accepted. -/
theorem Stepped.waits (h : Stepped s l s') (hl : l ≠ .forceKick n)
    (hopen : (s'.outbox c).closedBy = none) :
    ∃ es, (s'.outbox c).accepted = (s.outbox c).accepted ++ es ∧ s.notice n ∉ es := by
  have hself : ∃ es, (s.outbox c).accepted = (s.outbox c).accepted ++ es ∧ s.notice n ∉ es :=
    ⟨[], (List.append_nil _).symm, List.not_mem_nil⟩
  cases h with
  | hubChanged | started | idle | passed => exact hself
  | @served _ d o _ h =>
    by_cases hd : c = d
    · subst hd
      rw [setOutbox_same] at hopen ⊢
      obtain ⟨es, hacc, hkick⟩ := h.grows (h.closedBy ▸ hopen)
      exact ⟨es, hacc, fun hmem => by cases hkick _ hmem⟩
    · rw [setOutbox_ne hd]
      exact hself
  | @sent k d =>
    by_cases hd : c = d
    · subst hd
      rw [setOutbox_same]
      have hk : s.notice n ≠ s.notice k := fun h =>
        hl (by rw [Option.some.inj (congrArg Outgoing.kick h)])
      obtain ⟨es, hacc, hnew⟩ := (s.outbox c).send_grows (P := fun m => m = s.notice k) rfl
      exact ⟨es, hacc, fun hmem => hk (hnew _ hmem)⟩
    · rw [setOutbox_ne hd]
      exact hself
  | @closed k d =>
    by_cases hd : c = d
    · subst hd
      rw [setOutbox_same, Outbox.close] at hopen
      cases hold : (s.outbox c).closedBy <;> rw [hold] at hopen <;> cases hopen
    · rw [setOutbox_ne hd]
      exact hself

/-- What goes over an open connection is what its writeLoop writes. -/
theorem written_step (s : Kicks) (l : KickLabel) (hopen : (s.outbox c).closedBy = none) :
    ((s.step l).outbox c).written.length = (s.outbox c).written.length + s.writesAt c l := by
  have hset : ∀ d (o : Outbox), o.written = (s.outbox d).written →
      ((s.setOutbox d o).outbox c).written = (s.outbox c).written := by
    intro d o ho
    by_cases hd : c = d
    · rw [hd, setOutbox_same, ho]
    · rw [setOutbox_ne hd]
  cases l with
  | hubChanges h => rfl
  | send d m => exact congrArg List.length (hset d _ rfl)
  | take d =>
    have htake : (s.outbox d).take.written = (s.outbox d).written := by
      unfold Outbox.take
      split
      · rfl
      · split_ifs <;> rfl
      · rfl
    exact congrArg List.length (hset d _ htake)
  | write d =>
    rw [Kicks.step, writesAt]
    by_cases hd : c = d
    · subst hd
      rw [setOutbox_same, if_pos rfl, Outbox.write]
      cases hw : (s.outbox c).writeLoop with
      | writing m => simp [hopen, WriteLoop.inHand]
      | waiting => rfl
      | returned => rfl
    · rw [setOutbox_ne hd, if_neg (Ne.symm hd)]
      rfl
  | cleanup d =>
    have hclean : (s.outbox d).cleanup.written = (s.outbox d).written := by
      unfold Outbox.cleanup
      split_ifs <;> rfl
    exact congrArg List.length (hset d _ hclean)
  | kickMember roomID userID reason => rfl
  | dissolveRoom ord roomID reason => rfl
  | forceKick n =>
    rw [Kicks.step, forceKick]
    split
    · exact congrArg List.length (hset _ _ rfl)
    · split
      · rfl
      · split_ifs
        · exact congrArg List.length (hset _ _ rfl)
        · rfl

end Steps

theorem kicks_sound (ls : List KickLabel) : (kicks.run ls).Sound := by
  refine Machine.run_invariant (P := Sound) ?_ (fun s l hs => hs.stepped (step_stepped s l)) ls
  exact ⟨fun _ _ => rfl, fun _ _ h => (by cases h), fun _ _ _ h => absurd h List.not_mem_nil,
    fun _ => List.nodup_nil, fun _ _ h => absurd h List.not_mem_nil⟩

theorem waits_run : ∀ (mid : List KickLabel) (s : Kicks), s.Sound → (s.call n).closing = some c →
    (∀ l ∈ mid, l ≠ .forceKick n) → ((kicks.runFrom s mid).outbox c).closedBy = none →
    (∃ es, ((kicks.runFrom s mid).outbox c).accepted = (s.outbox c).accepted ++ es ∧
      s.notice n ∉ es) ∧ (kicks.runFrom s mid).notice n = s.notice n ∧
    ((kicks.runFrom s mid).outbox c).written.length = (s.outbox c).written.length + writes c s mid := by
  intro mid
  induction mid with
  | nil => exact fun s _ _ _ _ => ⟨⟨[], (List.append_nil _).symm, List.not_mem_nil⟩, rfl, rfl⟩
  | cons l mid ih =>
    intro s hs hclosing hmid hopen
    rw [Machine.runFrom_cons] at hopen ⊢
    have hstep := s.step_stepped l
    have hclosed : ∀ u : Kicks, (u.outbox c).closedBy ≠ none →
        ((kicks.runFrom u mid).outbox c).closedBy ≠ none := fun u hu =>
      Machine.runFrom_invariant (M := kicks) (P := fun u => (u.outbox c).closedBy ≠ none)
        (fun u l hu => (u.step_stepped l).still_closed hu) mid u hu
    have hopen' : ((s.step l).outbox c).closedBy = none := by
      by_contra h
      exact hclosed _ h hopen
    have hopen₀ : (s.outbox c).closedBy = none := by
      by_contra h
      exact hstep.still_closed h hopen'
    have hl : l ≠ .forceKick n := hmid l List.mem_cons_self
    have hnotice := hstep.notice (hs.started_closing hclosing)
    obtain ⟨es, hacc, hes⟩ := hstep.waits hl hopen'
    obtain ⟨⟨es', hacc', hes'⟩, hnotice', hlen⟩ := ih (s.step l) (hs.stepped hstep)
      (hstep.keeps_closing hs hl hclosing) (fun x hx => hmid x (List.mem_cons_of_mem l hx)) hopen
    refine ⟨⟨es ++ es', ?_, ?_⟩, hnotice'.trans hnotice, ?_⟩
    · exact hacc'.trans (by rw [hacc, List.append_assoc])
    · rw [hnotice] at hes'
      simp only [List.mem_append, not_or]
      exact ⟨hes, hes'⟩
    · exact hlen.trans (by rw [s.written_step l hopen₀, writes, Nat.add_assoc])

/-- A call that is about to close a connection has sent its notice before. -/
theorem sent_before {ls : List KickLabel} (h : ((kicks.run ls).call n).closing = some c) :
    ∃ pre mid, ls = pre ++ .forceKick n :: mid ∧ (∀ l ∈ mid, l ≠ .forceKick n) ∧
      (kicks.run pre).Sends n c := by
  induction ls using List.reverseRecOn with
  | nil => cases h
  | append_singleton ls l ih =>
    rw [Machine.run_snoc] at h
    rcases ((kicks.run ls).step_stepped l).closing h with ⟨hold, hl⟩ | ⟨rfl, hsends⟩
    · obtain ⟨pre, mid, rfl, hmid, hsends⟩ := ih hold
      refine ⟨pre, mid ++ [l], by rw [List.append_assoc, List.cons_append], ?_, hsends⟩
      intro x hx
      rcases List.mem_append.1 hx with hx | hx
      · exact hmid x hx
      · exact List.mem_singleton.1 hx ▸ hl
    · exact ⟨ls, [], rfl, fun _ hx => absurd hx List.not_mem_nil, hsends⟩

/-- The notice goes over the connection when the queue takes it and the writeLoop writes
everything ahead of it before the close. -/
theorem Sends.written_iff {pre mid : List KickLabel} (h : (kicks.run pre).Sends n c)
    (hmid : ∀ l ∈ mid, l ≠ .forceKick n)
    (hopen : ((kicks.run (pre ++ .forceKick n :: mid)).outbox c).closedBy = none) :
    (kicks.run (pre ++ .forceKick n :: mid)).notice n ∈
        ((kicks.run (pre ++ .forceKick n :: mid)).outbox c).written ↔
      ((kicks.run pre).outbox c).sendCh.HasSpace ∧
        ((kicks.run pre).outbox c).backlog < writes c (kicks.run (pre ++ [.forceKick n])) mid := by
  have hs := kicks_sound pre
  have hstep := (kicks.run pre).step_stepped (.forceKick n)
  rw [Machine.run_append, Machine.runFrom_cons] at hopen ⊢
  rw [Machine.run_snoc]
  change ((kicks.runFrom ((kicks.run pre).step (.forceKick n)) mid).outbox c).closedBy = none at hopen
  change (kicks.runFrom ((kicks.run pre).step (.forceKick n)) mid).notice n ∈
      ((kicks.runFrom ((kicks.run pre).step (.forceKick n)) mid).outbox c).written ↔
    _ ∧ _ < writes c ((kicks.run pre).step (.forceKick n)) mid
  generalize kicks.run pre = s at *
  obtain ⟨todo, hsent⟩ := h.step
  have hhead : (s.call n).todo.head? = some c := h.2.1
  have hmem : c ∈ (s.call n).todo := List.mem_of_head? hhead
  have hunsent := hs.unsent n c hmem
  have hbox : ((s.step (.forceKick n)).outbox c) = (s.outbox c).send (s.notice n) := by
    rw [hsent, setOutbox_same]
  have hclosing : ((s.step (.forceKick n)).call n).closing = some c := by
    rw [hsent]
    exact congrArg KickCall.closing setCall_same
  have hnotice : (s.step (.forceKick n)).notice n = s.notice n := by
    rw [hsent]
    exact notice_setCall (by rfl) n
  obtain ⟨⟨es, hacc, hes⟩, hsame, hlen⟩ := waits_run mid _ (hs.stepped hstep) hclosing hmid hopen
  rw [hnotice] at hes hsame
  rw [hbox] at hacc hlen
  rw [hsame]
  by_cases hspace : (s.outbox c).sendCh.HasSpace
  · rw [Outbox.send_accepted hspace, List.append_assoc] at hacc
    rw [Outbox.mem_written hunsent hacc, Outbox.accepted_length, hlen]
    exact ⟨fun hlt => ⟨hspace, Nat.lt_of_add_lt_add_left hlt⟩, fun h => Nat.add_lt_add_left h.2 _⟩
  · rw [Outbox.send_dropped hspace] at hacc
    refine iff_of_false (fun hwritten => ?_) fun h => hspace h.1
    have hin := Outbox.mem_written_accepted hwritten
    rw [hacc] at hin
    exact (List.mem_append.1 hin).elim hunsent hes

/-- A call that sends and closes at one go tells nobody, whatever is in the queue. -/
theorem Sound.at_once (hs : s.Sound) (h : s.Sends n c) (hopen : (s.outbox c).closedBy = none) :
    ¬((s.step (.forceKick n)).step (.forceKick n)).Told := by
  obtain ⟨todo, hsent⟩ := h.step
  have hunsent := hs.unsent n c (List.mem_of_head? h.2.1)
  have hstep := s.step_stepped (.forceKick n)
  refine (hs.stepped hstep).late (l := .forceKick n) (fun hreported => ?_) (step_stepped _ _)
  have hbox : ((s.step (.forceKick n)).outbox c) = (s.outbox c).send (s.notice n) := by
    rw [hsent, setOutbox_same]
  have hclosing : ((s.step (.forceKick n)).call n).closing = some c := by
    rw [hsent]
    exact congrArg KickCall.closing setCall_same
  have hnotice : (s.step (.forceKick n)).notice n = s.notice n := by
    rw [hsent]
    exact notice_setCall (by rfl) n
  have hmem := hreported c ⟨hclosing, by rw [hbox]; exact hopen⟩
  rw [hnotice, hbox] at hmem
  exact hunsent (Outbox.mem_written_accepted hmem)

theorem told_iff_guarded (ls : List KickLabel) : (kicks.run ls).Told ↔ kicks.Guarded Reported ls := by
  have hinit : kicks.init.Told := fun _ _ h => (by cases h)
  have hkeep : ∀ s l, Reported s l → s.Sound → s.Told → (s.step l).Told :=
    fun s l hin hs h => h.stepped hs hin (s.step_stepped l)
  constructor
  · intro htold
    rcases Machine.guarded_or (B := fun s => ¬s.Told) kicks_sound hinit hkeep
      (fun s l hlate hs _ => hs.late hlate (s.step_stepped l))
      (fun s l hs hno h => hno (.before hs (s.step_stepped l) h)) ls with ⟨hguarded, -⟩ | hno
    · exact hguarded
    · exact absurd htold hno
  · exact fun hguarded => Machine.guarded_invariant_of kicks_sound hinit hkeep hguarded

end Kicks

/-- In a run every member whose connection was closed by a call had been told why if and only
if its queue had space for the notice and its writeLoop wrote whatever was ahead of it, and
one message more, before the close. -/
theorem kicked_members_told_iff (ls : List KickLabel) : (kicks.run ls).Told ↔ Kicks.InTime ls := by
  rw [Kicks.told_iff_guarded]
  constructor
  · intro hguarded pre mid post n c hls hmid hsends hcloses
    have hpre : (pre ++ .forceKick n :: mid) ++ [.forceKick n] <+: ls :=
      ⟨post, by rw [hls]; simp⟩
    have hreported := (Machine.guarded_snoc.1 (hguarded.of_prefix hpre)).2
    exact (hsends.written_iff hmid hcloses.2).1 (hreported c hcloses)
  · intro hin
    refine Machine.guarded_of_splits fun pre l post hsplit => ?_
    cases l with
    | forceKick n =>
      intro c hcloses
      obtain ⟨pre, mid, rfl, hmid, hsends⟩ := Kicks.sent_before hcloses.1
      refine (hsends.written_iff hmid hcloses.2).2 (hin pre mid post n c ?_ hmid hsends hcloses)
      rw [hsplit, List.append_assoc, List.cons_append]
    | _ => trivial

/-- Nothing is in alice's queue, and her connection is closed before her writeLoop runs. -/
theorem kicked_without_a_word :
    let s := kicks.run [.hubChanges ((server "").run [.connect "alice", .join "alice" "1001"]).hub,
      .kickMember "1001" "alice" "spam", .forceKick 0, .forceKick 0]
    (s.outbox "alice").closedBy = some 0 ∧ (s.outbox "alice").written = [] ∧
      (s.outbox "alice").sendCh.queue = [⟨.adminKicked "spam", some 0⟩] ∧ ¬s.Told := by
  intro s
  have hclosed : (s.outbox "alice").closedBy = some 0 := by decide +kernel
  have hwritten : (s.outbox "alice").written = [] := by decide +kernel
  refine ⟨hclosed, hwritten, by decide +kernel, fun htold => ?_⟩
  have hmem := htold "alice" 0 hclosed
  rw [hwritten] at hmem
  exact List.not_mem_nil hmem

end Meetkit
