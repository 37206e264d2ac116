import Meetkit.Model.Announce
import Meetkit.Proofs.Handled

/-! The deeds of an operation are what it does to the hub, write by write, and where it
calls the stats hook. -/

namespace Meetkit

open World

namespace Deed

def isNotify : Deed → Bool
  | notify => true
  | write _ => false

end Deed

theorem Hub.performAll_append (h : Hub) (ds es : List Deed) :
    h.performAll (ds ++ es) = (h.performAll ds).performAll es := List.foldl_append

/-- The calls of the stats hook so far. -/
def World.notices (w : World) : ℕ := w.log.count .statsChanged

/-- From `w` to `v` the deeds are done, and whatever else is no write to the hub and no
call of the hook. -/
structure World.Performs (w : World) (ds : List Deed) (v : World) : Prop where
  hub : v.hub = w.hub.performAll ds
  notices : v.notices = w.notices + ds.countP Deed.isNotify

namespace World.Performs

variable {w v u : World} {ds es : List Deed} {env : Env} {ord : MapOrder} {r : RoomRef}
  {c : UserID} {kind : Kind} {stream : StreamID} {q : String} {m : ServerMsg}

theorem refl (w : World) : w.Performs [] w := ⟨rfl, rfl⟩

theorem trans (h1 : w.Performs ds v) (h2 : v.Performs es u) : w.Performs (ds ++ es) u where
  hub := by rw [h2.hub, h1.hub, Hub.performAll_append]
  notices := by rw [h2.notices, h1.notices, List.countP_append, Nat.add_assoc]

theorem write (f : Hub → Hub) : w.Performs [.write f] (w.setHub (f w.hub)) := ⟨rfl, rfl⟩

theorem setClient (f : Client → Client) :
    w.Performs [.write fun h => h.setClient c f] (w.setClient c f) := ⟨rfl, rfl⟩

theorem notify : w.Performs [.notify] w.notifyStatsChanged where
  hub := rfl
  notices := by
    simp only [World.notices, notifyStatsChanged, emit_log, List.count_append]
    rfl

/-- Events that are no call of the hook. -/
theorem emit (h : w.Performs ds v) (evs : List Event) (hes : Event.statsChanged ∉ evs) :
    w.Performs ds (v.emit evs) where
  hub := h.hub
  notices := by
    rw [← h.notices]
    simp only [World.notices, emit_log, List.count_append, List.count_eq_zero.2 hes, Nat.add_zero]

theorem send (h : w.Performs ds v) : w.Performs ds (v.send c q m) := by
  unfold World.send
  split_ifs
  · exact h
  · exact h.emit _ (by simp)

theorem sendAll (h : w.Performs ds v) {ids : List UserID} : w.Performs ds (v.sendAll ids m) :=
  h.emit _ (by simp)

theorem broadcastExcept (h : w.Performs ds v) : w.Performs ds (v.broadcastExcept ord r c m) :=
  h.sendAll

theorem broadcastMediaState (h : w.Performs ds v) :
    w.Performs ds (v.broadcastMediaState ord r c) := by
  unfold World.broadcastMediaState
  split_ifs
  · exact h.sendAll
  · exact h

theorem broadcastRecordState (h : w.Performs ds v) {recording : Bool} :
    w.Performs ds (v.broadcastRecordState ord r c kind stream recording) := by
  unfold World.broadcastRecordState
  split_ifs
  · exact h.sendAll
  · exact h

theorem broadcastStreamStarted (h : w.Performs ds v) :
    w.Performs ds (v.broadcastStreamStarted ord r c kind stream) := h.sendAll

theorem broadcastStreamStopped (h : w.Performs ds v) :
    w.Performs ds (v.broadcastStreamStopped ord r c kind stream) := h.sendAll

theorem spawn (h : w.Performs ds v) {calls : List ZlmCall} : w.Performs ds (v.spawn c calls) := by
  have h' := h.emit [.spawned c calls] (by simp)
  exact ⟨h'.hub, h'.notices⟩

theorem setConn (h : w.Performs ds v) {k : ConnID} {f : ObserveConn → ObserveConn} :
    w.Performs ds (v.setConn k f) := ⟨h.hub, h.notices⟩

theorem removeRoomIfEmpty :
    w.Performs [.write fun h => h.removeRoomIfEmpty r] (w.removeRoomIfEmpty r) := ⟨rfl, rfl⟩

theorem removeFrom : w.Performs [.write fun h => h.removeFrom r c] (w.removeFrom r c) := ⟨rfl, rfl⟩

/-! ### Entering and leaving -/

theorem removeObserver : w.Performs (w.hub.removeObserverDeeds r c) (w.removeObserver r c) := by
  unfold Hub.removeObserverDeeds World.removeObserver
  by_cases hc : c ∉ (w.hub.room r).clients
  · rw [if_pos hc, if_pos hc]
    exact refl w
  · rw [if_neg hc, if_neg hc]
    exact (removeFrom.trans removeRoomIfEmpty).trans notify

theorem observerLeaveRoom : w.Performs (w.hub.observerLeaveDeeds c) (w.observerLeaveRoom c) := by
  unfold Hub.observerLeaveDeeds World.observerLeaveRoom
  cases (w.hub.client c).room with
  | none => exact refl w
  | some r =>
    have h1 : w.Performs [.write fun h => h.setRoomOf c none]
        (w.setClient c fun x => { x with room := none }) := setClient _
    exact h1.trans removeObserver

theorem dismissAll (m : ServerMsg) (cs : List UserID) :
    w.Performs (w.hub.dismissDeeds cs)
      (cs.foldl (fun w c => (w.send c "" m).observerLeaveRoom c) w) := by
  induction cs generalizing w with
  | nil => exact refl w
  | cons c cs ih =>
    have hsent : w.Performs [] (w.send c "" m) := (refl w).send
    have hleft : (w.send c "" m).Performs (w.hub.observerLeaveDeeds c)
        ((w.send c "" m).observerLeaveRoom c) := by
      have h := observerLeaveRoom (w := w.send c "" m) (c := c)
      rwa [send_hub] at h
    have hfirst : w.Performs (w.hub.observerLeaveDeeds c)
        ((w.send c "" m).observerLeaveRoom c) := hsent.trans hleft
    have hrest := ih (w := (w.send c "" m).observerLeaveRoom c)
    rw [hfirst.hub] at hrest
    exact hfirst.trans hrest

theorem withdraw : w.Performs
    [.write fun h => h.setClient c fun x => { x with streams := ∅, recordings := ∅ }]
    (w.withdraw ord r c) := by
  have hstops : ∀ (entries : List (Kind × StreamID)) {v : World} {ds : List Deed},
      w.Performs ds v →
        w.Performs ds (entries.foldl (fun w e => w.broadcastStreamStopped ord r c e.1 e.2) v) := by
    intro entries
    induction entries with
    | nil => exact fun h => h
    | cons e entries ih => exact fun h => ih h.broadcastStreamStopped
  unfold World.withdraw
  have h := hstops (w.departingStreams ord c) (setClient (w := w) (c := c)
    fun x => { x with streams := ∅, recordings := ∅ })
  dsimp only
  split_ifs
  · exact h.broadcastExcept.spawn.emit _ (by simp)
  · exact h.spawn.emit _ (by simp)

theorem removeClient : w.Performs (w.hub.removeDeeds ord r c) (w.removeClient ord r c) := by
  unfold Hub.removeDeeds World.removeClient
  by_cases hob : w.hub.isObserver c = true
  · rw [if_pos hob, if_pos hob]
    exact removeObserver
  · rw [if_neg hob, if_neg hob]
    by_cases hc : c ∉ (w.hub.room r).clients
    · rw [if_pos hc, if_pos hc]
      exact refl w
    · rw [if_neg hc, if_neg hc]
      have hout : w.Performs [.write fun h => h.removeFrom r c,
          .write fun h => h.setClient c fun x => { x with streams := ∅, recordings := ∅ }]
          ((w.removeFrom r c).withdraw ord r c) := removeFrom.trans withdraw
      have hhub := hout.hub
      dsimp only
      rw [← hhub]
      refine Performs.trans (Performs.trans hout ?_) (removeRoomIfEmpty.trans notify)
      split_ifs
      · exact refl _
      · exact dismissAll _ _

theorem leaveRoom : w.Performs (w.hub.leaveDeeds ord c) (w.leaveRoom ord c) := by
  unfold Hub.leaveDeeds World.leaveRoom
  cases (w.hub.client c).room with
  | none => exact refl w
  | some r =>
    have h1 : w.Performs [.write fun h => h.setRoomOf c none]
        (w.setClient c fun x => { x with room := none }) := setClient _
    exact h1.trans removeClient

theorem cleanup : w.Performs (w.hub.cleanupDeeds ord c) (w.cleanup ord c) := by
  unfold Hub.cleanupDeeds World.cleanup
  split_ifs
  · exact refl w
  · have h1 := setClient (w := w) (c := c) fun x => { x with closed := true }
    have hroom : ((w.setClient c fun x => { x with closed := true }).hub.client c).room =
        (w.hub.client c).room := by simp
    dsimp only
    rw [hroom]
    cases (w.hub.client c).room with
    | none => exact h1
    | some r => exact h1.trans removeClient

theorem forceKick {reason : String} :
    w.Performs (w.hub.kickDeeds ord c) (w.forceKick ord c reason) := by
  unfold Hub.kickDeeds World.forceKick
  dsimp only
  by_cases hconn : (w.hub.client c).hasConn = true
  · rw [if_pos hconn, if_pos hconn]
    exact (refl w).send
  · rw [if_neg hconn, if_neg hconn]
    exact leaveRoom

theorem forceKickAll {reason : String} (cs : List UserID) :
    w.Performs (Hub.kickAllDeeds ord w.hub cs)
      (cs.foldl (fun w c => w.forceKick ord c reason) w) := by
  induction cs generalizing w with
  | nil => exact refl w
  | cons c cs ih =>
    have hfirst : w.Performs (w.hub.kickDeeds ord c) (w.forceKick ord c reason) := forceKick
    have hrest := ih (w := w.forceKick ord c reason)
    rw [hfirst.hub] at hrest
    exact hfirst.trans hrest

theorem kickMember {roomID : RoomID} {reason : String} :
    w.Performs (w.hub.kickMemberDeeds ord roomID c) (w.kickMember ord roomID c reason).1 := by
  unfold Hub.kickMemberDeeds World.kickMember
  cases w.hub.getRoom roomID with
  | none => exact refl w
  | some r =>
    dsimp only
    by_cases hc : c ∉ (w.hub.room r).clients
    · rw [if_pos (Or.inl hc), if_pos hc]
      exact refl w
    · by_cases hob : w.hub.isObserver c = true
      · rw [if_pos (Or.inr hob), if_neg hc, if_pos hob]
        exact refl w
      · rw [if_neg (not_or.2 ⟨hc, hob⟩), if_neg hc, if_neg hob]
        exact forceKick

theorem dissolveRoom {roomID : RoomID} {reason : String} :
    w.Performs (w.hub.dissolveDeeds ord roomID) (w.dissolveRoom ord roomID reason).1 := by
  unfold Hub.dissolveDeeds World.dissolveRoom
  cases w.hub.getRoom roomID with
  | none => exact refl w
  | some r =>
    dsimp only
    by_cases hnil : ((w.hub.clientsOf ord r).filter fun c => !w.hub.isObserver c) = []
    · rw [if_pos hnil, hnil]
      exact refl w
    · rw [if_neg hnil]
      exact forceKickAll _

theorem announceJoin (ord : MapOrder) (r : RoomRef) (c : UserID) :
    w.Performs [.notify] (w.announceJoin ord r c) := by
  have hjoined : w.Performs [] (w.emit [.joined c (w.hub.room r).id]) := (refl w).emit _ (by simp)
  unfold World.announceJoin
  dsimp only
  split_ifs
  · exact hjoined.send.broadcastExcept.trans notify
  · exact hjoined.send.trans notify

theorem handleJoin {p : Decoded JoinPayload} :
    w.Performs (w.hub.joinDeeds c p) (handleJoin env w c p).1 := by
  unfold Hub.joinDeeds World.handleJoin
  cases w.hub.checkJoin c p with
  | error e => exact refl w
  | ok a =>
    obtain ⟨q, mode⟩ := a
    dsimp only
    -- the solo block
    obtain ⟨h₁, e₁, hsel, hsolo, hrefused⟩ : ∃ h₁ e₁,
        (if mode = .solo then w.hub.joinSolo c q else (w.hub, none)) = (h₁, e₁) ∧
        w.Performs (if mode = .solo then [.write fun h => (h.joinSolo c q).1] else [])
          (w.setHub h₁) ∧
        (e₁.isSome ↔ mode = .solo ∧ (w.hub.joinSolo c q).2.isSome) := by
      by_cases hmode : mode = .solo
      · simp only [if_pos hmode]
        exact ⟨(w.hub.joinSolo c q).1, (w.hub.joinSolo c q).2, rfl, write _, by simp [hmode]⟩
      · simp only [if_neg hmode]
        exact ⟨_, _, rfl, refl w, by simp [hmode]⟩
    rw [hsel]
    cases e₁ with
    | some e =>
      rw [if_pos (hrefused.1 rfl)]
      exact hsolo
    | none =>
      rw [if_neg fun h => by cases hrefused.2 h]
      have hfields := hsolo.trans (write fun h => h.joinFields c q)
      have hcreated := hfields.trans (write fun h => (h.getOrCreateRoom q.room mode).1)
      rw [← hfields.hub, ← hcreated.hub]
      unfold World.getOrCreateRoom addClient
      simp only [setHub_hub]
      cases hadm : ((h₁.joinFields c q).getOrCreateRoom q.room mode).1.admission
          ((h₁.joinFields c q).getOrCreateRoom q.room mode).2 c mode with
      | some e => exact hcreated.trans removeRoomIfEmpty
      | none =>
        have hentered := hcreated.trans (write fun h =>
          h.addTo ((h₁.joinFields c q).getOrCreateRoom q.room mode).2 c)
        have htold := hentered.trans (announceJoin env.order
          ((h₁.joinFields c q).getOrCreateRoom q.room mode).2 c)
        have hdone := htold.trans (setClient (c := c) fun x =>
          { x with room := some ((h₁.joinFields c q).getOrCreateRoom q.room mode).2 })
        simp only [List.append_assoc, List.cons_append, List.nil_append] at hdone ⊢
        exact hdone

/-! ### In a room -/

theorem handleMediaState {p : Decoded MediaStatePayload} :
    w.Performs (w.mediaDeeds c p) (handleMediaState env w c p).1 := by
  unfold mediaDeeds World.handleMediaState
  by_cases hob : w.hub.isObserver c = true
  · rw [if_pos hob]
    cases w.requireRoom c <;> cases p <;> simp only [hob, if_true] <;> exact refl w
  · rw [if_neg hob]
    cases w.requireRoom c with
    | error e => exact refl w
    | ok r =>
      cases p with
      | error e => exact refl w
      | ok p =>
        simp only [if_neg hob]
        exact (setClient _).broadcastMediaState

theorem startStream : w.Performs [writeStream c kind stream] (w.startStream ord r c kind stream) :=
  (setClient _).broadcastStreamStarted

theorem recordObserveAudit (h : w.Performs ds v) {action detail : String} :
    w.Performs ds (v.recordObserveAudit c action detail) := by
  unfold World.recordObserveAudit
  split
  · exact h
  · split_ifs
    · exact h
    · exact h.emit _ (by simp)

theorem registerOffer {p : WebRTCOfferPayload} :
    w.Performs (registerDeeds c p stream) (w.registerOffer ord r c p stream) := by
  unfold registerDeeds World.registerOffer
  have hpublished : ∀ kind, w.Performs [] (w.emit [.published c (w.hub.room r).id kind stream]) :=
    fun _ => (refl w).emit _ (by simp)
  have hpull : ∀ kind target, w.Performs [writePull c stream kind target, .notify]
      (w.recordPull c stream kind target).notifyStatsChanged :=
    fun _ _ => (setClient _).trans notify
  by_cases h1 : p.mode = "publish"
  · rw [if_pos h1, if_pos h1]
    exact ((hpublished p.kind).trans startStream).trans notify
  · rw [if_neg h1, if_neg h1]
    by_cases h2 : p.mode = "publish-solo"
    · rw [if_pos h2, if_pos h2]
      exact ((hpublished "solo").trans startStream).trans notify
    · rw [if_neg h2, if_neg h2]
      by_cases h3 : p.mode = "play"
      · simp only [if_pos h3]
        split_ifs
        · exact (hpull p.kind p.targetUserID).recordObserveAudit
        · exact hpull p.kind p.targetUserID
      · simp only [if_neg h3]
        split_ifs
        · exact (hpull "solo" "").recordObserveAudit
        · exact hpull "solo" ""

theorem handleWebRTCOffer {p : Decoded WebRTCOfferPayload} :
    w.Performs (offerDeeds env w c p) (handleWebRTCOffer env w c q p).1 := by
  unfold offerDeeds World.handleWebRTCOffer
  cases w.requireRoom c with
  | error e => exact refl w
  | ok r =>
    cases p with
    | error e => exact refl w
    | ok p =>
      dsimp only
      by_cases hsdp : p.sdp = ""
      · rw [if_pos (Or.inl hsdp), if_pos hsdp]
        exact refl w
      · by_cases hob : w.hub.isObserver c = true ∧ p.mode ≠ "play" ∧ p.mode ≠ "play-solo"
        · rw [if_pos (Or.inr hob), if_neg hsdp, if_pos hob]
          exact refl w
        · rw [if_neg (not_or.2 ⟨hsdp, hob⟩), if_neg hsdp, if_neg hob]
          have hasked : ∀ t stream ok, w.Performs []
              (w.emit [.exchangedSDP c t (w.hub.room r).id stream ok]) :=
            fun _ _ _ => (refl w).emit _ (by simp)
          cases w.resolveOffer r c p with
          | error e => exact refl w
          | ok a =>
            obtain ⟨stream, t⟩ := a
            cases env.sdp with
            | error e => exact hasked t stream false
            | ok answer => exact ((hasked t stream true).trans registerOffer).send

theorem handleStreamStarted {p : Decoded StreamStartedPayload} :
    w.Performs (w.startedDeeds c p) (handleStreamStarted env w c p).1 := by
  unfold startedDeeds World.handleStreamStarted
  by_cases hob : w.hub.isObserver c = true
  · rw [if_pos hob]
    cases w.requireRoom c <;> cases p <;> simp only [hob, true_or, if_true] <;> exact refl w
  · rw [if_neg hob]
    cases w.requireRoom c with
    | error e => exact refl w
    | ok r =>
      cases p with
      | error e => exact refl w
      | ok p =>
        dsimp only
        by_cases hp : p.kind = "" ∨ p.streamID = ""
        · rw [if_pos (Or.inr hp), if_pos hp]
          exact refl w
        · rw [if_neg (not_or.2 ⟨hob, hp⟩), if_neg hp]
          exact startStream

theorem handleStreamStopped {p : Decoded StreamStoppedPayload} :
    w.Performs (w.stoppedDeeds c p) (handleStreamStopped env w c p).1 := by
  unfold stoppedDeeds World.handleStreamStopped
  by_cases hob : w.hub.isObserver c = true
  · rw [if_pos hob]
    cases w.requireRoom c <;> cases p <;> simp only [hob, true_or, if_true] <;> exact refl w
  · rw [if_neg hob]
    cases w.requireRoom c with
    | error e => exact refl w
    | ok r =>
      cases p with
      | error e => exact refl w
      | ok p =>
        dsimp only
        by_cases hk : p.kind = ""
        · rw [if_pos (Or.inr hk), if_pos hk]
          exact refl w
        · rw [if_neg (not_or.2 ⟨hob, hk⟩), if_neg hk]
          have herased := setClient (w := w) (c := c) fun x =>
            { x with streams := x.streams.erase p.kind }
          by_cases hs : ((w.hub.client c).streams.lookup p.kind).getD "" = ""
          · rw [if_pos hs, if_neg (not_not.2 hs)]
            exact herased
          · rw [if_neg hs, if_pos hs]
            exact (herased.broadcastStreamStopped.trans notify).spawn

theorem handleRecordControl {start : Bool} {p : Decoded RecordControlPayload} :
    w.Performs (recordDeeds env w c start p) (handleRecordControl env w c q start p).1 := by
  unfold recordDeeds World.handleRecordControl
  by_cases hob : w.hub.isObserver c = true
  · rw [if_pos hob]
    cases w.requireRoom c <;> cases p <;> cases env.record <;>
      simp only [hob, true_or, if_true] <;> exact refl w
  · rw [if_neg hob]
    cases w.requireRoom c with
    | error e => exact refl w
    | ok r =>
      cases p with
      | error e => exact refl w
      | ok p =>
        dsimp only
        have hasked : ∀ kind stream ok, w.Performs []
            (w.emit [.recordCall start c (w.hub.room r).id kind stream ok]) := fun _ _ _ =>
          (refl w).emit _ (by cases start <;> simp [Event.recordCall])
        have hnone : p.kind = "" ∧ p.streamID = "" → (w.recordTarget env.order c p).2 = "" :=
          fun hp => by rw [recordTarget_noKind hp.1 hp.2]
        cases env.record with
        | error e =>
          generalize w.recordTarget env.order c p = t
          obtain ⟨kind, stream⟩ := t
          dsimp only
          split_ifs <;> first | exact refl w | exact hasked kind stream false
        | ok _ =>
          dsimp only
          generalize w.recordTarget env.order c p = t at hnone ⊢
          obtain ⟨kind, stream⟩ := t
          dsimp only at hnone ⊢
          by_cases hs : stream = ""
          · rw [if_pos (Or.inr hs)]
            simp only [hs, true_and, if_true]
            split_ifs <;> exact refl w
          · rw [if_neg (not_or.2 ⟨hob, hs⟩), if_neg (fun hp => hs (hnone hp)),
              if_neg (fun h => hs h.1), if_neg hs]
            have hwritten := (hasked kind stream true).trans (setClient (c := c) fun x =>
              { x with recordings := x.recordings.insert kind start })
            unfold recordControlled
            exact (Performs.broadcastRecordState hwritten.send).trans notify

theorem dispatch (env : Env) (c : UserID) (e : Envelope) :
    w.Performs (messageDeeds env w c e.body) (dispatch env w c e).1 := by
  obtain ⟨reqID, body⟩ := e
  cases body with
  | join p => exact handleJoin
  | leave => exact refl w
  | chat text =>
    unfold World.dispatch World.handleChat
    dsimp only
    split_ifs
    · exact refl w
    · split
      · exact refl w
      · split
        · exact refl w
        · split_ifs
          · exact refl w
          · exact (refl w).sendAll
  | mediaState p => exact handleMediaState
  | webrtcOffer p => exact handleWebRTCOffer
  | streamStarted p => exact handleStreamStarted
  | streamStopped p => exact handleStreamStopped
  | recordControl start p => exact handleRecordControl
  | unknown type => exact refl w

/-! ### The step -/

theorem messageDeeds_emit (es : List Event) (env : Env) (c : UserID) (b : Body) :
    messageDeeds env (w.emit es) c b = messageDeeds env w c b := by
  cases b <;> rfl

theorem receive {e : Envelope} :
    w.Performs (messageDeeds env w c e.body) (receive env w c e) := by
  have htaken : w.Performs [] (w.emit [.received c e.body]) := (refl w).emit _ (by simp)
  have hdone := htaken.trans (dispatch env c e)
  rw [messageDeeds_emit] at hdone
  unfold World.receive
  generalize World.dispatch env (w.emit [.received c e.body]) c e = v at hdone
  obtain ⟨v, result⟩ := v
  have hhandled := hdone.emit [.handled c result] (by simp)
  cases result with
  | none => exact hhandled
  | some err => exact hhandled.send

theorem observeLeave {k : ConnID} : w.Performs (w.observeLeaveDeeds k) (w.observeLeave k) := by
  unfold observeLeaveDeeds World.observeLeave
  cases (w.conn k).client with
  | none => exact refl w
  | some u => exact observerLeaveRoom.setConn

theorem addObserver {roomID : RoomID} {u : UserID} {adminUser : String}
    (hl : w.hub.getRoom roomID = some r) :
    (w.Performs (Hub.observeJoinDeeds r u adminUser)
      ((w.setHub (w.hub.allocate u (Hub.observerClient u adminUser))).addObserver ord roomID u).1) ∧
    ((w.setHub (w.hub.allocate u (Hub.observerClient u adminUser))).addObserver ord roomID u).2 =
      none := by
  have hborn := write (w := w) fun h => h.allocate u (Hub.observerClient u adminUser)
  generalize hv : w.setHub (w.hub.allocate u (Hub.observerClient u adminUser)) = v at hborn ⊢
  have hob : v.hub.isObserver u = true := by
    rw [← hv]
    simp [Hub.isObserver, Hub.allocate, Hub.observerClient]
  have hlook : v.hub.getRoom roomID = some r := by rw [← hv]; exact hl
  unfold World.addObserver World.addObserverClient
  simp only [hlook, hob, Bool.not_true, Bool.false_eq_true, if_false]
  refine ⟨?_, trivial⟩
  have hentered := hborn.trans (write fun h => h.addTo r u)
  have hplaced := hentered.trans (setClient (c := u) fun x => { x with room := some r })
  exact ((hplaced.emit _ (by simp)).send.trans notify).trans
    (setClient fun x => { x with room := some r })

theorem handleObserveJoin (hw : w.hub.WellFormed) {k : ConnID} {u : UserID}
    {p : Decoded ObserveJoinPayload} :
    w.Performs (observeJoinDeeds env w k u p) (handleObserveJoin env w k u p).1 := by
  unfold World.observeJoinDeeds World.handleObserveJoin
  cases p with
  | error e => split_ifs <;> exact refl w
  | ok p =>
    dsimp only
    cases hl : w.hub.getRoom (Text.trimSpace p.room) with
    | none => split_ifs <;> exact refl w
    | some r =>
      dsimp only
      by_cases hclient : (w.conn k).client.isSome = true
      · rw [if_pos (Or.inl hclient), if_pos hclient]
        exact refl w
      · rw [if_neg hclient]
        by_cases hid : Text.trimSpace p.room = ""
        · rw [if_pos (Or.inr (Or.inl hid)), if_pos hid]
          exact refl w
        · rw [if_neg hid]
          cases hgate : w.hub.observeGate env.order r p.mode with
          | some e =>
            simp only [Option.isSome_some, or_true, if_true]
            exact refl w
          | none =>
            rw [if_neg (by simp [hclient, hid])]
            -- the room is found again under its own id
            have hown : w.hub.getRoom (w.hub.room r).id = some r := by
              rw [(hw.table _ r hl).1]
              exact hl
            have hadded : w.Performs (Hub.observeJoinDeeds r u (w.conn k).username)
                ((w.setHub (w.hub.allocate u (Hub.observerClient u (w.conn k).username))).addObserver
                  env.order (w.hub.room r).id u).1 ∧
                ((w.setHub (w.hub.allocate u (Hub.observerClient u (w.conn k).username))).addObserver
                  env.order (w.hub.room r).id u).2 = none := addObserver hown
            have hsame : ((w.setHub (w.hub.allocate u (Hub.observerClient u
                (w.conn k).username))).hub.room r).id = (w.hub.room r).id := rfl
            dsimp only
            rw [hsame]
            generalize (w.setHub (w.hub.allocate u (Hub.observerClient u
              (w.conn k).username))).addObserver env.order (w.hub.room r).id u = v at hadded
            obtain ⟨v, e⟩ := v
            obtain ⟨hdone, rfl⟩ := hadded
            exact hdone.setConn (k := k) (f := fun oc =>
              { oc with client := some u, roomID := (v.hub.room r).id })

theorem observeReceive (hw : w.hub.WellFormed) {k : ConnID} {body : ObserveBody} :
    w.Performs (observeDeeds env w k body) (observeReceive env w k q body) := by
  have hpush : ∀ {v : World} {ds : List Deed} type q e, w.Performs ds v →
      w.Performs ds (v.emit [.pushed k type q e]) := fun _ _ _ h => h.emit _ (by simp)
  cases body with
  | join u p =>
    have h : w.Performs (observeJoinDeeds env w k u p) (World.handleObserveJoin env w k u p).1 :=
      handleObserveJoin hw
    unfold World.observeReceive observeDeeds
    dsimp only
    generalize World.handleObserveJoin env w k u p = v at h
    obtain ⟨v, e⟩ := v
    cases e with
    | none => exact h
    | some e => exact hpush _ _ _ h
  | leave => exact hpush _ _ _ observeLeave
  | watchStop detail =>
    unfold World.observeReceive
    dsimp only
    split_ifs
    · exact refl w
    · cases detail with
      | error e => exact hpush _ _ _ (refl w)
      | ok detail =>
        dsimp only
        split_ifs
        · exact (refl w).emit _ (by simp)
        · exact refl w
  | webrtcOffer p =>
    unfold World.observeReceive observeDeeds
    dsimp only
    cases (w.conn k).client with
    | none => exact hpush _ _ _ (refl w)
    | some o =>
      dsimp only
      have h := dispatch (w := w) env o ⟨q, .webrtcOffer p⟩
      generalize World.dispatch env w o ⟨q, .webrtcOffer p⟩ = v at h
      obtain ⟨v, e⟩ := v
      cases e with
      | none => exact h
      | some e => exact hpush _ _ _ h
  | unknown type => exact hpush _ _ _ (refl w)

/-- A step's deeds are what it does to the hub and when it calls the hook. -/
theorem step (hw : w.hub.WellFormed) (i : Input) : w.Performs (w.deeds i) (w.step i) := by
  obtain ⟨op, env⟩ := i
  cases op with
  | connect c =>
    simp only [deeds, World.step]
    split_ifs
    · exact refl w
    · exact write _
  | receive c e =>
    simp only [deeds, World.step]
    split_ifs
    · exact receive
    · exact refl w
  | badEnvelope c cause =>
    simp only [deeds, World.step]
    split_ifs
    · exact (refl w).send
    · exact refl w
  | disconnect c =>
    simp only [deeds, World.step]
    split_ifs
    · exact cleanup
    · exact refl w
  | kick roomID userID reason => exact kickMember
  | dissolve roomID reason => exact dissolveRoom
  | goroutine n =>
    simp only [deeds, World.step, runGoroutine]
    split
    · rename_i c call calls _
      have h := (refl w).emit [.called c call] (by simp)
      exact ⟨h.hub, h.notices⟩
    · exact refl w
  | observeOpen k username =>
    simp only [deeds, World.step]
    split_ifs
    · exact refl w
    · exact (refl w).setConn
  | observe k reqID body =>
    simp only [deeds, World.step]
    split_ifs
    · exact observeReceive hw
    · exact refl w
  | observeClose k =>
    simp only [deeds, World.step, World.observeClose]
    by_cases hopen : (w.conn k).opened = true
    · by_cases hclosed : (w.conn k).closed = true
      · simp only [hopen, hclosed, Bool.not_true, Bool.and_false, Bool.false_eq_true, if_true,
          if_false]
        exact refl w
      · simp only [hopen, hclosed, Bool.not_false, Bool.and_true, if_true, Bool.false_eq_true,
          if_false]
        exact observeLeave.setConn
    · simp only [hopen, Bool.false_and, Bool.false_eq_true, if_false]
      exact refl w

end World.Performs

end Meetkit
