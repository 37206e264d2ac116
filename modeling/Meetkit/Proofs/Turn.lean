import Meetkit.Proofs.Invariant
import Meetkit.Proofs.Quiet

/-! One step of the server, by what it comes to. `Turn` is the inversion of `step`;
every invariant of the server is proved by cases on it. -/

namespace Meetkit

open World

/-- What holds between operations: the hub is well formed and a connection watches
through an observer client. -/
structure World.Sound (w : World) : Prop where
  hub : w.hub.WellFormed
  conn : ∀ k o, (w.conn k).client = some o → w.hub.isObserver o = true

/-- The hub after an observer was let in. -/
def Hub.withObserver (h : Hub) (u : UserID) (username : String) (r : RoomRef) : Hub :=
  ((h.allocate u (observerClient u username)).addTo r u).setClient u fun x =>
    { x with room := some r }

/-- The world in which an observer has been told what it will see. -/
def World.observing (w : World) (ord : MapOrder) (u : UserID) (username : String) (r : RoomRef) :
    World :=
  let v := (w.setHub (w.hub.withObserver u username r)).emit [.joined u (w.hub.room r).id]
  v.send u "" (.observeJoined ⟨u, (w.hub.room r).id, v.hub.snapshotPeers ord r u⟩)

inductive Turn (w : World) (i : Input) : Act → World → Prop
  | quiet {w' : World} (h : Quiet w w') : Turn w i .rest w'
  | connected {c : UserID} (hop : i.op = .connect c) (hc : c ∉ w.hub.used) :
      Turn w i .rest (w.setHub (w.hub.allocate c newClient))
  /-- The error that goes back is quiet. -/
  | served {c : UserID} {e : Envelope} {a : Act} {v : World × Option Err} {w' : World}
      (hop : i.op = .receive c e) (hc : w.serving c = true)
      (h : Handled i.env (w.emit [.received c e.body]) c e.reqID e.body a v) (hq : Quiet v.1 w') :
      Turn w i a w'
  | departed {c : UserID} (hop : i.op = .disconnect c) (hc : w.serving c = true) :
      Turn w i (.depart c (w.departingStreams i.env.order c)) (w.cleanup i.env.order c)
  | called {n : ℕ} (hop : i.op = .goroutine n) : Turn w i (.call n) (w.runGoroutine n)
  /-- An observer is let into a room that passes the gate. -/
  | observed {u : UserID} {k : ConnID} {reqID username mode : String}
      {p : Decoded ObserveJoinPayload} {r : RoomRef} {w' : World}
      (hop : i.op = .observe k reqID (.join u p)) (hu : u ∉ w.hub.used) (hl : w.hub.rooms.lookup (w.hub.room r).id = some r)
      (hgate : w.hub.observeGate i.env.order r mode = none)
      (hw' : w' = ((w.observing i.env.order u username r).notifyStatsChanged).setConn k fun oc =>
        { oc with client := some u, roomID := (w.hub.room r).id }) :
      Turn w i .rest w'
  /-- An observer asks to play a stream. -/
  | watched {o : UserID} {reqID : String} {p : Decoded WebRTCOfferPayload}
      {v : World × Option Err} {w' : World} (ho : w.hub.isObserver o = true)
      (h : Handled i.env w o reqID (.webrtcOffer p) .rest v) (hq : Quiet v.1 w') : Turn w i .rest w'
  /-- An observer leaves. -/
  | unobserved {v w' : World} (h : Aside w v) (hq : Quiet v w') : Turn w i .rest w'

section Step

variable {w : World} {i : Input}

theorem messageAct_emit (es : List Event) (env : Env) (c : UserID) (b : Body) :
    (w.emit es).messageAct env c b = w.messageAct env c b := by
  have hjoin : ∀ p, (handleJoin env (w.emit es) c p).2 = (handleJoin env w c p).2 := by
    intro p
    unfold handleJoin
    rw [emit_hub]
    split
    · rfl
    · split
      · rfl
      · rename_i q mode _ x h _
        dsimp only [World.getOrCreateRoom, setHub_hub, addClient]
        cases (((h.joinFields c q).getOrCreateRoom q.room mode).1.admission
          ((h.joinFields c q).getOrCreateRoom q.room mode).2 c mode) <;> rfl
  cases b with
  | join p =>
    cases p with
    | error e => rfl
    | ok p => simp only [messageAct, hjoin]
  | webrtcOffer p => cases p <;> rfl
  | streamStarted p => cases p <;> rfl
  | streamStopped p => cases p <;> rfl
  | recordControl start p => cases p <;> rfl
  | _ => rfl

theorem observeGate_room {h : Hub} {ord : MapOrder} {r : RoomRef} {mode : String}
    (hg : h.observeGate ord r mode = none) : h.roomHasRealMembers ord (h.room r).id = true := by
  unfold Hub.observeGate at hg
  split_ifs at hg with h1 h2 h3
  simpa using h2

theorem setClient_self {c : UserID} {f : Client → Client} (hf : w.hub.setClient c f = w.hub) :
    w.setClient c f = w := by
  rw [World.setClient, hf]; rfl

@[simp] theorem observing_hub (ord : MapOrder) (u : UserID) (username : String) (r : RoomRef) :
    (w.observing ord u username r).hub = w.hub.withObserver u username r := by
  unfold World.observing
  rw [send_hub, emit_hub, setHub_hub]

theorem withObserver_id (h : Hub) (u : UserID) (username : String) (r : RoomRef) :
    ((h.withObserver u username r).room r).id = (h.room r).id := by
  simp [Hub.withObserver, Hub.addTo, Hub.allocate]

/-- `AddObserverClient` on a room of the table. -/
theorem addObserver_eq {ord : MapOrder} {u : UserID} {username : String} {r : RoomRef}
    (hl : w.hub.rooms.lookup (w.hub.room r).id = some r) :
    (w.setHub (w.hub.allocate u (Hub.observerClient u username))).addObserver ord
      (w.hub.room r).id u = ((w.observing ord u username r).notifyStatsChanged, none) := by
  have hlook : (w.setHub (w.hub.allocate u (Hub.observerClient u username))).hub.getRoom
      (w.hub.room r).id = some r := hl
  have hobs : (w.setHub (w.hub.allocate u (Hub.observerClient u username))).hub.isObserver u =
      true := by
    simp [Hub.isObserver, Hub.allocate, Hub.observerClient]
  have hadd : (w.setHub (w.hub.allocate u (Hub.observerClient u username))).addObserverClient ord
      r u = ((w.observing ord u username r).notifyStatsChanged, none) := by
    simp only [addObserverClient, hobs, Bool.not_true, Bool.false_eq_true, if_false]
    have hjoined : ((((w.setHub (w.hub.allocate u (Hub.observerClient u username))).addTo r
        u).setClient u fun x => { x with room := some r }).hub.room r).id = (w.hub.room r).id :=
      withObserver_id w.hub u username r
    simp only [emit_hub, hjoined]
    rfl
  -- the second write of the observer's room finds it written
  have hself : (w.observing ord u username r).notifyStatsChanged.setClient u
      (fun x => { x with room := some r }) =
      (w.observing ord u username r).notifyStatsChanged := by
    refine setClient_self ?_
    rw [notifyStatsChanged_hub, observing_hub, Hub.withObserver, Hub.setClient_setClient]
    rfl
  simp only [addObserver, hlook, hadd, hself]

/-- An observe-join is refused and changes nothing, or lets the observer in. -/
theorem handleObserveJoin_cases (hw : w.Sound) (env : Env) (k : ConnID) (u : UserID)
    (p : Decoded ObserveJoinPayload) :
    (∃ e, handleObserveJoin env w k u p = (w, some e)) ∨
      ∃ r mode, w.hub.rooms.lookup (w.hub.room r).id = some r ∧
        w.hub.observeGate env.order r mode = none ∧
        handleObserveJoin env w k u p =
          (((w.observing env.order u (w.conn k).username r).notifyStatsChanged).setConn k
            fun oc => { oc with client := some u, roomID := (w.hub.room r).id }, none) := by
  cases hc : (w.conn k).client with
  | some o =>
    exact Or.inl ⟨_, by simp only [handleObserveJoin, hc, Option.isSome_some, if_true]; rfl⟩
  | none =>
    cases p with
    | error e => exact Or.inl ⟨_, by simp [handleObserveJoin, hc]; rfl⟩
    | ok p =>
      by_cases hid : Text.trimSpace p.room = ""
      · exact Or.inl ⟨_, by simp [handleObserveJoin, hc, hid]; rfl⟩
      cases hr : w.hub.getRoom (Text.trimSpace p.room) with
      | none => exact Or.inl ⟨_, by simp [handleObserveJoin, hc, hid, hr]; rfl⟩
      | some r =>
        cases hg : w.hub.observeGate env.order r p.mode with
        | some e => exact Or.inl ⟨e, by simp [handleObserveJoin, hc, hid, hr, hg]⟩
        | none =>
          have hl : w.hub.rooms.lookup (w.hub.room r).id = some r := by
            rw [(hw.hub.table _ r hr).1]; exact hr
          have hadd : (w.setHub (w.hub.allocate u (Hub.observerClient u
              (w.conn k).username))).addObserver env.order ((w.setHub (w.hub.allocate u
                (Hub.observerClient u (w.conn k).username))).hub.room r).id u =
              ((w.observing env.order u (w.conn k).username r).notifyStatsChanged, none) :=
            addObserver_eq hl
          refine Or.inr ⟨r, p.mode, hl, hg, ?_⟩
          simp only [handleObserveJoin, hc, Option.isSome_none, Bool.false_eq_true, if_false,
            if_neg hid, hr, hg, hadd, notifyStatsChanged_hub, observing_hub, withObserver_id]

/-- An observer's offer is never a push. -/
theorem observerOffer_handled {env : Env} {o : UserID} {reqID : String}
    (ho : w.hub.isObserver o = true) (p : Decoded WebRTCOfferPayload) :
    Handled env w o reqID (.webrtcOffer p) .rest (handleWebRTCOffer env w o reqID p) := by
  have h : Handled env w o reqID (.webrtcOffer p) (w.messageAct env o (.webrtcOffer p))
      (handleWebRTCOffer env w o reqID p) := handleWebRTCOffer_handled p
  have hact : w.messageAct env o (.webrtcOffer p) = .rest := by
    cases p with
    | error e => rfl
    | ok p =>
      simp only [messageAct]
      split
      · rfl
      · split_ifs
        · rfl
        · split
          · rename_i hr _
            rw [(resolveOffer_push hr).1] at ho
            cases ho
          · rfl
  rw [hact] at h
  exact h

theorem observeReceive_turn (hw : w.Sound) {k : ConnID} {reqID : String} (body : ObserveBody)
    (hop : i.op = .observe k reqID body) (hfresh : w.observeFresh body = true) :
    Turn w i .rest (observeReceive i.env w k reqID body) := by
  have hpush : ∀ (v : World) type q e, Quiet v (v.emit [.pushed k type q e]) := fun v _ _ _ =>
    .emit v (by simp [Event.neutral, Event.onBooks])
  cases body with
  | join u p =>
    simp only [observeReceive]
    rcases handleObserveJoin_cases hw i.env k u p with ⟨e, he⟩ | ⟨r, mode, hl, hgate, hrun⟩
    · rw [he]
      exact .quiet (hpush _ _ _ _)
    · rw [hrun]
      exact .observed hop (by simpa [observeFresh] using hfresh) hl hgate rfl
  | leave =>
    simp only [observeReceive, observeLeave]
    cases hc : (w.conn k).client with
    | none => exact .quiet (hpush _ _ _ _)
    | some o =>
      exact .unobserved (.observerLeaveRoom hw.hub (hw.conn k o hc))
        ((Quiet.setConn _ k (Or.inl rfl)).trans (hpush _ _ _ _))
  | watchStop detail =>
    simp only [observeReceive]
    split_ifs
    · exact .quiet (.refl w)
    · cases detail with
      | error e => exact .quiet (hpush _ _ _ _)
      | ok detail =>
        dsimp only
        split_ifs
        · exact .quiet (.emit w (by simp [Event.neutral, Event.onBooks]))
        · exact .quiet (.refl w)
  | webrtcOffer p =>
    simp only [observeReceive]
    cases hc : (w.conn k).client with
    | none => exact .quiet (hpush _ _ _ _)
    | some o =>
      have ho := hw.conn k o hc
      have h : Handled i.env w o reqID (.webrtcOffer p) .rest (handleWebRTCOffer i.env w o reqID p) :=
        observerOffer_handled ho p
      have hd : dispatch i.env w o ⟨reqID, .webrtcOffer p⟩ = handleWebRTCOffer i.env w o reqID p := rfl
      cases hv : handleWebRTCOffer i.env w o reqID p with
      | mk v e =>
        rw [hv] at h
        simp only [hd, hv]
        cases e with
        | none => exact .watched ho h (.refl _)
        | some e => exact .watched ho h (hpush _ _ _ _)
  | unknown type => exact .quiet (hpush _ _ _ _)

theorem step_turn (hw : w.Sound) : Turn w i (w.act i) (w.step i) := by
  obtain ⟨op, env⟩ := i
  cases op with
  | connect c =>
    simp only [act, step]
    split_ifs with hc
    · exact .quiet (.refl w)
    · exact .connected rfl hc
  | receive c e =>
    simp only [act, step]
    split_ifs with hc
    · have hbiz := hw.hub.business (serving_iff.1 hc).1
      have h : Handled env (w.emit [.received c e.body]) c e.reqID e.body
          ((w.emit [.received c e.body]).messageAct env c e.body)
          (dispatch env (w.emit [.received c e.body]) c e) := dispatch_handled e hbiz
      rw [messageAct_emit] at h
      unfold receive
      cases hv : dispatch env (w.emit [.received c e.body]) c e with
      | mk v result =>
        rw [hv] at h
        refine .served rfl hc h ?_
        have hhandled : Quiet v (v.emit [.handled c result]) :=
          .emit v (by simp [Event.neutral, Event.onBooks])
        cases result with
        | none => exact hhandled
        | some err => exact hhandled.trans (.send _ c _ rfl)
    · exact .quiet (.refl w)
  | badEnvelope c cause =>
    simp only [act, step]
    split_ifs with hc
    · exact .quiet (.send w c _ rfl)
    · exact .quiet (.refl w)
  | disconnect c =>
    simp only [act, step]
    split_ifs with hc
    · exact .departed rfl hc
    · exact .quiet (.refl w)
  | kick roomID userID reason =>
    simp only [act, step]
    rcases kickMember_eq env.order roomID userID reason hw.hub with h | ⟨-, text, h⟩
    · rw [h]; exact .quiet (.refl w)
    · rw [h]; exact .quiet (.send w _ _ rfl)
  | dissolve roomID reason =>
    simp only [act, step]
    refine .quiet ?_
    unfold dissolveRoom
    cases w.hub.getRoom roomID with
    | none => exact .refl w
    | some r =>
      dsimp only
      by_cases hvictims : ((w.hub.clientsOf env.order r).filter fun c => !w.hub.isObserver c) = []
      · rw [if_pos hvictims]; exact .refl w
      · rw [if_neg hvictims]
        refine Quiet.foldl (p := fun c => c ∈ (w.hub.room r).clients ∧ w.hub.isObserver c = false)
          _ w ?_ ?_
        · intro c hc
          simpa using hc
        · intro v c hv hc
          rw [← hv.hub] at hc
          have hvw : v.hub.WellFormed := by rw [hv.hub]; exact hw.hub
          obtain ⟨text, ht⟩ := forceKick_member env.order hvw hc.1 hc.2
            (if reason = "" then "房间已被管理员解散" else reason)
          rw [ht]
          exact .send v c _ rfl
  | goroutine n => exact .called rfl
  | observeOpen k username =>
    simp only [act, step]
    split_ifs
    · exact .quiet (.refl w)
    · exact .quiet (.setConn w k (Or.inr rfl))
  | observe k reqID body =>
    simp only [act, step]
    split_ifs with hk
    · simp only [Bool.and_eq_true] at hk
      exact observeReceive_turn hw body rfl hk.2
    · exact .quiet (.refl w)
  | observeClose k =>
    simp only [act, step, observeClose]
    split_ifs
    · exact .quiet (.refl w)
    · simp only [observeLeave]
      cases hc : (w.conn k).client with
      | none => exact .quiet (.setConn w k (Or.inr rfl))
      | some o =>
        exact .unobserved (.observerLeaveRoom hw.hub (hw.conn k o hc))
          ((Quiet.setConn _ k (Or.inl rfl)).trans (.setConn _ k (Or.inr rfl)))
    · exact .quiet (.refl w)

end Step

/-! ### Reachable worlds are sound -/

section Sound

variable {env : Env} {w : World} {i : Input} {c : UserID} {reqID : String} {b : Body} {a : Act}

theorem says_announceJoin (w : World) (ord : MapOrder) (r : RoomRef) (c : UserID) :
    w.Says (w.announceJoin ord r c) := by
  unfold announceJoin
  dsimp only
  have h1 := w.says_emit [.joined c (w.hub.room r).id]
  split_ifs
  all_goals
    refine ⟨?_, ?_, ?_⟩
    · simp
    · exact (says_send _ _ _ _).goroutines
    · exact (says_send _ _ _ _).conn

theorem recordControlled_rest (env : Env) (w : World) (r : RoomRef) (c : UserID) (reqID : String)
    (start : Bool) (kind : Kind) (stream : StreamID) :
    (recordControlled env w r c reqID start kind stream).conn = w.conn ∧
      (recordControlled env w r c reqID start kind stream).goroutines = w.goroutines := by
  unfold recordControlled
  dsimp only
  constructor
  · exact (says_broadcastRecordState _ _ _ _ _ _ _).conn.trans (says_send _ _ _ _).conn
  · exact (says_broadcastRecordState _ _ _ _ _ _ _).goroutines.trans (says_send _ _ _ _).goroutines

theorem Handled.conn {v : World × Option Err} (h : Handled env w c reqID b a v) :
    v.1.conn = w.conn := by
  cases h with
  | turnedAway e hf hroom hv hadm => obtain ⟨rfl, rfl⟩ := World.getOrCreateRoom_hub hv; rfl
  | joined hf hroom hv hadm =>
    obtain ⟨rfl, rfl⟩ := World.getOrCreateRoom_hub hv
    exact (says_announceJoin _ _ _ _).conn
  | mediaChanged hroom => exact (says_broadcastMediaState _ _ _ _).conn
  | published sdp hroom hbiz hs => exact (says_send _ _ _ _).conn
  | played m sdp es hroom hm hes => exact (says_send _ _ _ _).conn
  | recorded hroom hbiz hs => exact (recordControlled_rest _ _ _ _ _ _ _ _).1
  | _ => rfl

theorem Handled.isObserver {v : World × Option Err} (h : Handled env w c reqID b a v) (o : UserID) :
    v.1.hub.isObserver o = w.hub.isObserver o := by
  cases h with
  | misjoined e hf hroom => exact Hub.isObserver_setClient (hf.isObserver _) o
  | turnedAway e hf hroom hv hadm =>
    obtain ⟨rfl, rfl⟩ := World.getOrCreateRoom_hub hv
    simp only [Hub.isObserver, World.removeRoomIfEmpty, setHub_hub, Hub.removeRoomIfEmpty_client,
      Hub.getOrCreateRoom_client]
    exact Hub.isObserver_setClient (hf.isObserver _) o
  | joined hf hroom hv hadm =>
    obtain ⟨rfl, rfl⟩ := World.getOrCreateRoom_hub hv
    rw [setClient_hub, Hub.isObserver_setClient rfl, announceJoin_hub]
    simp only [Hub.isObserver, World.addTo, Hub.addTo, setHub_hub, Hub.setRoom_client,
      Hub.getOrCreateRoom_client]
    exact Hub.isObserver_setClient (hf.isObserver _) o
  | mediaChanged hroom =>
    rw [broadcastMediaState_hub, setClient_hub]
    exact Hub.isObserver_setClient (by rfl) o
  | published sdp hroom hbiz hs =>
    rw [send_hub, notifyStatsChanged_hub, startStream_hub]
    exact Hub.isObserver_setClient (by rfl) o
  | played m sdp es hroom hm hes =>
    rw [send_hub, emit_hub, setClient_hub]
    exact Hub.isObserver_setClient (by rfl) o
  | started hroom hbiz hs =>
    rw [startStream_hub]
    exact Hub.isObserver_setClient (by rfl) o
  | stoppedNone hroom hbiz hk hs =>
    rw [setClient_hub]
    exact Hub.isObserver_setClient (by rfl) o
  | stopped hroom hbiz hk hs hne =>
    rw [stopStream_hub, setClient_hub]
    exact Hub.isObserver_setClient (by rfl) o
  | recorded hroom hbiz hs =>
    rw [recordControlled_hub]
    exact Hub.isObserver_setClient (by rfl) o
  | _ => rfl

theorem streamStops_conn (ord : MapOrder) (r : RoomRef) (c : UserID) :
    ∀ (entries : List (Kind × StreamID)) (w : World),
      (entries.foldl (fun w e => w.broadcastStreamStopped ord r c e.1 e.2) w).conn = w.conn := by
  intro entries
  induction entries with
  | nil => intro w; rfl
  | cons e entries ih => intro w; rw [List.foldl_cons, ih]; rfl

theorem withdrawn_conn (w : World) (ord : MapOrder) (r : RoomRef) (c : UserID) :
    (w.withdrawn ord r c).conn = w.conn := by
  unfold withdrawn withdraw
  dsimp only
  rw [emit_conn]
  split_ifs
  all_goals exact streamStops_conn _ _ _ _ _

theorem cleanup_frame (ord : MapOrder) (hw : w.hub.WellFormed) (hc : w.serving c = true) :
    (w.cleanup ord c).conn = w.conn ∧
      ∀ o, (w.cleanup ord c).hub.isObserver o = w.hub.isObserver o := by
  cases hr : (w.hub.client c).room with
  | none =>
    rw [cleanup_outside hc hr, setClient_hub]
    exact ⟨rfl, Hub.isObserver_setClient (by rfl)⟩
  | some r =>
    obtain ⟨v, ha, -, heq⟩ := cleanup_member ord hw hc hr
    rw [heq]
    refine ⟨ha.conn.trans (withdrawn_conn _ _ _ _), fun o => ?_⟩
    have hv : (v.removeRoomIfEmpty r).notifyStatsChanged.hub.isObserver o = v.hub.isObserver o := by
      simp only [Hub.isObserver, notifyStatsChanged_hub, World.removeRoomIfEmpty, setHub_hub,
        Hub.removeRoomIfEmpty_client]
    rw [hv, ha.hub.isObserver, withdrawn_hub]
    exact Hub.isObserver_setClient (by rfl) o

/-- An accepted observer enters as a fresh observer client does. -/
theorem Hub.WellFormed.withObserver {h : Hub} (hw : h.WellFormed) {u : UserID} (hu : u ∉ h.used)
    (username : String) {r : RoomRef} (hl : h.rooms.lookup (h.room r).id = some r) :
    (h.withObserver u username r).WellFormed := by
  have hw' : (h.allocate u (Hub.observerClient u username)).WellFormed :=
    hw.allocate hu rfl rfl ⟨rfl, rfl⟩ rfl
  have hfresh : (h.allocate u (Hub.observerClient u username)).client u =
      Hub.observerClient u username := Function.update_self _ _ _
  refine hw'.enter (by simp [Hub.allocate]) ?_ ?_ hl
  · rw [hfresh]; rfl
  · rw [hfresh]; rfl

theorem Turn.sound {w' : World} (hw : w.Sound) (h : Turn w i a w') : w'.Sound := by
  cases h with
  | quiet h =>
    refine ⟨by rw [h.hub]; exact hw.hub, fun k o ho => ?_⟩
    rw [h.hub]
    rcases h.conn k with hk | hk
    · rw [hk] at ho; cases ho
    · exact hw.conn k o (hk ▸ ho)
  | @connected c hop hc =>
    refine ⟨hw.hub.allocate hc rfl rfl ⟨rfl, rfl⟩ rfl, fun k o ho => ?_⟩
    have hob := hw.conn k o ho
    have hoc : o ≠ c := by rintro rfl; exact hc (hw.hub.used_of_observer hob)
    simp only [Hub.isObserver, setHub_hub, Hub.allocate, Function.update_of_ne hoc]
    exact hob
  | @served c e a v w' hop hc h hq =>
    obtain ⟨hconn, hopen⟩ := serving_iff.1 hc
    refine ⟨?_, fun k o ho => ?_⟩
    · rw [hq.hub]
      have hw' : (w.emit [.received c e.body]).hub.WellFormed := hw.hub
      exact Handled.wellFormed hw' (hw.hub.used_of_hasConn hconn) hopen h
    · rw [hq.hub, h.isObserver]
      rcases hq.conn k with hk | hk
      · rw [hk] at ho; cases ho
      · rw [hk, h.conn] at ho; exact hw.conn k o ho
  | departed hop hc =>
    obtain ⟨hconn, hobs⟩ := cleanup_frame i.env.order hw.hub hc
    exact ⟨cleanup_wellFormed hw.hub hc, fun k o ho => (hobs o).trans (hw.conn k o (hconn ▸ ho))⟩
  | @called n hop =>
    have hsame : (w.runGoroutine n).hub = w.hub ∧ (w.runGoroutine n).conn = w.conn := by
      unfold runGoroutine; split <;> exact ⟨rfl, rfl⟩
    refine ⟨by rw [hsame.1]; exact hw.hub, fun k o ho => ?_⟩
    rw [hsame.1]
    exact hw.conn k o (hsame.2 ▸ ho)
  | @observed u k reqID username mode p r w' hop hu hl hgate hw' =>
    subst hw'
    have hhub : (((w.observing i.env.order u username r).notifyStatsChanged).setConn k fun oc =>
        { oc with client := some u, roomID := (w.hub.room r).id }).hub =
        w.hub.withObserver u username r := observing_hub _ _ _ _
    refine ⟨by rw [hhub]; exact hw.hub.withObserver hu username hl, fun j o ho => ?_⟩
    have hconn : (w.observing i.env.order u username r).conn = w.conn := (says_send _ _ _ _).conn
    have hobs : o = u ∨ w.hub.isObserver o = true := by
      simp only [World.setConn, Function.update_apply] at ho
      split_ifs at ho
      · exact Or.inl (Option.some.inj ho).symm
      · change ((w.observing i.env.order u username r).conn j).client = some o at ho
        rw [hconn] at ho
        exact Or.inr (hw.conn j o ho)
    rw [hhub, Hub.withObserver, Hub.isObserver_setClient (by rfl)]
    simp only [Hub.isObserver, Hub.addTo, Hub.setRoom_client, Hub.allocate, Function.update_apply]
    split_ifs with hou
    · rfl
    · exact hobs.resolve_left hou
  | watched ho h hq =>
    refine ⟨?_, fun k d hd => ?_⟩
    · rw [hq.hub]
      exact h.wellFormed hw.hub (hw.hub.used_of_observer ho) (hw.hub.watching _ ho)
    · rw [hq.hub, h.isObserver]
      rcases hq.conn k with hk | hk
      · rw [hk] at hd; cases hd
      · rw [hk, h.conn] at hd; exact hw.conn k d hd
  | unobserved h hq =>
    refine ⟨by rw [hq.hub]; exact h.wellFormed, fun k o ho => ?_⟩
    rw [hq.hub, h.hub.isObserver]
    rcases hq.conn k with hk | hk
    · rw [hk] at ho; cases ho
    · rw [hk, h.conn] at ho; exact hw.conn k o ho

end Sound

/-- Every world the server reaches is sound. -/
theorem server_sound (token : String) (is : List Input) : ((server token).run is).Sound := by
  refine Machine.run_invariant (P := World.Sound) ?_ ?_ is
  · exact ⟨.init token, fun k o ho => by cases ho⟩
  · intro w i hw
    exact (step_turn hw).sound hw

end Meetkit
