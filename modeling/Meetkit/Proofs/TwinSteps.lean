import Meetkit.Proofs.Twins
import Meetkit.Proofs.Views

/-! Operations of business clients keep twin worlds twins: every handler takes the
same course with and without observers, and a departure settles the same way. -/

namespace Meetkit

open World

/-- The same result, in twin worlds. -/
def Twins (v v' : World × Option Err) : Prop := World.Twin v.1 v'.1 ∧ v'.2 = v.2

/-- A room that has clients has members: observers keep no room alive. -/
def Hub.Watched (h : Hub) : Prop := ∀ r, h.members r = [] → (h.room r).clients = []

namespace Hub.Watched

variable {h : Hub} {c : UserID}

theorem setClient (hw : h.Watched) {f : Client → Client}
    (hf : (f (h.client c)).isObserver = (h.client c).isObserver) : (h.setClient c f).Watched := by
  intro r hr
  refine hw r (List.eq_nil_iff_forall_not_mem.2 fun d hd => ?_)
  exact List.eq_nil_iff_forall_not_mem.1 hr d ((mem_members_setClient hf).2 hd)

theorem getOrCreateRoom (hw : h.Watched) (id : RoomID) (mode : RoomMode) :
    (h.getOrCreateRoom id mode).1.Watched := by
  unfold Hub.getOrCreateRoom
  split
  · exact hw
  · intro r hr
    simp only [Hub.members, Function.update_apply] at hr ⊢
    split_ifs at hr ⊢ with h1
    · rfl
    · exact hw r hr

end Hub.Watched

section Handlers

variable {env : Env} {w w' : World} {c : UserID} {r : RoomRef} {reqID : String}

/-! ### Joining -/

theorem joinSolo_twin {h h' : Hub} (ht : Hub.Twin h h') (hc : h.isObserver c = false)
    (p : JoinPayload) : (h'.joinSolo c p).2 = (h.joinSolo c p).2 ∧
      Hub.Twin (h.joinSolo c p).1 (h'.joinSolo c p).1 := by
  have hrole : ∀ role, Hub.Twin (h.writeSoloRole c role) (h'.writeSoloRole c role) := fun role =>
    ht.setClient hc (by rfl)
  unfold Hub.joinSolo
  split
  · exact ⟨rfl, ht⟩
  · exact ⟨rfl, hrole .play⟩
  · dsimp only
    split
    · exact ⟨rfl, hrole .push⟩
    · rename_i streamID _
      have hc' : (h.writeSoloRole c .push).isObserver c = false :=
        (Hub.isObserver_setClient (by rfl) c).trans hc
      have hplan : Hub.Twin ((h.writeSoloRole c .push).writePlannedStream c streamID)
          ((h'.writeSoloRole c .push).writePlannedStream c streamID) :=
        (hrole .push).setClient hc' (by rfl)
      exact ⟨rfl, hplan⟩

theorem joinFields_twin {h h' : Hub} (ht : Hub.Twin h h') (hc : h.isObserver c = false)
    (p : JoinPayload) : Hub.Twin (h.joinFields c p) (h'.joinFields c p) := by
  obtain ⟨f, hf, hfields⟩ := joinFields_mild c p
  rw [hfields, hfields]
  exact ht.setClient hc (hf.isObserver _)

/-- The checks that come first see the same client. -/
theorem checkJoin_twin {h h' : Hub} (ht : Hub.Twin h h') (hc : h.isObserver c = false)
    (p : Decoded JoinPayload) : h'.checkJoin c p = h.checkJoin c p := by
  unfold Hub.checkJoin
  rw [ht.client c hc]
  simp only [ht.validateToken]

/-- The last part of a join: find or create the room, and be let in or not. -/
theorem enterRoom_twin (ht : Twin w w') (hw : w.hub.Watched) (hc : w.hub.isObserver c = false)
    (ord : MapOrder) (id : RoomID) (mode : RoomMode) :
    Twins
      (match (w.getOrCreateRoom id mode).1.addClient ord (w.getOrCreateRoom id mode).2 c mode with
        | (v, some e) => (v.removeRoomIfEmpty (w.getOrCreateRoom id mode).2, some e)
        | (v, none) => (v.setClient c fun x => { x with room := some (w.getOrCreateRoom id mode).2 }, none))
      (match (w'.getOrCreateRoom id mode).1.addClient ord (w'.getOrCreateRoom id mode).2 c mode with
        | (v, some e) => (v.removeRoomIfEmpty (w'.getOrCreateRoom id mode).2, some e)
        | (v, none) =>
          (v.setClient c fun x => { x with room := some (w'.getOrCreateRoom id mode).2 }, none)) := by
  obtain ⟨href, hroom⟩ := ht.hub.getOrCreateRoom id mode
  have hob : ∀ d, (w.hub.getOrCreateRoom id mode).1.isObserver d = w.hub.isObserver d := fun d => by
    rw [Hub.isObserver, Hub.getOrCreateRoom_client]; rfl
  have hv : Twin (w.getOrCreateRoom id mode).1 (w'.getOrCreateRoom id mode).1 := ht.setHub hroom hob
  have href' : (w'.getOrCreateRoom id mode).2 = (w.getOrCreateRoom id mode).2 := href
  have hvw : (w.getOrCreateRoom id mode).1.hub.Watched := hw.getOrCreateRoom id mode
  have hvc : (w.getOrCreateRoom id mode).1.hub.isObserver c = false := (hob c).trans hc
  rw [href']
  generalize (w.getOrCreateRoom id mode).1 = v at *
  generalize (w'.getOrCreateRoom id mode).1 = v' at *
  generalize (w.getOrCreateRoom id mode).2 = r at *
  unfold addClient
  rw [hv.hub.admission hvc]
  cases v.hub.admission r c mode with
  | some e =>
    have hd : Twin (v.removeRoomIfEmpty r) (v'.removeRoomIfEmpty r) :=
      hv.setHub (hv.hub.removeRoomIfEmpty (hvw r)) fun d => by
        rw [Hub.isObserver, Hub.removeRoomIfEmpty_client]; rfl
    exact ⟨hd, rfl⟩
  | none =>
    have h1 : Twin (v.addTo r c) (v'.addTo r c) := hv.setHub (hv.hub.addTo hvc r) fun _ => rfl
    refine ⟨(h1.announceJoin hvc ord r).setClient ?_ (by rfl), rfl⟩
    rw [announceJoin_hub]
    exact hvc

theorem handleJoin_twin (ht : Twin w w') (hw : w.hub.Watched) (hc : w.hub.isObserver c = false)
    (p : Decoded JoinPayload) : Twins (handleJoin env w c p) (handleJoin env w' c p) := by
  unfold handleJoin
  rw [checkJoin_twin ht.hub hc]
  cases w.hub.checkJoin c p with
  | error e => exact ⟨ht, rfl⟩
  | ok q =>
    obtain ⟨q, mode⟩ := q
    dsimp only
    -- the solo block writes the same fields and ends the same way
    obtain ⟨f, hf, hsolo⟩ : ∃ f, Mild f ∧
        (if mode = .solo then w.hub.joinSolo c q else (w.hub, none)).1 = w.hub.setClient c f := by
      split_ifs
      · exact joinSolo_mild _ _ _
      · refine ⟨id, ⟨?_, ?_, ?_, ?_, ?_, ?_⟩, ?_⟩
        all_goals simp [Hub.setClient]
    have hpair : (if mode = .solo then w'.hub.joinSolo c q else (w'.hub, none)).2 =
        (if mode = .solo then w.hub.joinSolo c q else (w.hub, none)).2 ∧
        Hub.Twin (if mode = .solo then w.hub.joinSolo c q else (w.hub, none)).1
          (if mode = .solo then w'.hub.joinSolo c q else (w'.hub, none)).1 := by
      split_ifs
      · exact joinSolo_twin ht.hub hc q
      · exact ⟨rfl, ht.hub⟩
    cases hsel : (if mode = .solo then w.hub.joinSolo c q else (w.hub, none)) with
    | mk h1 e1 =>
      cases hsel' : (if mode = .solo then w'.hub.joinSolo c q else (w'.hub, none)) with
      | mk h1' e1' =>
        rw [hsel, hsel'] at hpair
        rw [hsel] at hsolo
        obtain ⟨he, hh⟩ := hpair
        dsimp only at he hh hsolo
        subst he hsolo
        have hob : ∀ d, (w.hub.setClient c f).isObserver d = w.hub.isObserver d :=
          Hub.isObserver_setClient (hf.isObserver _)
        cases e1' with
        | some e => exact ⟨ht.setHub hh hob, rfl⟩
        | none =>
          obtain ⟨g, hg, hfields⟩ := joinFields_mild c q
          have hob' : ∀ d, ((w.hub.setClient c f).joinFields c q).isObserver d =
              w.hub.isObserver d := by
            intro d
            rw [hfields, Hub.isObserver_setClient (hg.isObserver _), hob]
          have hready := ht.setHub (joinFields_twin hh ((hob c).trans hc) q) hob'
          have hwatched : ((w.hub.setClient c f).joinFields c q).Watched := by
            rw [hfields]
            exact (hw.setClient (hf.isObserver _)).setClient (hg.isObserver _)
          exact enterRoom_twin hready hwatched ((hob' c).trans hc) env.order q.room mode

/-! ### In a room -/

theorem isObserver_setClient {f : Client → Client}
    (hf : (f (w.hub.client c)).isObserver = (w.hub.client c).isObserver) (d : UserID) :
    (w.setClient c f).hub.isObserver d = w.hub.isObserver d := Hub.isObserver_setClient hf d

theorem handleChat_twin (ht : Twin w w') (hc : w.hub.isObserver c = false) (text : Decoded String) :
    Twins (handleChat env w c text) (handleChat env w' c text) := by
  unfold handleChat requireRoom
  rw [ht.hub.isObserver, hc, ht.hub.client c hc]
  rw [if_neg Bool.false_ne_true, if_neg Bool.false_ne_true]
  cases (w.hub.client c).room with
  | none => exact ⟨ht, rfl⟩
  | some r =>
    cases text with
    | error e => exact ⟨ht, rfl⟩
    | ok text =>
      dsimp only
      split_ifs
      · exact ⟨ht, rfl⟩
      · exact ⟨ht.broadcastChat hc env r text, rfl⟩

theorem handleMediaState_twin (ht : Twin w w') (hc : w.hub.isObserver c = false)
    (p : Decoded MediaStatePayload) :
    Twins (handleMediaState env w c p) (handleMediaState env w' c p) := by
  unfold handleMediaState requireRoom
  rw [ht.hub.isObserver, hc, ht.hub.client c hc]
  rw [if_neg Bool.false_ne_true, if_neg Bool.false_ne_true]
  cases (w.hub.client c).room with
  | none => exact ⟨ht, rfl⟩
  | some r =>
    cases p with
    | error e => exact ⟨ht, rfl⟩
    | ok p =>
      have h1 : Twin (w.setClient c fun x => { x with micOn := p.micOn, camOn := p.camOn })
          (w'.setClient c fun x => { x with micOn := p.micOn, camOn := p.camOn }) :=
        ht.setClient hc (by rfl)
      exact ⟨h1.broadcastMediaState ((isObserver_setClient (by rfl) c).trans hc) env.order r, rfl⟩

theorem resolveOffer_twin (ht : Twin w w') (hc : w.hub.isObserver c = false) (r : RoomRef)
    (p : WebRTCOfferPayload) : w'.resolveOffer r c p = w.resolveOffer r c p := by
  unfold resolveOffer
  simp only [ht.hub.isObserver, hc, ht.hub.targetStreamID, ht.hub.hasStreamID]

theorem registerOffer_twin (ht : Twin w w') (hc : w.hub.isObserver c = false) (ord : MapOrder)
    (r : RoomRef) (p : WebRTCOfferPayload) (stream : StreamID) :
    Twin (w.registerOffer ord r c p stream) (w'.registerOffer ord r c p stream) := by
  have hpush : ∀ kind, Twin
      (((w.emit [.published c (w.hub.room r).id kind stream]).startStream ord r c kind
        stream).notifyStatsChanged)
      (((w'.emit [.published c (w'.hub.room r).id kind stream]).startStream ord r c kind
        stream).notifyStatsChanged) := by
    intro kind
    rw [ht.hub.id]
    exact ((ht.emit _).startStream hc ord r kind stream).emit _
  -- a business client leaves no audit line
  have hplay : ∀ (kind : Kind) (u : UserID) (d d' : String), Twin
      (if (w.recordPull c stream kind u).notifyStatsChanged.hub.isObserver c then
        (w.recordPull c stream kind u).notifyStatsChanged.recordObserveAudit c "observe_start" d
        else (w.recordPull c stream kind u).notifyStatsChanged)
      (if (w'.recordPull c stream kind u).notifyStatsChanged.hub.isObserver c then
        (w'.recordPull c stream kind u).notifyStatsChanged.recordObserveAudit c "observe_start" d'
        else (w'.recordPull c stream kind u).notifyStatsChanged) := by
    intro kind u d d'
    have h1 : Twin (w.recordPull c stream kind u).notifyStatsChanged
        (w'.recordPull c stream kind u).notifyStatsChanged := (ht.setClient hc (by rfl)).emit _
    have hbiz : (w.recordPull c stream kind u).notifyStatsChanged.hub.isObserver c = false := by
      rw [notifyStatsChanged_hub, recordPull]
      exact (isObserver_setClient (by rfl) c).trans hc
    rw [hbiz, h1.hub.isObserver, if_neg Bool.false_ne_true, if_neg Bool.false_ne_true]
    exact h1
  unfold registerOffer
  dsimp only
  by_cases h1 : p.mode = "publish"
  · rw [if_pos h1, if_pos h1]
    exact hpush p.kind
  · rw [if_neg h1, if_neg h1]
    by_cases h2 : p.mode = "publish-solo"
    · rw [if_pos h2, if_pos h2]
      exact hpush "solo"
    · rw [if_neg h2, if_neg h2]
      by_cases h3 : p.mode = "play"
      · simp only [if_pos h3]
        exact hplay p.kind p.targetUserID _ _
      · simp only [if_neg h3]
        exact hplay "solo" "" _ _

theorem registerOffer_isObserver (w : World) (ord : MapOrder) (r : RoomRef) (c : UserID)
    (p : WebRTCOfferPayload) (stream : StreamID) (d : UserID) :
    (w.registerOffer ord r c p stream).hub.isObserver d = w.hub.isObserver d := by
  have haudit : ∀ (v : World) (action detail : String),
      (v.recordObserveAudit c action detail).hub = v.hub := by
    intro v action detail
    unfold recordObserveAudit
    split
    · rfl
    · split_ifs <;> rfl
  have hpull : ∀ (kind : Kind) (u : UserID),
      (w.recordPull c stream kind u).hub.isObserver d = w.hub.isObserver d := by
    intro kind u
    rw [recordPull]
    exact isObserver_setClient (by rfl) d
  have hpush : ∀ kind, ((w.emit [.published c (w.hub.room r).id kind stream]).startStream ord r c kind
      stream).hub.isObserver d = w.hub.isObserver d := by
    intro kind
    rw [startStream_hub, emit_hub]
    exact Hub.isObserver_setClient (by rfl) d
  unfold registerOffer
  dsimp only
  split_ifs <;> simp only [haudit, notifyStatsChanged_hub, hpull, hpush]

theorem handleWebRTCOffer_twin (ht : Twin w w') (hc : w.hub.isObserver c = false)
    (p : Decoded WebRTCOfferPayload) :
    Twins (handleWebRTCOffer env w c reqID p) (handleWebRTCOffer env w' c reqID p) := by
  unfold handleWebRTCOffer requireRoom
  rw [ht.hub.client c hc]
  cases (w.hub.client c).room with
  | none => exact ⟨ht, rfl⟩
  | some r =>
    cases p with
    | error e => exact ⟨ht, rfl⟩
    | ok p =>
      simp only [ht.hub.isObserver, hc, resolveOffer_twin ht hc, Bool.false_eq_true, false_and,
        if_false]
      split_ifs
      · exact ⟨ht, rfl⟩
      · cases w.resolveOffer r c p with
        | error e => exact ⟨ht, rfl⟩
        | ok a =>
          obtain ⟨stream, t⟩ := a
          dsimp only
          rw [ht.hub.id]
          cases env.sdp with
          | error e => exact ⟨ht.emit _, rfl⟩
          | ok sdp =>
            have h1 := registerOffer_twin (ht.emit [.exchangedSDP c t (w.hub.room r).id stream true])
              hc env.order r p stream
            exact ⟨h1.send ((registerOffer_isObserver _ _ _ _ _ _ c).trans hc) _ _, rfl⟩

theorem handleStreamStarted_twin (ht : Twin w w') (hc : w.hub.isObserver c = false)
    (p : Decoded StreamStartedPayload) :
    Twins (handleStreamStarted env w c p) (handleStreamStarted env w' c p) := by
  unfold handleStreamStarted requireRoom
  rw [ht.hub.isObserver, hc, ht.hub.client c hc]
  rw [if_neg Bool.false_ne_true, if_neg Bool.false_ne_true]
  cases (w.hub.client c).room with
  | none => exact ⟨ht, rfl⟩
  | some r =>
    cases p with
    | error e => exact ⟨ht, rfl⟩
    | ok p =>
      dsimp only
      split_ifs
      · exact ⟨ht, rfl⟩
      · exact ⟨ht.startStream hc env.order r p.kind p.streamID, rfl⟩

theorem handleStreamStopped_twin (ht : Twin w w') (hc : w.hub.isObserver c = false)
    (p : Decoded StreamStoppedPayload) :
    Twins (handleStreamStopped env w c p) (handleStreamStopped env w' c p) := by
  unfold handleStreamStopped requireRoom
  rw [ht.hub.isObserver, hc, ht.hub.client c hc]
  rw [if_neg Bool.false_ne_true, if_neg Bool.false_ne_true]
  cases (w.hub.client c).room with
  | none => exact ⟨ht, rfl⟩
  | some r =>
    cases p with
    | error e => exact ⟨ht, rfl⟩
    | ok p =>
      have h1 : Twin (w.setClient c fun x => { x with streams := x.streams.erase p.kind })
          (w'.setClient c fun x => { x with streams := x.streams.erase p.kind }) :=
        ht.setClient hc (by rfl)
      dsimp only
      split_ifs
      · exact ⟨ht, rfl⟩
      · exact ⟨h1.stopStream env.order r c p.kind _, rfl⟩
      · exact ⟨h1, rfl⟩

theorem recordControlled_twin (ht : Twin w w') (hc : w.hub.isObserver c = false) (start : Bool)
    (kind : Kind) (stream : StreamID) :
    Twin (recordControlled env w r c reqID start kind stream)
      (recordControlled env w' r c reqID start kind stream) := by
  have h1 : Twin (w.setClient c fun x => { x with recordings := x.recordings.insert kind start })
      (w'.setClient c fun x => { x with recordings := x.recordings.insert kind start }) :=
    ht.setClient hc (by rfl)
  have h2 := h1.send ((isObserver_setClient (by rfl) c).trans hc)
  exact ((h2 _ _).broadcastRecordState env.order r c kind stream start).emit _

theorem handleRecordControl_twin (ht : Twin w w') (hc : w.hub.isObserver c = false) (start : Bool)
    (p : Decoded RecordControlPayload) :
    Twins (handleRecordControl env w c reqID start p) (handleRecordControl env w' c reqID start p) := by
  have htarget : ∀ q, w'.recordTarget env.order c q = w.recordTarget env.order c q := fun q => by
    simp only [recordTarget, ht.hub.client c hc]
  unfold handleRecordControl requireRoom
  rw [ht.hub.isObserver, hc, ht.hub.client c hc]
  rw [if_neg Bool.false_ne_true, if_neg Bool.false_ne_true]
  cases (w.hub.client c).room with
  | none => exact ⟨ht, rfl⟩
  | some r =>
    cases p with
    | error e => exact ⟨ht, rfl⟩
    | ok p =>
      simp only [htarget, ht.hub.id]
      split_ifs
      · exact ⟨ht, rfl⟩
      · exact ⟨ht, rfl⟩
      · exact ⟨ht, rfl⟩
      · cases env.record with
        | error e => exact ⟨ht.emit _, rfl⟩
        | ok _ => exact ⟨recordControlled_twin (ht.emit _) hc start _ _, rfl⟩

theorem dispatch_twin (ht : Twin w w') (hw : w.hub.Watched) (hc : w.hub.isObserver c = false)
    (e : Envelope) : Twins (dispatch env w c e) (dispatch env w' c e) := by
  unfold dispatch
  cases e.body with
  | join p => exact handleJoin_twin ht hw hc p
  | leave => exact ⟨ht, rfl⟩
  | chat text => exact handleChat_twin ht hc text
  | mediaState p => exact handleMediaState_twin ht hc p
  | webrtcOffer p => exact handleWebRTCOffer_twin ht hc p
  | streamStarted p => exact handleStreamStarted_twin ht hc p
  | streamStopped p => exact handleStreamStopped_twin ht hc p
  | recordControl start p => exact handleRecordControl_twin ht hc start p
  | unknown type => exact ⟨ht, rfl⟩

theorem dispatch_isObserver (e : Envelope) (hc : w.hub.isObserver c = false) (d : UserID) :
    (dispatch env w c e).1.hub.isObserver d = w.hub.isObserver d :=
  (dispatch_handled e hc).isObserver d

theorem receive_twin (ht : Twin w w') (hw : w.hub.Watched) (hc : w.hub.isObserver c = false)
    (e : Envelope) : Twin (receive env w c e) (receive env w' c e) := by
  have h1 := ht.emit [.received c e.body]
  obtain ⟨h2, hres⟩ : Twins (dispatch env (w.emit [.received c e.body]) c e)
      (dispatch env (w'.emit [.received c e.body]) c e) := dispatch_twin h1 hw hc e
  have hob : (dispatch env (w.emit [.received c e.body]) c e).1.hub.isObserver c =
      (w.emit [.received c e.body]).hub.isObserver c := dispatch_isObserver e (by exact hc) c
  unfold receive
  dsimp only
  rw [hres]
  have h3 := h2.emit [.handled c (dispatch env (w.emit [.received c e.body]) c e).2]
  cases hr : (dispatch env (w.emit [.received c e.body]) c e).2 with
  | none =>
    rw [hr] at h3
    exact h3
  | some err =>
    rw [hr] at h3
    exact h3.send (hob.trans hc) _ _

end Handlers

/-! ### Departures -/

section Departures

variable {w w' : World} {c : UserID} {r : RoomRef} {ord : MapOrder}

theorem streamStops_twin (ord : MapOrder) (r : RoomRef) (c : UserID)
    (entries : List (Kind × StreamID)) :
    ∀ {w w' : World}, Twin w w' →
      Twin (entries.foldl (fun w e => w.broadcastStreamStopped ord r c e.1 e.2) w)
        (entries.foldl (fun w e => w.broadcastStreamStopped ord r c e.1 e.2) w') := by
  induction entries with
  | nil => intro w w' ht; exact ht
  | cons e entries ih => intro w w' ht; exact ih (ht.broadcastToAllExcept ord r c _)

theorem withdraw_twin (ht : Twin w w') (hc : w.hub.isObserver c = false) :
    Twin (w.withdraw ord r c) (w'.withdraw ord r c) := by
  have hentries : w'.departingStreams ord c = w.departingStreams ord c := by
    simp only [departingStreams, ht.hub.client c hc]
  have hrecorded : w'.recordedStreams ord c = w.recordedStreams ord c := by
    simp only [recordedStreams, hentries, ht.hub.client c hc]
  have h1 : Twin (w.setClient c fun x => { x with streams := ∅, recordings := ∅ })
      (w'.setClient c fun x => { x with streams := ∅, recordings := ∅ }) :=
    ht.setClient hc (by rfl)
  have h2 := streamStops_twin ord r c (w.departingStreams ord c) h1
  unfold withdraw Room.isBroadcast
  dsimp only
  rw [hentries, hrecorded, h2.hub.mode, ht.hub.id]
  split_ifs
  · exact ((h2.broadcastExcept ord r c _).spawn c _).emit _
  · exact (h2.spawn c _).emit _

theorem withdrawn_twin (ht : Twin w w') (hc : w.hub.isObserver c = false) :
    Twin (w.withdrawn ord r c) (w'.withdrawn ord r c) := by
  have h1 : Twin (w.setClient c fun x => { x with closed := true })
      (w'.setClient c fun x => { x with closed := true }) := ht.setClient hc (by rfl)
  have h2 : Twin ((w.setClient c fun x => { x with closed := true }).removeFrom r c)
      ((w'.setClient c fun x => { x with closed := true }).removeFrom r c) :=
    h1.setHub (h1.hub.removeFrom r c) fun _ => rfl
  have hc1 : (w.setClient c fun x => { x with closed := true }).hub.isObserver c = false :=
    (isObserver_setClient (by rfl) c).trans hc
  exact withdraw_twin h2 hc1

theorem World.Aside.trace {v : World} (ha : Aside w v) {d : UserID}
    (hd : v.hub.isObserver d = false) : Meetkit.trace d v.log = Meetkit.trace d w.log := by
  rw [ha.hub.isObserver] at hd
  obtain ⟨es, hlog, hes⟩ := ha.log
  have hnone : Meetkit.trace d es = [] := by
    refine List.filter_eq_nil_iff.2 fun e he => ?_
    rcases hes e he with rfl | ⟨o, q, m, rfl, ho, -⟩
    · simp [Event.owner]
    · have hne : o ≠ d := by rintro rfl; rw [ho] at hd; cases hd
      simp [Event.owner, hne]
  rw [hlog, trace_append, hnone, List.append_nil]

/-- What observers do on their way out shows on no business client, the table apart. -/
theorem World.Twin.aside {v : World} (ht : Twin w w') (ha : Aside w v) :
    Twin v (w'.setHub { w'.hub with rooms := v.hub.rooms }) where
  hub := {
    token := ht.hub.token.trans ha.hub.token.symm
    rooms := rfl
    nextRoom := ht.hub.nextRoom.trans ha.hub.nextRoom.symm
    id := fun r => (ht.hub.id r).trans (ha.hub.id r).symm
    mode := fun r => (ht.hub.mode r).trans (ha.hub.mode r).symm
    clients := fun r => (ht.hub.clients r).trans (ha.hub.members r).symm
    client := fun d hd => by
      rw [ha.hub.isObserver] at hd
      exact (ht.hub.client d hd).trans (ha.hub.client d hd).symm
    unborn := fun d hd => ht.hub.unborn d ((ha.hub.isObserver d).symm.trans hd)
    silent := fun d hd => (ha.wellFormed.silent d hd).1
    used := fun d hd => by
      rw [ha.hub.used]; exact ht.hub.used d ((ha.hub.isObserver d).symm.trans hd) }
  goroutines := ht.goroutines.trans ha.goroutines.symm
  trace d hd := by
    rw [setHub_log, ht.trace d ((ha.hub.isObserver d).symm.trans hd)]
    exact (ha.trace hd).symm

/-- Dismissal takes every observer out of the room. The table loses the room at
most, and only when it has no members. -/
theorem dismissAll_gone (message : String) :
    ∀ (os : List UserID) {w : World}, w.hub.WellFormed → os.Nodup →
      (∀ o ∈ os, w.hub.isObserver o = true ∧ o ∈ (w.hub.room r).clients) →
      (∀ o ∈ os, o ∉ ((os.foldl (fun w c => (w.send c "" (.observeEnded message)).observerLeaveRoom
        c) w).hub.room r).clients) ∧
      ((os.foldl (fun w c => (w.send c "" (.observeEnded message)).observerLeaveRoom c) w).hub.rooms =
          w.hub.rooms ∨
        w.hub.members r = [] ∧
        (os.foldl (fun w c => (w.send c "" (.observeEnded message)).observerLeaveRoom c) w).hub.rooms =
          w.hub.rooms.erase (w.hub.room r).id) := by
  intro os
  induction os with
  | nil => intro w _ _ _; exact ⟨fun o ho => absurd ho List.not_mem_nil, Or.inl rfl⟩
  | cons o os ih =>
    intro w hw hos hmem
    rw [List.nodup_cons] at hos
    obtain ⟨ho, hor⟩ := hmem o (by simp)
    have h1 : Aside w (w.send o "" (.observeEnded message)) := .send hw ho _ rfl
    have hhub : (w.send o "" (.observeEnded message)).hub = w.hub := send_hub _ _ _ _
    have ho1 : (w.send o "" (.observeEnded message)).hub.isObserver o = true := by rw [hhub]; exact ho
    have hroom1 : ((w.send o "" (.observeEnded message)).hub.client o).room = some r := by
      rw [hhub]; exact (hw.member r o hor).1
    have h2 : Aside w ((w.send o "" (.observeEnded message)).observerLeaveRoom o) :=
      h1.trans (.observerLeaveRoom h1.wellFormed ho1)
    have heq : ((w.send o "" (.observeEnded message)).observerLeaveRoom o).hub =
        w.hub.withoutObserver r o := by
      rw [Aside.observerLeaveRoom_eq h1.wellFormed ho1 hroom1, notifyStatsChanged_hub, setHub_hub, hhub]
    simp only [List.foldl_cons]
    generalize (w.send o "" (.observeEnded message)).observerLeaveRoom o = w2 at h2 heq ⊢
    have hclients : (w2.hub.room r).clients = (w.hub.room r).clients.erase o := by
      rw [heq, Hub.withoutObserver, Hub.removeRoomIfEmpty_room, Hub.setClient_room, Hub.removeFrom,
        Hub.setRoom_same]
      rfl
    have hrest : ∀ o' ∈ os, w2.hub.isObserver o' = true ∧ o' ∈ (w2.hub.room r).clients := by
      intro o' ho'
      obtain ⟨hob, hin⟩ := hmem o' (by simp [ho'])
      refine ⟨(h2.hub.isObserver o').trans hob, ?_⟩
      have hne : o' ≠ o := by rintro rfl; exact hos.1 ho'
      rw [hclients]
      exact (List.mem_erase_of_ne hne).2 hin
    have hrooms : w2.hub.rooms = w.hub.rooms ∨
        w.hub.members r = [] ∧ w2.hub.rooms = w.hub.rooms.erase (w.hub.room r).id := by
      rw [heq, Hub.withoutObserver]
      unfold Hub.removeRoomIfEmpty
      split_ifs with hempty
      · refine Or.inr ⟨?_, ?_⟩
        · rw [← h2.hub.members, Hub.members, hclients]
          rw [Hub.setClient_room, Hub.removeFrom, Hub.setRoom_same] at hempty
          rw [show (w.hub.room r).clients.erase o = [] from hempty]
          rfl
        · simp [Hub.removeFrom]
      · exact Or.inl rfl
    obtain ⟨hgone, hlast⟩ := ih h2.wellFormed hos.2 hrest
    have hall : Aside w2 (os.foldl (fun w c => (w.send c "" (.observeEnded message)).observerLeaveRoom
        c) w2) := .dismissAll message os h2.wellFormed fun o' ho' => (hrest o' ho').1
    refine ⟨fun o' ho' => ?_, ?_⟩
    · rcases List.mem_cons.1 ho' with rfl | ho'
      · intro hin
        have hin2 := hall.hub.was r o' hin
        rw [hclients] at hin2
        exact (w.hub.room r).nodup.not_mem_erase hin2
      · exact hgone o' ho'
    · rw [h2.hub.members, h2.hub.id] at hlast
      rcases hlast with hl | ⟨hm, hl⟩
      · rw [hl]; exact hrooms
      · refine Or.inr ⟨hm, ?_⟩
        rw [hl]
        rcases hrooms with hr | ⟨-, hr⟩
        · rw [hr]
        · rw [hr, GoMap.erase_erase]

/-- How the departure of a member ends for the observers of its room. If it has no
members left, they are gone too, and the table may have lost the room already. -/
theorem settled {v : World} (hw : w.hub.WellFormed)
    (hv : v = if w.hub.isBusinessActive r then w else w.dismissObservers ord r "业务已结束") :
    (v.hub.members r = [] → (v.hub.room r).clients = []) ∧
      (v.hub.rooms = w.hub.rooms ∨
        w.hub.members r = [] ∧ v.hub.rooms = w.hub.rooms.erase (w.hub.room r).id) := by
  by_cases hactive : w.hub.isBusinessActive r = true
  · rw [if_pos hactive] at hv
    subst hv
    refine ⟨fun hnil => ?_, Or.inl rfl⟩
    simp [Hub.isBusinessActive, hnil] at hactive
  · rw [if_neg hactive] at hv
    have ha : Aside w v := hv ▸ .dismissObservers hw ord r _
    obtain ⟨hgone, hrooms⟩ := dismissAll_gone (r := r) "业务已结束"
      ((w.hub.clientsOf ord r).filter fun c => w.hub.isObserver c) hw
      ((Hub.clientsOf_nodup _ _ _).filter _) (fun o ho => by simpa [and_comm] using ho)
    change (∀ o ∈ _, o ∉ ((w.dismissObservers ord r "业务已结束").hub.room r).clients) at hgone
    change (w.dismissObservers ord r "业务已结束").hub.rooms = _ ∨
      _ ∧ (w.dismissObservers ord r "业务已结束").hub.rooms = _ at hrooms
    rw [← hv] at hgone hrooms
    refine ⟨fun hnil => List.eq_nil_iff_forall_not_mem.2 fun d hd => ?_, hrooms⟩
    cases hob : v.hub.isObserver d with
    | false => exact List.eq_nil_iff_forall_not_mem.1 hnil d (Hub.mem_members.2 ⟨hd, hob⟩)
    | true =>
      rw [ha.hub.isObserver] at hob
      exact hgone d (List.mem_filter.2 ⟨Hub.mem_clientsOf.2 (ha.hub.was r d hd), hob⟩) hd

theorem settled_twin {v : World} (ht : Twin w w') (ha : Aside w v)
    (hwatched : v.hub.members r = [] → (v.hub.room r).clients = [])
    (hrooms : v.hub.rooms = w.hub.rooms ∨
      w.hub.members r = [] ∧ v.hub.rooms = w.hub.rooms.erase (w.hub.room r).id) :
    Twin (v.removeRoomIfEmpty r) (w'.removeRoomIfEmpty r) := by
  have htv := ht.aside ha
  have hlast := htv.setHub (htv.hub.removeRoomIfEmpty hwatched) fun d => by
    rw [Hub.isObserver, Hub.removeRoomIfEmpty_client]; rfl
  have heq : ({ w'.hub with rooms := v.hub.rooms } : Hub).removeRoomIfEmpty r =
      w'.hub.removeRoomIfEmpty r := by
    unfold Hub.removeRoomIfEmpty
    dsimp only
    split_ifs with hempty
    · -- the table loses the room, now or when its last observer left
      rcases hrooms with hr | ⟨-, hr⟩
      · rw [hr, ht.hub.rooms]
      · rw [hr, ht.hub.rooms, ht.hub.id, GoMap.erase_erase]
    · rcases hrooms with hr | ⟨hm, -⟩
      · rw [hr, ← ht.hub.rooms]
      · exact absurd ((ht.hub.clients r).trans hm) hempty
  rw [setHub_hub, heq] at hlast
  exact hlast

/-- A world without observers has nobody to dismiss. -/
theorem dismissObservers_nobody (h : ∀ d, w.hub.isObserver d = false) (message : String) :
    w.dismissObservers ord r message = w := by
  have hnil : (w.hub.clientsOf ord r).filter (fun d => w.hub.isObserver d) = [] :=
    List.filter_eq_nil_iff.2 fun d _ => by simp [h d]
  rw [dismissObservers, hnil]
  rfl

theorem cleanup_twin (ht : Twin w w') (hw : w.hub.WellFormed) (hw' : w'.hub.WellFormed)
    (hc : w.serving c = true) : Twin (w.cleanup ord c) (w'.cleanup ord c) := by
  have hbiz := hw.business (serving_iff.1 hc).1
  have hclient := ht.hub.client c hbiz
  have hc' : w'.serving c = true := by rw [serving, hclient]; exact hc
  cases hr : (w.hub.client c).room with
  | none =>
    have hr' : (w'.hub.client c).room = none := by rw [hclient]; exact hr
    rw [cleanup_outside hc hr, cleanup_outside hc' hr']
    exact ht.setClient hbiz (by rfl)
  | some r =>
    have hr' : (w'.hub.client c).room = some r := by rw [hclient]; exact hr
    obtain ⟨v, ha, hv, heq⟩ := cleanup_member ord hw hc hr
    obtain ⟨v', -, hv', heq'⟩ := cleanup_member ord hw' hc' hr'
    have htw : Twin (w.withdrawn ord r c) (w'.withdrawn ord r c) := withdrawn_twin ht hbiz
    have hnobody : v' = w'.withdrawn ord r c := by
      rw [hv', dismissObservers_nobody htw.hub.isObserver, ite_self]
    have hwf : (w.withdrawn ord r c).hub.WellFormed := by
      rw [withdrawn_hub]; exact hw.withoutMember hbiz hr
    obtain ⟨hwatched, hrooms⟩ := settled hwf hv
    rw [heq, heq', hnobody]
    exact (settled_twin htw ha hwatched hrooms).emit _

theorem cleanup_watched (hw : w.hub.WellFormed) (hwatched : w.hub.Watched)
    (hc : w.serving c = true) : (w.cleanup ord c).hub.Watched := by
  cases hr : (w.hub.client c).room with
  | none =>
    rw [cleanup_outside hc hr, setClient_hub]
    exact hwatched.setClient (by rfl)
  | some r =>
    obtain ⟨v, ha, hv, heq⟩ := cleanup_member ord hw hc hr
    have hwf : (w.withdrawn ord r c).hub.WellFormed := by
      rw [withdrawn_hub]; exact hw.withoutMember (hw.business (serving_iff.1 hc).1) hr
    obtain ⟨hsettled, -⟩ := settled hwf hv
    rw [heq, notifyStatsChanged_hub]
    intro s hs
    have hs' : v.hub.members s = [] := by
      simpa [Hub.members, Hub.isObserver, World.removeRoomIfEmpty] using hs
    have hgoal : (v.hub.room s).clients = [] := by
      by_cases hsr : s = r
      · subst hsr; exact hsettled hs'
      · -- nothing happened in the other rooms
        have hroom : ((w.withdrawn ord r c).hub.room s) = w.hub.room s := by
          rw [withdrawn_hub, Hub.withoutMember_room, if_neg hsr]
        have hob : ∀ d, (w.withdrawn ord r c).hub.isObserver d = w.hub.isObserver d := fun d => by
          rw [withdrawn_hub, Hub.withoutMember_isObserver]
        have hnil : w.hub.members s = [] := by
          rw [ha.hub.members] at hs'
          simpa only [Hub.members, hroom, hob] using hs'
        refine List.eq_nil_iff_forall_not_mem.2 fun d hd => ?_
        have hd' := ha.hub.was s d hd
        rw [hroom, hwatched s hnil] at hd'
        exact List.not_mem_nil hd'
    simpa [World.removeRoomIfEmpty] using hgoal

end Departures

/-! ### Runs -/

/-- An operation of a business connection, of the administrator towards members, or
of a goroutine. -/
def Input.ofBusiness (i : Input) : Bool :=
  match i.op with
  | .observeOpen .. | .observe .. | .observeClose _ => false
  | _ => true

/-- The user id an operation gives out. -/
def Input.newID (i : Input) : Option UserID :=
  match i.op with
  | .connect c => some c
  | .observe _ _ (.join u _) => some u
  | _ => none

/-- No connection gets the id of an observer. -/
def World.FreshConnect (w : World) (i : Input) : Prop :=
  ∀ c, i.op = .connect c → w.hub.isObserver c = false

section Steps

variable {w w' : World} {i : Input}

theorem forceKick_twin (ord : MapOrder) {c : UserID} {r : RoomRef} (ht : Twin w w')
    (hw : w.hub.WellFormed) (hc : c ∈ (w.hub.room r).clients) (hbiz : w.hub.isObserver c = false)
    (reason : String) : Twin (w.forceKick ord c reason) (w'.forceKick ord c reason) := by
  have hborn := hw.born c (hw.used_of_room (hw.member r c hc).1)
  rw [hbiz] at hborn
  simp only [forceKick, ht.hub.client c hbiz, hborn, Bool.not_false, if_true]
  exact ht.send hbiz _ _

theorem kickMember_twin (ht : Twin w w') (hw : w.hub.WellFormed) (ord : MapOrder) (roomID : RoomID)
    (userID : UserID) (reason : String) : Twin (w.kickMember ord roomID userID reason).1
      (w'.kickMember ord roomID userID reason).1 := by
  unfold kickMember Hub.getRoom
  rw [ht.hub.rooms]
  cases w.hub.rooms.lookup roomID with
  | none => exact ht
  | some r =>
    dsimp only
    rw [ht.hub.isObserver, if_neg Bool.false_ne_true]
    cases hob : w.hub.isObserver userID with
    | true =>
      -- the twin does not have the observer
      have hno : userID ∉ (w'.hub.room r).clients := by rw [ht.hub.clients]; simp [hob]
      rw [if_pos hno, if_pos rfl]
      split_ifs
      · exact ht
      · exact ht
    | false =>
      rw [if_neg Bool.false_ne_true]
      simp only [ht.hub.mem hob]
      by_cases hmem : userID ∈ (w.hub.room r).clients
      · rw [if_neg (not_not.2 hmem), if_neg (not_not.2 hmem)]
        exact forceKick_twin _ ht hw hmem hob reason
      · rw [if_pos hmem, if_pos hmem]
        exact ht

theorem dissolveRoom_twin (ht : Twin w w') (hw : w.hub.WellFormed) (ord : MapOrder) (roomID : RoomID)
    (reason : String) :
    Twin (w.dissolveRoom ord roomID reason).1 (w'.dissolveRoom ord roomID reason).1 := by
  -- a kick of a member is a message, so the hub stays as it is
  have hloop : ∀ (r : RoomRef) (text : String) (victims : List UserID) {v v' : World},
      v.hub = w.hub → Twin v v' →
      (∀ c ∈ victims, c ∈ (w.hub.room r).clients ∧ w.hub.isObserver c = false) →
      Twin (victims.foldl (fun w c => w.forceKick ord c text) v)
        (victims.foldl (fun w c => w.forceKick ord c text) v') := by
    intro r text victims
    induction victims with
    | nil => intro v v' _ htv _; exact htv
    | cons c victims ih =>
      intro v v' hv htv hvictims
      obtain ⟨hc, hbiz⟩ := hvictims c (by simp)
      have hvw : v.hub.WellFormed := by rw [hv]; exact hw
      have hone := forceKick_twin ord htv hvw (hv ▸ hc) (hv ▸ hbiz) text
      obtain ⟨t, ht'⟩ := forceKick_member ord hvw (hv ▸ hc) (hv ▸ hbiz) text
      refine ih ?_ hone fun d hd => hvictims d (by simp [hd])
      exact (congrArg World.hub ht').trans ((send_hub v c _ _).trans hv)
  have hvictims : ∀ r, (w'.hub.clientsOf ord r).filter (fun c => !w'.hub.isObserver c) =
      (w.hub.clientsOf ord r).filter fun c => !w.hub.isObserver c := fun r => by
    simpa using ht.hub.loop ord r fun _ => true
  unfold dissolveRoom Hub.getRoom
  rw [ht.hub.rooms]
  cases w.hub.rooms.lookup roomID with
  | none => exact ht
  | some r =>
    dsimp only
    rw [hvictims]
    split_ifs
    · exact ht
    · exact hloop r _ _ rfl ht fun c hc => by simpa using hc
    · exact hloop r _ _ rfl ht fun c hc => by simpa using hc

theorem step_twin (ht : Twin w w') (hw : w.Sound) (hw' : w'.Sound) (hwatched : w.hub.Watched)
    (hi : i.ofBusiness = true) (hfresh : w.FreshConnect i) : Twin (w.step i) (w'.step i) := by
  -- a connection serves on both sides or on neither
  have hserving : ∀ c, w'.serving c = w.serving c := by
    intro c
    cases hc : w.hub.isObserver c with
    | false => rw [serving, serving, ht.hub.client c hc]
    | true =>
      have hborn := hw.hub.born c (hw.hub.used_of_observer hc)
      rw [hc] at hborn
      rw [serving, serving, ht.hub.unborn c hc, hborn]
      rfl
  obtain ⟨op, env⟩ := i
  cases op with
  | connect c =>
    have hc : w.hub.isObserver c = false := hfresh c rfl
    simp only [step, ht.hub.used c hc]
    split_ifs
    · exact ht
    · exact ht.setHub (ht.hub.allocate hc rfl) fun d => Hub.Twin.isObserver_allocate hc rfl d
  | receive c e =>
    simp only [step, hserving]
    split_ifs with hc
    · exact receive_twin ht hwatched (hw.hub.business (serving_iff.1 hc).1) e
    · exact ht
  | badEnvelope c cause =>
    simp only [step, hserving]
    split_ifs with hc
    · exact ht.send (hw.hub.business (serving_iff.1 hc).1) _ _
    · exact ht
  | disconnect c =>
    simp only [step, hserving]
    split_ifs with hc
    · exact cleanup_twin ht hw.hub hw'.hub hc
    · exact ht
  | kick roomID userID reason => exact kickMember_twin ht hw.hub env.order roomID userID reason
  | dissolve roomID reason => exact dissolveRoom_twin ht hw.hub env.order roomID reason
  | goroutine n =>
    simp only [step, runGoroutine, ht.goroutines]
    split
    · exact ⟨ht.hub, rfl, (ht.emit _).trace⟩
    · exact ht
  | observeOpen k username => cases hi
  | observe k reqID body => cases hi
  | observeClose k => cases hi

end Steps

end Meetkit
