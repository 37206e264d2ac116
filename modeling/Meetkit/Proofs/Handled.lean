import Meetkit.Abstract.Books
import Meetkit.Proofs.WellFormed

/-! What a dispatched message comes to: a refusal that changes nothing, or one of
the changes below. Everything proved about a message is proved by cases on
`Handled`; the handlers themselves are opened only here. -/

namespace Meetkit

/-- The client an event is about. -/
def Event.owner : Event → Option UserID
  | .received c _ | .handled c _ | .sent c _ _ | .joined c _ | .departed c _ => some c
  | .exchangedSDP c .. | .published c .. | .startedRecord c .. | .stoppedRecord c .. => some c
  | .spawned c _ | .called c _ => some c
  | .statsChanged | .audited .. | .pushed .. => none

theorem Event.off_of_owner {e : Event} (he : e.owner = none) :
    e.onBooks = false ∧ ∀ d q m, e ≠ .sent d q m := by
  cases e with
  | statsChanged | audited | pushed => exact ⟨rfl, by simp⟩
  | _ => cases he

/-- The kind a push is registered under. -/
def offerKind (p : WebRTCOfferPayload) : Kind := if p.mode = "publish" then p.kind else "solo"

namespace World

/-- What a message amounts to on the books. -/
def messageAct (env : Env) (w : World) (c : UserID) : Body → Act
  | .join (.ok p) => if (handleJoin env w c (.ok p)).2 = none then .join c p.room else .rest
  | .webrtcOffer (.ok p) =>
    match (w.hub.client c).room with
    | none => .rest
    | some r =>
      if p.sdp = "" then .rest
      else match w.resolveOffer r c p, env.sdp with
        | .ok (stream, .push), .ok _ => .publish c (offerKind p) stream
        | _, _ => .rest
  | .streamStarted (.ok p) =>
    if (w.hub.client c).room = none ∨ p.kind = "" ∨ p.streamID = "" then .rest
    else .start c p.kind p.streamID
  | .streamStopped (.ok p) => .stop c p
  | .recordControl start (.ok p) =>
    let e := w.recordTarget env.order c p
    if (w.hub.client c).room = none ∨ e.2 = "" then .rest
    else .record c start e.1 e.2 (env.record matches .ok _)
  | _ => .rest

/-- What an operation amounts to on the books. -/
def act (w : World) (i : Input) : Act :=
  match i.op with
  | .receive c e => if w.serving c then w.messageAct i.env c e.body else .rest
  | .disconnect c =>
    if w.serving c then .depart c (w.departingStreams i.env.order c) else .rest
  | .goroutine n => .call n
  | _ => .rest

end World

open World

inductive Handled (env : Env) (w : World) (c : UserID) (reqID : String) :
    Body → Act → World × Option Err → Prop
  | refused {b : Body} (e : Err) (hb : ∀ p, b ≠ .streamStopped (.ok p)) :
      Handled env w c reqID b .rest (w, some e)
  | ignored {b : Body} (hb : ∀ p, b ≠ .streamStopped (.ok p)) : Handled env w c reqID b .rest (w, none)
  /-- A join refused for its solo fields, some of which are written by then. -/
  | misjoined {p : Decoded JoinPayload} {f : Client → Client} (e : Err) (hf : Mild f)
      (hroom : (w.hub.client c).room = none) :
      Handled env w c reqID (.join p) .rest (w.setClient c f, some e)
  | turnedAway {p : Decoded JoinPayload} {f : Client → Client} {id : RoomID} {mode : RoomMode}
      {v : World} {r : RoomRef} (e : Err) (hf : Mild f) (hroom : (w.hub.client c).room = none)
      (hv : (w.setClient c f).getOrCreateRoom id mode = (v, r))
      (hadm : v.hub.admission r c mode = some e) :
      Handled env w c reqID (.join p) .rest (v.removeRoomIfEmpty r, some e)
  | joined {p : JoinPayload} {f : Client → Client} {mode : RoomMode} {v : World} {r : RoomRef}
      (hf : Mild f) (hroom : (w.hub.client c).room = none)
      (hv : (w.setClient c f).getOrCreateRoom p.room mode = (v, r))
      (hadm : v.hub.admission r c mode = none) :
      Handled env w c reqID (.join (.ok p)) (.join c p.room)
        (((v.addTo r c).announceJoin env.order r c).setClient c fun x => { x with room := some r },
          none)
  | chatted {text : String} {r : RoomRef} (hroom : (w.hub.client c).room = some r) :
      Handled env w c reqID (.chat (.ok text)) .rest (w.broadcastChat env r c text, none)
  | mediaChanged {p : MediaStatePayload} {r : RoomRef} (hroom : (w.hub.client c).room = some r) :
      Handled env w c reqID (.mediaState (.ok p)) .rest
        ((w.setClient c fun x => { x with micOn := p.micOn, camOn := p.camOn }).broadcastMediaState
          env.order r c, none)
  | exchangeFailed {p : WebRTCOfferPayload} {t : WebRTCType} {app : RoomID} {stream : StreamID}
      (e : Err) :
      Handled env w c reqID (.webrtcOffer (.ok p)) .rest
        (w.emit [.exchangedSDP c t app stream false], some e)
  | published {p : WebRTCOfferPayload} {r : RoomRef} {stream : StreamID} (sdp : String)
      (hroom : (w.hub.client c).room = some r) (hbiz : w.hub.isObserver c = false)
      (hs : stream ≠ "") :
      Handled env w c reqID (.webrtcOffer (.ok p)) (.publish c (offerKind p) stream)
        (((((w.emit [.exchangedSDP c .push (w.hub.room r).id stream true]).emit
            [.published c (w.hub.room r).id (offerKind p) stream]).startStream env.order r c
              (offerKind p) stream).notifyStatsChanged).send c reqID
                (.webrtcAnswer ⟨p.mode, p.kind, p.targetUserID, stream, sdp⟩), none)
  | played {p : WebRTCOfferPayload} {r : RoomRef} {stream key : StreamID} {entry : PullEntry}
      (m : ServerMsg) (sdp : String) (es : List Event)
      (hroom : (w.hub.client c).room = some r)
      (hm : m = .webrtcAnswer ⟨p.mode, p.kind, p.targetUserID, stream, sdp⟩)
      (hes : ∀ e ∈ es, e.owner = none) :
      Handled env w c reqID (.webrtcOffer (.ok p)) .rest
        (((w.setClient c fun x => { x with pulling := x.pulling.insert key entry }).emit
          (.exchangedSDP c .play (w.hub.room r).id stream true :: es)).send c reqID m, none)
  | started {p : StreamStartedPayload} {r : RoomRef} (hroom : (w.hub.client c).room = some r)
      (hbiz : w.hub.isObserver c = false) (hs : p.streamID ≠ "") :
      Handled env w c reqID (.streamStarted (.ok p)) (.start c p.kind p.streamID)
        (w.startStream env.order r c p.kind p.streamID, none)
  | unstopped {p : StreamStoppedPayload} (e : Err)
      (hp : (w.hub.client c).room = none ∨ p.kind = "") :
      Handled env w c reqID (.streamStopped (.ok p)) (.stop c p) (w, some e)
  | stoppedNone {p : StreamStoppedPayload} {r : RoomRef}
      (hroom : (w.hub.client c).room = some r) (hbiz : w.hub.isObserver c = false)
      (hk : p.kind ≠ "")
      (hs : ((w.hub.client c).streams.lookup p.kind).getD "" = "") :
      Handled env w c reqID (.streamStopped (.ok p)) (.stop c p)
        (w.setClient c fun x => { x with streams := x.streams.erase p.kind }, none)
  | stopped {p : StreamStoppedPayload} {r : RoomRef} {stream : StreamID}
      (hroom : (w.hub.client c).room = some r) (hbiz : w.hub.isObserver c = false)
      (hk : p.kind ≠ "")
      (hs : (w.hub.client c).streams.lookup p.kind = some stream) (hne : stream ≠ "") :
      Handled env w c reqID (.streamStopped (.ok p)) (.stop c p)
        ((w.setClient c fun x => { x with streams := x.streams.erase p.kind }).stopStream env.order r
          c p.kind stream, none)
  | recordFailed {start : Bool} {p : RecordControlPayload} {r : RoomRef} {kind : Kind}
      {stream : StreamID} (e : Err) (hroom : (w.hub.client c).room = some r)
      (hs : (w.hub.client c).streams.lookup kind = some stream) :
      Handled env w c reqID (.recordControl start (.ok p)) (.record c start kind stream false)
        (w.emit [.recordCall start c (w.hub.room r).id kind stream false], some e)
  | recorded {start : Bool} {p : RecordControlPayload} {r : RoomRef} {kind : Kind}
      {stream : StreamID} (hroom : (w.hub.client c).room = some r)
      (hbiz : w.hub.isObserver c = false)
      (hs : (w.hub.client c).streams.lookup kind = some stream) :
      Handled env w c reqID (.recordControl start (.ok p)) (.record c start kind stream true)
        (recordControlled env (w.emit [.recordCall start c (w.hub.room r).id kind stream true]) r c
          reqID start kind stream, none)

/-! ### Joining -/

theorem Hub.setClient_setClient (h : Hub) (c : UserID) (f g : Client → Client) :
    (h.setClient c f).setClient c g = h.setClient c (g ∘ f) := by
  simp [setClient]

theorem mild_id : Mild id := by
  constructor <;> intro x <;> rfl

theorem joinSolo_mild (h : Hub) (c : UserID) (p : JoinPayload) :
    ∃ f, Mild f ∧ (h.joinSolo c p).1 = h.setClient c f := by
  unfold Hub.joinSolo
  have hrole : ∀ role, Mild fun x : Client => { x with soloRole := some role } := fun role => by
    constructor <;> intro x <;> rfl
  have hplan : ∀ s, Mild fun x : Client => { x with plannedStreamID := s } := fun s => by
    constructor <;> intro x <;> rfl
  split
  · exact ⟨id, mild_id, (h.setClient_id c).symm⟩
  · exact ⟨_, hrole .play, rfl⟩
  · dsimp only
    split
    · exact ⟨_, hrole .push, rfl⟩
    · rename_i streamID _
      refine ⟨_, (hplan streamID).comp (hrole .push), ?_⟩
      simp only [Hub.writePlannedStream, Hub.writeSoloRole, Hub.setClient_setClient]

theorem writeMicOn_mild (c : UserID) (micOn : Option Bool) :
    ∃ f, Mild f ∧ ∀ h : Hub, h.writeMicOn c micOn = h.setClient c f := by
  cases micOn with
  | none => exact ⟨id, mild_id, fun h => (h.setClient_id c).symm⟩
  | some b =>
    refine ⟨fun x => { x with micOn := b }, ?_, fun h => rfl⟩
    constructor <;> intro x <;> rfl

theorem writeCamOn_mild (c : UserID) (camOn : Option Bool) :
    ∃ f, Mild f ∧ ∀ h : Hub, h.writeCamOn c camOn = h.setClient c f := by
  cases camOn with
  | none => exact ⟨id, mild_id, fun h => (h.setClient_id c).symm⟩
  | some b =>
    refine ⟨fun x => { x with camOn := b }, ?_, fun h => rfl⟩
    constructor <;> intro x <;> rfl

theorem joinFields_mild (c : UserID) (p : JoinPayload) :
    ∃ f, Mild f ∧ ∀ h : Hub, h.joinFields c p = h.setClient c f := by
  have hname : Mild fun x : Client => { x with nickname := p.nickname } := by
    constructor <;> intro x <;> rfl
  have hplat : Mild fun x : Client =>
      { x with clientPlatform := normalizeClientPlatform p.clientPlatform } := by
    constructor <;> intro x <;> rfl
  obtain ⟨f1, hf1, h1⟩ := writeMicOn_mild c p.micOn
  obtain ⟨f2, hf2, h2⟩ := writeCamOn_mild c p.camOn
  refine ⟨_, hf2.comp (hf1.comp (hplat.comp hname)), fun h => ?_⟩
  rw [Hub.joinFields, h2, h1, Hub.writePlatform, Hub.writeNickname]
  simp only [Hub.setClient_setClient]

theorem checkJoin_ok {h : Hub} {c : UserID} {p : Decoded JoinPayload} {q : JoinPayload}
    {mode : RoomMode} (hq : h.checkJoin c p = .ok (q, mode)) :
    (h.client c).room = none ∧ ∃ p₀, p = .ok p₀ ∧ q.room = p₀.room := by
  unfold Hub.checkJoin at hq
  split_ifs at hq with hroom
  refine ⟨by simpa using hroom, ?_⟩
  cases p with
  | error e => cases hq
  | ok p₀ =>
    refine ⟨p₀, rfl, ?_⟩
    dsimp only at hq
    split at hq
    · cases hq
    · split_ifs at hq with hid hnick
      all_goals
        split at hq
        · cases hq
        · simp only [Except.ok.injEq, Prod.mk.injEq] at hq
          rw [← hq.1]

section Handlers

variable {env : Env} {w : World} {c : UserID} {reqID : String}

theorem handleJoin_handled (p : Decoded JoinPayload) :
    Handled env w c reqID (.join p) (w.messageAct env c (.join p)) (handleJoin env w c p) := by
  have hact : ∀ e v, handleJoin env w c p = (v, some e) → w.messageAct env c (.join p) = .rest := by
    intro e v he
    cases p with
    | error _ => rfl
    | ok p => simp only [messageAct, he, reduceCtorEq, if_false]
  cases hq : w.hub.checkJoin c p with
  | error e =>
    have hrun : handleJoin env w c p = (w, some e) := by simp only [handleJoin, hq]
    rw [hact _ _ hrun, hrun]
    exact .refused e (by simp)
  | ok q =>
    obtain ⟨q, mode⟩ := q
    obtain ⟨hroom, p₀, rfl, hid⟩ := checkJoin_ok hq
    -- the solo block, then the other fields: together one mild write
    obtain ⟨f, hf, hsolo⟩ : ∃ f, Mild f ∧
        (if mode = .solo then w.hub.joinSolo c q else (w.hub, none)).1 = w.hub.setClient c f := by
      split_ifs
      · exact joinSolo_mild _ _ _
      · refine ⟨id, ⟨?_, ?_, ?_, ?_, ?_, ?_⟩, ?_⟩
        all_goals simp [Hub.setClient]
    obtain ⟨g, hg, hfields⟩ := joinFields_mild c q
    have hfg : ((w.hub.setClient c f).joinFields c q) = w.hub.setClient c (g ∘ f) := by
      rw [hfields, Hub.setClient_setClient]
    cases hsel : (if mode = .solo then w.hub.joinSolo c q else (w.hub, none)) with
    | mk h1 e1 =>
      rw [hsel] at hsolo
      dsimp only at hsolo
      subst hsolo
      cases e1 with
      | some e =>
        have hrun : handleJoin env w c (.ok p₀) = (w.setClient c f, some e) := by
          simp only [handleJoin, hq, hsel]; rfl
        rw [hact _ _ hrun, hrun]
        exact .misjoined e hf hroom
      | none =>
        cases hv : (w.setClient c (g ∘ f)).getOrCreateRoom q.room mode with
        | mk v r =>
          have hv' : (w.setHub (w.hub.setClient c (g ∘ f))).getOrCreateRoom q.room mode = (v, r) := hv
          cases hadm : v.hub.admission r c mode with
          | some e =>
            have hrun : handleJoin env w c (.ok p₀) = (v.removeRoomIfEmpty r, some e) := by
              simp only [handleJoin, hq, hsel, hfg, hv', addClient, hadm]
            rw [hact _ _ hrun, hrun]
            exact .turnedAway e (hg.comp hf) hroom hv hadm
          | none =>
            have hrun : handleJoin env w c (.ok p₀) = (((v.addTo r c).announceJoin env.order r
                c).setClient c fun x => { x with room := some r }, none) := by
              simp only [handleJoin, hq, hsel, hfg, hv', addClient, hadm]
            have hact' : w.messageAct env c (.join (.ok p₀)) = .join c p₀.room := by
              simp only [messageAct, hrun, if_true]
            rw [hact', hrun]
            exact .joined (hg.comp hf) hroom (hid ▸ hv) hadm

theorem handleChat_handled (text : Decoded String) (hbiz : w.hub.isObserver c = false) :
    Handled env w c reqID (.chat text) .rest (handleChat env w c text) := by
  unfold handleChat requireRoom
  rw [if_neg (by simp [hbiz])]
  cases hroom : (w.hub.client c).room with
  | none => exact .refused _ (by simp)
  | some r =>
    cases text with
    | error e => exact .refused _ (by simp)
    | ok text =>
      dsimp only
      split_ifs
      · exact .ignored (by simp)
      · exact .chatted hroom

theorem handleMediaState_handled (p : Decoded MediaStatePayload)
    (hbiz : w.hub.isObserver c = false) :
    Handled env w c reqID (.mediaState p) .rest (handleMediaState env w c p) := by
  unfold handleMediaState requireRoom
  rw [if_neg (by simp [hbiz])]
  cases hroom : (w.hub.client c).room with
  | none => exact .refused _ (by simp)
  | some r =>
    cases p with
    | error e => exact .refused _ (by simp)
    | ok p => exact .mediaChanged hroom

/-- An offer that resolves to a push. -/
theorem resolveOffer_push {r : RoomRef} {p : WebRTCOfferPayload} {stream : StreamID}
    (hr : w.resolveOffer r c p = .ok (stream, .push)) :
    w.hub.isObserver c = false ∧ stream ≠ "" ∧ (p.mode = "publish" ∨ p.mode = "publish-solo") := by
  unfold resolveOffer at hr
  split_ifs at hr with h1 h2 _ _ _ _ h7 h8 h9
  · simp only [Except.ok.injEq, Prod.mk.injEq, and_true] at hr
    subst hr
    refine ⟨by simpa using h2, ?_, Or.inl h1⟩
    intro he
    simp [buildStreamID] at he
  · simp at hr
  · simp only [Except.ok.injEq, Prod.mk.injEq, and_true] at hr
    subst hr
    exact ⟨by simpa using h8, h9, Or.inr h7⟩
  · simp at hr

/-- An offer that resolves to a play. -/
theorem resolveOffer_play {r : RoomRef} {p : WebRTCOfferPayload} {stream : StreamID}
    (hr : w.resolveOffer r c p = .ok (stream, .play)) :
    p.mode = "play" ∨ p.mode = "play-solo" := by
  unfold resolveOffer at hr
  split_ifs at hr with _ _ _ h4 _ _ _ _ _ _ h11
  · simp at hr
  · exact Or.inl h4
  · simp at hr
  · exact Or.inr h11

theorem registerOffer_push {ord : MapOrder} {r : RoomRef} {p : WebRTCOfferPayload}
    {stream : StreamID} (hm : p.mode = "publish" ∨ p.mode = "publish-solo") :
    w.registerOffer ord r c p stream =
      ((w.emit [.published c (w.hub.room r).id (offerKind p) stream]).startStream ord r c
        (offerKind p) stream).notifyStatsChanged := by
  rcases hm with hm | hm
  · simp only [registerOffer, offerKind, hm, if_true]
  · have hne : ("publish-solo" : String) ≠ "publish" := by decide
    simp only [registerOffer, offerKind, hm, if_neg hne, if_true]

theorem registerOffer_play (w : World) (c : UserID) (ord : MapOrder) (r : RoomRef)
    (stream : StreamID) {p : WebRTCOfferPayload} (hm : p.mode = "play" ∨ p.mode = "play-solo") :
    ∃ key entry es, (∀ e ∈ es, e.owner = none) ∧
      w.registerOffer ord r c p stream =
        (w.setClient c fun x => { x with pulling := x.pulling.insert key entry }).emit es := by
  have hmode : p.mode ≠ "publish" ∧ p.mode ≠ "publish-solo" := by
    rcases hm with hm | hm <;> rw [hm] <;> decide
  -- the pull that is recorded
  obtain ⟨key, entry, hpull⟩ : ∃ key entry,
      (if p.mode = "play" then w.recordPull c stream p.kind p.targetUserID
        else w.recordPull c stream "solo" "") =
        w.setClient c fun x => { x with pulling := x.pulling.insert key entry } := by
    split_ifs
    · exact ⟨_, _, rfl⟩
    · exact ⟨_, _, rfl⟩
  -- the audit line of an observer
  have haudit : ∀ (v : World) (action detail : String), ∃ es,
      (∀ e ∈ es, e.owner = none) ∧
        v.recordObserveAudit c action detail = v.emit es := by
    intro v action detail
    unfold recordObserveAudit
    split
    · exact ⟨[], by simp, (emit_nil v).symm⟩
    · split_ifs
      · exact ⟨[], by simp, (emit_nil v).symm⟩
      · exact ⟨_, by simp [Event.owner], rfl⟩
  simp only [registerOffer, if_neg hmode.1, if_neg hmode.2, hpull]
  split_ifs
  · obtain ⟨es, hes, hrec⟩ := haudit
      (w.setClient c fun x => { x with pulling := x.pulling.insert key entry }).notifyStatsChanged
      "observe_start" (((w.setClient c fun x =>
        { x with pulling := x.pulling.insert key entry }).notifyStatsChanged).observePlayDetail ord r p)
    refine ⟨key, entry, .statsChanged :: es, ?_, ?_⟩
    · intro e he
      rcases List.mem_cons.1 he with rfl | he
      · rfl
      · exact hes e he
    · rw [hrec, notifyStatsChanged, emit_emit]; rfl
  · exact ⟨key, entry, [.statsChanged], by simp [Event.owner], rfl⟩

theorem handleWebRTCOffer_handled (p : Decoded WebRTCOfferPayload) :
    Handled env w c reqID (.webrtcOffer p) (w.messageAct env c (.webrtcOffer p))
      (handleWebRTCOffer env w c reqID p) := by
  unfold handleWebRTCOffer requireRoom
  cases hroom : (w.hub.client c).room with
  | none =>
    cases p with
    | error e => exact .refused _ (by simp)
    | ok p => simp only [messageAct, hroom]; exact .refused _ (by simp)
  | some r =>
    cases p with
    | error e => exact .refused _ (by simp)
    | ok p =>
      simp only [messageAct, hroom]
      split_ifs with hsdp hobs
      · exact .refused _ (by simp)
      · -- an observer's offer that is no play resolves to no push either
        cases hr : w.resolveOffer r c p with
        | error e => exact .refused _ (by simp)
        | ok a =>
          obtain ⟨stream, _ | _⟩ := a
          · rw [(resolveOffer_push hr).1] at hobs
            simp at hobs
          · exact .refused _ (by simp)
      · cases hr : w.resolveOffer r c p with
        | error e => exact .refused _ (by simp)
        | ok a =>
          obtain ⟨stream, t⟩ := a
          cases hans : env.sdp with
          | error e => cases t <;> exact .exchangeFailed _
          | ok sdp =>
            cases t with
            | push =>
              obtain ⟨hbiz, hs, hm⟩ := resolveOffer_push hr
              dsimp only
              rw [registerOffer_push hm]
              exact .published sdp hroom hbiz hs
            | play =>
              obtain ⟨key, entry, es, hes, hreg⟩ := registerOffer_play
                (w.emit [.exchangedSDP c .play (w.hub.room r).id stream true]) c env.order r stream
                (resolveOffer_play hr)
              dsimp only
              rw [hreg]
              have hemit : (((w.emit [.exchangedSDP c .play (w.hub.room r).id stream true]).setClient c
                  fun x => { x with pulling := x.pulling.insert key entry }).emit es) =
                  (w.setClient c fun x => { x with pulling := x.pulling.insert key entry }).emit
                    (.exchangedSDP c .play (w.hub.room r).id stream true :: es) := by
                rw [← List.singleton_append (l := es), ← emit_emit]; rfl
              rw [hemit]
              exact .played _ sdp es hroom rfl hes

theorem handleStreamStarted_handled (p : Decoded StreamStartedPayload)
    (hbiz : w.hub.isObserver c = false) :
    Handled env w c reqID (.streamStarted p) (w.messageAct env c (.streamStarted p))
      (handleStreamStarted env w c p) := by
  unfold handleStreamStarted requireRoom
  rw [if_neg (by simp [hbiz])]
  cases hroom : (w.hub.client c).room with
  | none =>
    cases p with
    | error e => exact .refused _ (by simp)
    | ok p =>
      simp only [messageAct, hroom, true_or, if_true]
      exact .refused _ (by simp)
  | some r =>
    cases p with
    | error e => exact .refused _ (by simp)
    | ok p =>
      simp only [messageAct, hroom, reduceCtorEq, false_or]
      split_ifs with hp
      · exact .refused _ (by simp)
      · exact .started hroom hbiz fun hs => hp (Or.inr hs)

theorem handleStreamStopped_handled (p : Decoded StreamStoppedPayload)
    (hbiz : w.hub.isObserver c = false) :
    Handled env w c reqID (.streamStopped p) (w.messageAct env c (.streamStopped p))
      (handleStreamStopped env w c p) := by
  unfold handleStreamStopped requireRoom
  rw [if_neg (by simp [hbiz])]
  cases hroom : (w.hub.client c).room with
  | none =>
    cases p with
    | error e => exact .refused _ (by simp)
    | ok p => exact .unstopped _ (Or.inl hroom)
  | some r =>
    cases p with
    | error e => exact .refused _ (by simp)
    | ok p =>
      dsimp only
      split_ifs with hk hs
      · exact .unstopped _ (Or.inr hk)
      · cases hl : (w.hub.client c).streams.lookup p.kind with
        | none => rw [hl] at hs; exact absurd rfl hs
        | some stream => exact .stopped hroom hbiz hk hl (by simpa [hl] using hs)
      · exact .stoppedNone hroom hbiz hk (by simpa using hs)

theorem recordTarget_noKind {p : RecordControlPayload} {ord : MapOrder}
    (hk : p.kind = "") (hs : p.streamID = "") : w.recordTarget ord c p = ("", "") := by
  simp only [recordTarget, hk, hs, ne_eq, not_true_eq_false, if_false]

/-- A record message is about a stream of the sender's own map. -/
theorem recordTarget_lookup {p : RecordControlPayload} {ord : MapOrder} {kind : Kind}
    {stream : StreamID} (ht : w.recordTarget ord c p = (kind, stream)) (hs : stream ≠ "") :
    (w.hub.client c).streams.lookup kind = some stream := by
  unfold recordTarget at ht
  split_ifs at ht with hk hid
  · cases hl : (w.hub.client c).streams.lookup p.kind with
    | none => simp only [hl, Prod.mk.injEq] at ht; exact absurd ht.2.symm hs
    | some sid =>
      simp only [hl, Prod.mk.injEq] at ht
      rw [← ht.1, ← ht.2, hl]
  · cases hf : ((w.hub.client c).streams.range (ord.streams c)).find? fun e => e.2 = p.streamID with
    | none => simp only [hf, Option.getD_none, Prod.mk.injEq] at ht; exact absurd ht.2.symm hs
    | some e =>
      simp only [hf, Option.getD_some] at ht
      have he := List.mem_of_find?_eq_some hf
      rw [ht] at he
      exact GoMap.mem_range.1 he
  · simp only [Prod.mk.injEq] at ht
    exact absurd ht.2.symm hs

theorem handleRecordControl_handled (start : Bool) (p : Decoded RecordControlPayload)
    (hbiz : w.hub.isObserver c = false) :
    Handled env w c reqID (.recordControl start p) (w.messageAct env c (.recordControl start p))
      (handleRecordControl env w c reqID start p) := by
  unfold handleRecordControl requireRoom
  rw [if_neg (by simp [hbiz])]
  cases hroom : (w.hub.client c).room with
  | none =>
    cases p with
    | error e => exact .refused _ (by simp)
    | ok p =>
      simp only [messageAct, hroom, true_or, if_true]
      exact .refused _ (by simp)
  | some r =>
    cases p with
    | error e => exact .refused _ (by simp)
    | ok p =>
      simp only [messageAct, hroom, reduceCtorEq, false_or]
      cases ht : w.recordTarget env.order c p with
      | mk kind stream =>
        dsimp only
        by_cases hs : stream = ""
        · simp only [hs, true_and, if_true]
          split_ifs
          · exact .refused _ (by simp)
          · exact .refused _ (by simp)
          · exact .refused _ (by simp)
        · have hp : ¬(p.kind = "" ∧ p.streamID = "") := by
            intro hp
            rw [recordTarget_noKind hp.1 hp.2] at ht
            exact hs (congrArg Prod.snd ht).symm
          rw [if_neg hs, if_neg hp, if_neg (fun h => hs h.1), if_neg hs]
          cases env.record with
          | error e => exact .recordFailed _ hroom (recordTarget_lookup ht hs)
          | ok _ => exact .recorded hroom hbiz (recordTarget_lookup ht hs)

/-- A message of a business client. -/
theorem dispatch_handled (e : Envelope) (hbiz : w.hub.isObserver c = false) :
    Handled env w c e.reqID e.body (w.messageAct env c e.body) (dispatch env w c e) := by
  unfold dispatch
  cases e with
  | mk reqID body =>
    cases body with
    | join p => exact handleJoin_handled p
    | leave => exact .ignored (by simp)
    | chat text => exact handleChat_handled text hbiz
    | mediaState p => exact handleMediaState_handled p hbiz
    | webrtcOffer p => exact handleWebRTCOffer_handled p
    | streamStarted p => exact handleStreamStarted_handled p hbiz
    | streamStopped p => exact handleStreamStopped_handled p hbiz
    | recordControl start p => exact handleRecordControl_handled start p hbiz
    | unknown type => exact .refused _ (by simp)

end Handlers

end Meetkit
