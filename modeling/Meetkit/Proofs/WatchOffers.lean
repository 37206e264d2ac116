import Meetkit.Model.WatchOffers
import Meetkit.Proofs.Business

/-! What the admin page offers to watch is what it gets to see. The page makes its offers
from a snapshot, the server resolves them against its live rooms, and the two agree on
the stream, but for a room whose id the observe-join trims into another and a stream
whose name no offer may carry. -/

namespace Meetkit

open World

/-! ### What is shown -/

namespace MonitorRoom

variable {room : MonitorRoom} {tiles : ℕ} {target : PlayTarget} {detail : String}

/-- The stream a target stands for: the one the snapshot lists, and for a member that
has its camera on without publishing it the name it will be published under. -/
def shown (room : MonitorRoom) : PlayTarget → StreamID
  | .member userId kind =>
    (((room.clientList.find? fun c => c.userId = userId).bind fun c =>
      c.streams.find? fun s => s.kind = kind).map (·.streamID)).getD (buildStreamID userId kind)
  | .solo streamId => streamId

/-- A member's option is about a member, a pushed stream about a pusher's. -/
inductive Offers (room : MonitorRoom) : PlayTarget → Prop
  | member {c : MonitorClient} (kind : Kind) (hc : c ∈ room.clientList)
      (hbiz : c.isObserver.getD false = false) (hkind : kind = "cam" ∨ kind = "screen") :
      Offers room (.member c.userId kind)
  | solo {c : MonitorClient} {s : StreamInfo} (hc : c ∈ room.clientList) (hs : s ∈ c.streams) :
      Offers room (.solo s.streamID)

theorem mem_memberOptions {c : MonitorClient} {opt : MemberOption} (h : opt ∈ memberOptions c) :
    c.isObserver.getD false = false ∧ opt.userId = c.userId ∧
      (opt.kind = "cam" ∨ opt.kind = "screen") := by
  unfold memberOptions at h
  split_ifs at h with hob
  · cases h
  · dsimp only at h
    refine ⟨by simpa using hob, ?_⟩
    rcases List.mem_append.1 h with h | h
    · split_ifs at h
      · rw [List.mem_singleton.1 h]
        exact ⟨rfl, Or.inl rfl⟩
      · cases h
    · split_ifs at h
      · rw [List.mem_singleton.1 h]
        exact ⟨rfl, Or.inr rfl⟩
      · cases h

theorem offers_of_watches (h : (target, detail) ∈ room.watches tiles) : room.Offers target := by
  have hpick : (target, detail) ∈ (room.buildMemberOptions.flatMap fun opt =>
      [(PlayTarget.member opt.userId opt.kind, orElse (((room.clientList.find? fun c =>
        c.userId = opt.userId).map (·.nickname)).getD "") opt.userId)]) → room.Offers target := by
    intro h
    obtain ⟨opt, hopt, h⟩ := List.mem_flatMap.1 h
    obtain ⟨c, hc, hopt⟩ := List.mem_flatMap.1 hopt
    obtain ⟨hbiz, huser, hkind⟩ := mem_memberOptions hopt
    obtain ⟨rfl, -⟩ := Prod.mk.inj (List.mem_singleton.1 h)
    rw [huser]
    exact .member opt.kind hc hbiz hkind
  unfold watches onWatchRoom at h
  split_ifs at h with hfull hpush
  · cases h
  · cases hpusher : room.clientList.find? fun c => RoomJSON.isPusher c.toClientJSON with
    | none => rw [hpusher] at h; cases h
    | some pusher =>
      rw [hpusher] at h
      dsimp only at h
      cases hstream : pusher.streams.find? fun s => s.kind = "solo" with
      | none => rw [hstream] at h; cases h
      | some stream =>
        rw [hstream] at h
        obtain ⟨rfl, -⟩ := Prod.mk.inj (List.mem_singleton.1 h)
        exact .solo (List.mem_of_find?_eq_some hpusher) (List.mem_of_find?_eq_some hstream)
  · unfold openMemberPicker at h
    split_ifs at h
    · cases h
    · exact hpick h

/-- A member's tile is filed under its nickname. -/
theorem detail_of_watches {u : UserID} {kind : Kind}
    (h : (PlayTarget.member u kind, detail) ∈ room.watches tiles) :
    detail = orElse (((room.clientList.find? fun c => c.userId = u).map (·.nickname)).getD "") u := by
  unfold watches onWatchRoom at h
  split_ifs at h with hfull hpush
  · cases h
  · split at h
    · rename_i click options hclick
      split at hclick
      · cases hclick
      · split at hclick <;> cases hclick
    · rename_i click hpick
      split at h
      · cases h
      · split at h
        · cases h
        · obtain ⟨ht, -⟩ := Prod.mk.inj (List.mem_singleton.1 h)
          cases ht
  · unfold openMemberPicker at h
    split_ifs at h
    · cases h
    · obtain ⟨opt, -, h⟩ := List.mem_flatMap.1 h
      obtain ⟨ht, rfl⟩ := Prod.mk.inj (List.mem_singleton.1 h)
      cases ht
      rfl

end MonitorRoom

/-! ### The snapshot of a room -/

namespace Hub

variable {h : Hub} {ord : MapOrder} {r : RoomRef}

theorem clientList_toMonitor (h : Hub) (ord : MapOrder) (r : RoomRef) :
    (h.roomStats ord r).toMonitor.clientList =
      (h.clientsOf ord r).map fun c => (h.clientBrief ord c).toMonitor := by
  have hmap : (h.clientsOf ord r).map (fun c => (h.clientBrief ord c).toMonitor) =
      (h.roomStats ord r).clients.map (·.toMonitor) := by
    simp [roomStats]
  rw [hmap, MonitorRoom.clientList, RoomStats.toMonitor]
  dsimp only
  split_ifs with hnil
  · rw [hnil]
    rfl
  · rfl

theorem find_toMonitor (h : Hub) (ord : MapOrder) (r : RoomRef) (u : UserID) :
    (h.roomStats ord r).toMonitor.clientList.find? (fun c => c.userId = u) =
      if u ∈ (h.room r).clients then some (h.clientBrief ord u).toMonitor else none := by
  rw [clientList_toMonitor, List.find?_map]
  have hfind : (h.clientsOf ord r).find? ((fun c : MonitorClient => decide (c.userId = u)) ∘
      fun c => (h.clientBrief ord c).toMonitor) = (h.clientsOf ord r).find? fun c => c = u := rfl
  rw [hfind]
  split_ifs with hu
  · have hmem : u ∈ h.clientsOf ord r := mem_clientsOf.2 hu
    have hsome : ((h.clientsOf ord r).find? fun c => c = u) = some u := by
      cases hf : (h.clientsOf ord r).find? fun c => c = u with
      | none => simpa using List.find?_eq_none.1 hf u hmem
      | some c =>
        have hc : c = u := by simpa using List.find?_some hf
        rw [hc]
    rw [hsome]
    rfl
  · have hnone : ((h.clientsOf ord r).find? fun c => c = u) = none := by
      rw [List.find?_eq_none]
      intro c hc hcu
      have hcu' : c = u := by simpa using hcu
      exact hu (hcu' ▸ mem_clientsOf.1 hc)
    rw [hnone]
    rfl

theorem shown_member {u : UserID} (hu : u ∈ (h.room r).clients) (kind : Kind) :
    (h.roomStats ord r).toMonitor.shown (.member u kind) =
      ((h.client u).streams.lookup kind).getD (buildStreamID u kind) := by
  have hstreams : ((h.clientBrief ord u).toMonitor.streams.find? fun s => s.kind = kind).map
      (·.streamID) = (h.client u).streams.lookup kind := by
    have hfind : ((h.clientBrief ord u).toMonitor.streams.find? fun s => s.kind = kind) =
        (((h.client u).streams.range (ord.streams u)).find? fun e => e.1 = kind).map fun e =>
          ⟨e.1, e.2⟩ := by
      have hlist : (h.clientBrief ord u).toMonitor.streams =
          ((h.client u).streams.range (ord.streams u)).map fun e => (⟨e.1, e.2⟩ : StreamInfo) := rfl
      rw [hlist, List.find?_map]
      rfl
    rw [hfind, Option.map_map, ← GoMap.find_range (ord.streams u)]
    rfl
  rw [MonitorRoom.shown, find_toMonitor, if_pos hu, Option.bind_some, hstreams]

end Hub

/-! ### What the server makes of it -/

section Offer

variable {w : World} {o : UserID} {r : RoomRef} {env : Env} {reqID : String}
  {p : WebRTCOfferPayload}

theorem World.send_log (w : World) (c : UserID) (reqID : String) (m : ServerMsg) :
    ∃ ms : List Event, (∀ o app t stream ok, .exchangedSDP o t app stream ok ∉ ms) ∧
      (w.send c reqID m).log = w.log ++ ms := by
  unfold World.send
  split_ifs
  · exact ⟨[], by simp, by simp⟩
  · exact ⟨[.sent c reqID m], by simp, rfl⟩

/-- The audit line of an observer that has begun to watch. -/
def World.observeStarted (w : World) (ord : MapOrder) (r : RoomRef) (o : UserID) (p : WebRTCOfferPayload) :
    List Event :=
  if w.observePlayDetail ord r p = "" then []
  else [.audited (w.hub.client o).adminUser "observe_start" (w.hub.room r).id
    (w.observePlayDetail ord r p)]

theorem observePlayDetail_pulling (w : World) (ord : MapOrder) (r : RoomRef) (o : UserID)
    (p : WebRTCOfferPayload) (f : GoMap String PullEntry → GoMap String PullEntry) :
    (w.setClient o fun x => { x with pulling := f x.pulling }).observePlayDetail ord r p =
      w.observePlayDetail ord r p := by
  have hclient : ∀ c, ((w.hub.setClient o fun x => { x with pulling := f x.pulling }).client
      c).nickname = (w.hub.client c).nickname ∧ ((w.hub.setClient o fun x =>
        { x with pulling := f x.pulling }).client c).streams = (w.hub.client c).streams ∧
      (w.hub.setClient o fun x => { x with pulling := f x.pulling }).isObserver c =
        w.hub.isObserver c := by
    intro c
    unfold Hub.isObserver
    rw [Hub.setClient_client]
    split_ifs with hc
    · rw [hc]
      exact ⟨rfl, rfl, rfl⟩
    · exact ⟨rfl, rfl, rfl⟩
  unfold observePlayDetail Hub.clientNickname Hub.streamOwnerNickname Hub.clientsOf
  simp only [setClient_hub, Hub.setClient_room, hclient]

theorem registerOffer_observer (hroom : (w.hub.client o).room = some r)
    (ho : w.hub.isObserver o = true) (ord : MapOrder) (stream : StreamID)
    (hmode : p.mode = "play" ∨ p.mode = "play-solo") :
    ∃ f : GoMap String PullEntry → GoMap String PullEntry, w.registerOffer ord r o p stream =
      (w.setClient o fun x => { x with pulling := f x.pulling }).emit
        (.statsChanged :: w.observeStarted ord r o p) := by
  have hmode' : p.mode ≠ "publish" ∧ p.mode ≠ "publish-solo" := by
    rcases hmode with hm | hm <;> rw [hm] <;> decide
  -- the pull that is recorded
  obtain ⟨f, hpull⟩ : ∃ f : GoMap String PullEntry → GoMap String PullEntry,
      (if p.mode = "play" then w.recordPull o stream p.kind p.targetUserID
        else w.recordPull o stream "solo" "") =
        w.setClient o fun x => { x with pulling := f x.pulling } := by
    split_ifs
    · exact ⟨_, rfl⟩
    · exact ⟨fun m => m.insert (pullKey stream "solo") ⟨stream, "solo", ""⟩, rfl⟩
  set v := w.setClient o fun x => { x with pulling := f x.pulling } with hv
  have hself : v.hub.client o = { w.hub.client o with pulling := f (w.hub.client o).pulling } := by
    rw [hv, setClient_hub, Hub.setClient_same]
  have hob : v.notifyStatsChanged.hub.isObserver o = true := by
    rw [notifyStatsChanged_hub, Hub.isObserver, hself]
    exact ho
  have hdetail : v.notifyStatsChanged.observePlayDetail ord r p = w.observePlayDetail ord r p :=
    observePlayDetail_pulling w ord r o p f
  have hroomv : (v.notifyStatsChanged.hub.client o).room = some r := by
    rw [notifyStatsChanged_hub, hself]
    exact hroom
  have hadmin : (v.notifyStatsChanged.hub.client o).adminUser = (w.hub.client o).adminUser := by
    rw [notifyStatsChanged_hub, hself]
  refine ⟨f, ?_⟩
  simp only [registerOffer, if_neg hmode'.1, if_neg hmode'.2, hpull, hob, if_true, hdetail]
  unfold recordObserveAudit World.observeStarted
  rw [hroomv]
  dsimp only
  split_ifs
  · rfl
  · rw [hadmin, notifyStatsChanged, emit_emit]
    rfl

/-- An observer's offer to play leads to one exchange, of the stream it resolves to, and to
an audit line when that succeeds. -/
theorem observer_offer_log (env : Env) (reqID : String) (hroom : (w.hub.client o).room = some r)
    (ho : w.hub.isObserver o = true) (hsdp : p.sdp ≠ "")
    (hmode : p.mode = "play" ∨ p.mode = "play-solo") :
    ∃ es, (handleWebRTCOffer env w o reqID (.ok p)).1.log = w.log ++ es ∧
      (∀ app t stream ok, .exchangedSDP o t app stream ok ∈ es ↔ app = (w.hub.room r).id ∧
        w.resolveOffer r o p = .ok (stream, t) ∧ ok = env.sdp.toBool) ∧
      (∀ stream t, w.resolveOffer r o p = .ok (stream, t) → env.sdp.toBool = true →
        ∀ e ∈ w.observeStarted env.order r o p, e ∈ es) := by
  have hplay : ¬(w.hub.isObserver o = true ∧ p.mode ≠ "play" ∧ p.mode ≠ "play-solo") := by
    rintro ⟨-, h1, h2⟩
    exact hmode.elim h1 h2
  unfold handleWebRTCOffer requireRoom
  rw [hroom]
  dsimp only
  rw [if_neg hsdp, if_neg hplay]
  cases hr : w.resolveOffer r o p with
  | error e => exact ⟨[], by simp, by simp, by simp⟩
  | ok a =>
    obtain ⟨stream, t⟩ := a
    have honly : ∀ es : List Event, (∀ app t' stream' ok, .exchangedSDP o t' app stream' ok ∉ es) →
        ∀ b app t' stream' ok, .exchangedSDP o t' app stream' ok ∈
          Event.exchangedSDP o t (w.hub.room r).id stream b :: es ↔ app = (w.hub.room r).id ∧
            (Except.ok (stream, t) : Except Err _) = .ok (stream', t') ∧ ok = b := by
      intro es hes b app t' stream' ok
      rw [List.mem_cons, or_iff_left (hes app t' stream' ok)]
      simp only [Event.exchangedSDP.injEq, Except.ok.injEq, Prod.mk.injEq, true_and]
      constructor
      · rintro ⟨rfl, rfl, rfl, rfl⟩
        exact ⟨rfl, ⟨rfl, rfl⟩, rfl⟩
      · rintro ⟨rfl, ⟨rfl, rfl⟩, rfl⟩
        exact ⟨rfl, rfl, rfl, rfl⟩
    cases hans : env.sdp with
    | error e =>
      exact ⟨[.exchangedSDP o t (w.hub.room r).id stream false], rfl, honly [] (by simp) false,
        by simp [Except.toBool]⟩
    | ok sdp =>
      set w1 := w.emit [.exchangedSDP o t (w.hub.room r).id stream true] with hw1
      obtain ⟨f, hreg⟩ := registerOffer_observer (w := w1) hroom ho env.order stream hmode
      have hstarted : w1.observeStarted env.order r o p = w.observeStarted env.order r o p := rfl
      rw [hstarted] at hreg
      set v := (w1.setClient o fun x => { x with pulling := f x.pulling }).emit
        (.statsChanged :: w.observeStarted env.order r o p) with hv
      obtain ⟨ms, hms, hlog⟩ := v.send_log o reqID
        (.webrtcAnswer ⟨p.mode, p.kind, p.targetUserID, stream, sdp⟩)
      refine ⟨.exchangedSDP o t (w.hub.room r).id stream true ::
        (.statsChanged :: w.observeStarted env.order r o p ++ ms), ?_, ?_, ?_⟩
      · dsimp only
        rw [hreg, hlog, hv, hw1]
        simp [World.setClient]
      · refine honly _ (fun app t' stream' ok h => ?_) true
        rcases List.mem_append.1 h with h | h
        · rcases List.mem_cons.1 h with h | h
          · cases h
          · unfold World.observeStarted at h
            split_ifs at h
            · cases h
            · cases List.mem_singleton.1 h
        · exact hms o app t' stream' ok h
      · intro _ _ _ _ e he
        simp [he]

end Offer

/-! ### A click -/

section Click

variable {w : World} {k : ConnID} {o : UserID} {r : RoomRef} {env env' : Env} {reqID sdp : String}
  {room : MonitorRoom} {target : PlayTarget}

theorem offer_play (target : PlayTarget) (sdp : String) :
    (target.offer sdp).mode = "play" ∨ (target.offer sdp).mode = "play-solo" := by
  cases target with
  | member u kind => exact Or.inl rfl
  | solo s => exact Or.inr rfl

theorem offer_sdp (target : PlayTarget) (sdp : String) : (target.offer sdp).sdp = sdp := by
  cases target <;> rfl

theorem handleObserveJoin_trimmed (env : Env) (o : UserID) (hw : w.Sound) (hconn : (w.conn k).client = none)
    (p : ObserveJoinPayload) :
    (∃ e, handleObserveJoin env w k o (.ok p) = (w, some e) ∧ ∀ r,
        w.hub.rooms.lookup (Text.trimSpace p.room) = some r → Text.trimSpace p.room ≠ "" →
          w.hub.observeGate env.order r p.mode ≠ none) ∨
      ∃ r, w.hub.rooms.lookup (Text.trimSpace p.room) = some r ∧
        handleObserveJoin env w k o (.ok p) =
          (((w.observing env.order o (w.conn k).username r).notifyStatsChanged).setConn k
            fun oc => { oc with client := some o, roomID := (w.hub.room r).id }, none) := by
  by_cases hid : Text.trimSpace p.room = ""
  · exact Or.inl ⟨.text "room is required", by simp [handleObserveJoin, hconn, hid],
      fun _ _ hne => absurd hid hne⟩
  cases hr : w.hub.getRoom (Text.trimSpace p.room) with
  | none =>
    refine Or.inl ⟨.text "room not found", by simp [handleObserveJoin, hconn, hid, hr], ?_⟩
    intro r hl
    rw [show w.hub.rooms.lookup _ = none from hr] at hl
    cases hl
  | some r =>
    have hl : w.hub.rooms.lookup (Text.trimSpace p.room) = some r := hr
    cases hg : w.hub.observeGate env.order r p.mode with
    | some e =>
      refine Or.inl ⟨e, by simp [handleObserveJoin, hconn, hid, hr, hg], ?_⟩
      intro r' hl'
      obtain rfl := Option.some.inj (hl.symm.trans hl')
      rw [hg]
      exact fun _ => Option.some_ne_none e
    | none =>
      have hadd : (w.setHub (w.hub.allocate o (Hub.observerClient o
          (w.conn k).username))).addObserver env.order ((w.setHub (w.hub.allocate o
            (Hub.observerClient o (w.conn k).username))).hub.room r).id o =
          ((w.observing env.order o (w.conn k).username r).notifyStatsChanged, none) :=
        addObserver_eq (by rw [(hw.hub.table _ r hl).1]; exact hl)
      refine Or.inr ⟨r, hl, ?_⟩
      simp only [handleObserveJoin, hconn, Option.isSome_none, Bool.false_eq_true, if_false,
        if_neg hid, hr, hg, hadd, notifyStatsChanged_hub, observing_hub, withObserver_id]

theorem watch_log_of_joined (env' : Env) (reqID : String) (target : PlayTarget) (hsdp : sdp ≠ "")
    (hjoin : handleObserveJoin env w k o (.ok ⟨room.id, room.mode⟩) =
      (((w.observing env.order o (w.conn k).username r).notifyStatsChanged).setConn k
        fun oc => { oc with client := some o, roomID := (w.hub.room r).id }, none)) :
    let v := w.setHub (w.hub.withObserver o (w.conn k).username r)
    ∃ es, (w.watch env env' k o room reqID sdp target).log = w.log ++ es ∧
      (∀ app stream ok, .exchangedSDP o .play app stream ok ∈ es ↔ app = (w.hub.room r).id ∧
        v.resolveOffer r o (target.offer sdp) = .ok (stream, .play) ∧ ok = env'.sdp.toBool) ∧
      (∀ stream, v.resolveOffer r o (target.offer sdp) = .ok (stream, .play) →
        env'.sdp.toBool = true →
          ∀ e ∈ v.observeStarted env'.order r o (target.offer sdp), e ∈ es) := by
  intro v
  set x := ((w.observing env.order o (w.conn k).username r).notifyStatsChanged).setConn k
    fun oc => { oc with client := some o, roomID := (w.hub.room r).id } with hx
  have hhub : x.hub = v.hub := observing_hub _ _ _ _
  have hclient : (x.conn k).client = some o := by simp [hx, setConn]
  have hself : x.hub.client o = { Hub.observerClient o (w.conn k).username with room := some r } := by
    rw [hhub]
    simp [v, Hub.withObserver, Hub.addTo, Hub.allocate]
  obtain ⟨es, hlog, hex, haudit⟩ := observer_offer_log env' reqID
    (w := x) (r := r) (p := target.offer sdp) (o := o) (by rw [hself]) (by rw [Hub.isObserver, hself]; rfl)
    (by rw [offer_sdp]; exact hsdp) (offer_play target sdp)
  have hresolve : x.resolveOffer r o (target.offer sdp) = v.resolveOffer r o (target.offer sdp) := by
    unfold resolveOffer
    rw [hhub]
  have hstarted : x.observeStarted env'.order r o (target.offer sdp) =
      v.observeStarted env'.order r o (target.offer sdp) := by
    unfold World.observeStarted observePlayDetail
    rw [hhub]
  have hid : (x.hub.room r).id = (w.hub.room r).id := by
    rw [hhub]
    exact withObserver_id _ _ _ _
  -- the join itself exchanges nothing
  obtain ⟨js, hjs, hxlog⟩ : ∃ js : List Event, (∀ app t stream ok,
      .exchangedSDP o t app stream ok ∉ js) ∧ x.log = w.log ++ js := by
    have hx' : x.log = (w.observing env.order o (w.conn k).username r).log ++ [.statsChanged] := rfl
    unfold World.observing at hx'
    obtain ⟨ms, hms, hsent⟩ := World.send_log (v.emit [.joined o (w.hub.room r).id]) o ""
      (.observeJoined ⟨o, (w.hub.room r).id,
        (v.emit [.joined o (w.hub.room r).id]).hub.snapshotPeers env.order r o⟩)
    refine ⟨.joined o (w.hub.room r).id :: (ms ++ [.statsChanged]), ?_, ?_⟩
    · intro app t stream ok
      simp [hms]
    · rw [hx', hsent]
      simp [v]
  obtain ⟨ps, hps, hlast⟩ : ∃ ps : List Event, (∀ app t stream ok,
      .exchangedSDP o t app stream ok ∉ ps) ∧
        (w.watch env env' k o room reqID sdp target).log = x.log ++ (es ++ ps) := by
    have hfirst : observeReceive env w k "" (.join o (.ok ⟨room.id, room.mode⟩)) = x := by
      simp only [observeReceive, hjoin]
    unfold World.watch
    rw [hfirst]
    dsimp only
    rw [if_pos hclient]
    simp only [observeReceive, hclient, dispatch]
    cases hd : handleWebRTCOffer env' x o reqID (.ok (target.offer sdp)) with
    | mk y result =>
      rw [hd] at hlog
      cases result with
      | none => exact ⟨[], by simp, by rw [List.append_nil]; exact hlog⟩
      | some e =>
        refine ⟨[.pushed k (if reqID ≠ "" then "error" else "observe-error") reqID (some e)],
          by simp, ?_⟩
        rw [← List.append_assoc, ← hlog]
        rfl
  refine ⟨js ++ (es ++ ps), by rw [hlast, hxlog, List.append_assoc], fun app stream ok => ?_, ?_⟩
  · rw [List.mem_append, List.mem_append, or_iff_right (hjs _ _ _ _), or_iff_left (hps _ _ _ _), hex,
      hid, hresolve]
  · intro stream hr hok e he
    have hmem := haudit stream .play (hresolve.trans hr) hok e (by rw [hstarted]; exact he)
    simp [hmem]

theorem watch_log_of_refused {e : Err} (hconn : (w.conn k).client = none)
    (hjoin : handleObserveJoin env w k o (.ok ⟨room.id, room.mode⟩) = (w, some e)) :
    (w.watch env env' k o room reqID sdp target).log =
      w.log ++ [.pushed k "observe-error" "" (some e)] := by
  have hfirst : observeReceive env w k "" (.join o (.ok ⟨room.id, room.mode⟩)) =
      w.emit [.pushed k "observe-error" "" (some e)] := by
    simp only [observeReceive, hjoin]
  unfold World.watch
  rw [hfirst]
  dsimp only
  rw [if_neg (by rw [emit_conn, hconn]; simp)]
  rfl

end Click

/-! ### What an offer resolves to -/

section Resolve

variable {h : Hub} {w : World} {o u : UserID} {r : RoomRef} {username sdp : String} {kind : Kind}

theorem withObserver_client (hu : u ≠ o) : (h.withObserver o username r).client u = h.client u := by
  rw [Hub.withObserver, Hub.setClient_ne _ _ _ _ hu]
  exact Function.update_of_ne hu _ _

theorem mem_withObserver :
    u ∈ ((h.withObserver o username r).room r).clients ↔ u ∈ (h.room r).clients ∨ u = o := by
  rw [Hub.withObserver, Hub.setClient_room, Hub.mem_addTo]
  simp [Hub.allocate]

theorem resolveOffer_member (hu : u ∈ (w.hub.room r).clients) (huo : u ≠ o) (hne : u ≠ "")
    (hkind : kind = "cam" ∨ kind = "screen") (hw : w.hub.WellFormed) :
    (w.setHub (w.hub.withObserver o username r)).resolveOffer r o
        ((PlayTarget.member u kind).offer sdp) =
      .ok (((w.hub.client u).streams.lookup kind).getD (buildStreamID u kind), .play) := by
  have hkind' : ¬(kind ≠ "cam" ∧ kind ≠ "screen") := fun hk => hkind.elim hk.1 hk.2
  have htarget : (w.hub.withObserver o username r).targetStreamID r u kind =
      ((w.hub.client u).streams.lookup kind).getD "" := by
    rw [Hub.targetStreamID, if_pos (mem_withObserver.2 (Or.inl hu)), withObserver_client huo]
  have hplay : ("play" : String) ≠ "publish" := by decide
  simp only [resolveOffer, PlayTarget.offer, if_neg hplay, if_true, if_neg hne, if_neg hkind',
    setHub_hub, htarget]
  cases hs : (w.hub.client u).streams.lookup kind with
  | none => rfl
  | some s =>
    rw [Option.getD_some, Option.getD_some, if_neg (hw.streamID u kind s hs)]

/-- A stream that somebody in the room has is refused for its name only. -/
theorem resolveOffer_solo {s : StreamID} (hu : u ∈ (w.hub.room r).clients) (huo : u ≠ o)
    (hs : (w.hub.client u).streams.lookup kind = some s) (hw : w.hub.WellFormed) (t : WebRTCType)
    (stream : StreamID) :
    (w.setHub (w.hub.withObserver o username r)).resolveOffer r o
        ((PlayTarget.solo s).offer sdp) = .ok (stream, t) ↔
      stream = s ∧ t = .play ∧ isSafeStreamName s = true := by
  have hhas : (w.hub.withObserver o username r).hasStreamID r s = true := by
    refine List.any_eq_true.2 ⟨u, mem_withObserver.2 (Or.inl hu), List.any_eq_true.2 ⟨⟨kind, s⟩, ?_, ?_⟩⟩
    · rw [withObserver_client huo]
      exact AList.mem_lookup_iff.1 hs
    · simp
  have hne := hw.streamID u kind s hs
  have hmodes : ("play-solo" : String) ≠ "publish" ∧ ("play-solo" : String) ≠ "play" ∧
      ("play-solo" : String) ≠ "publish-solo" := by decide
  simp only [resolveOffer, PlayTarget.offer, if_neg hmodes.1, if_neg hmodes.2.1,
    if_neg hmodes.2.2, if_true, if_neg hne, setHub_hub, hhas, Bool.not_true, Bool.false_eq_true,
    if_false]
  cases hsafe : isSafeStreamName s with
  | false => simp
  | true =>
    simp only [Bool.not_true, Bool.false_eq_true, if_false, Except.ok.injEq, Prod.mk.injEq,
      and_true]
    exact ⟨fun ⟨hst, ht⟩ => ⟨hst.symm, ht.symm⟩, fun ⟨hst, ht⟩ => ⟨hst.symm, ht.symm⟩⟩

end Resolve

def PlayTarget.nameable : PlayTarget → Bool
  | .member _ _ => true
  | .solo streamId => isSafeStreamName streamId

theorem room_of_monitorRooms {h : Hub} {ord : MapOrder} {room : MonitorRoom} (hw : h.WellFormed)
    (hroom : room ∈ (h.statsSnapshot ord).monitorRooms) :
    ∃ r, h.rooms.lookup room.id = some r ∧ room = (h.roomStats ord r).toMonitor := by
  obtain ⟨rs, hrs, rfl⟩ := List.mem_map.1 hroom
  obtain ⟨r, hr, rfl⟩ := List.mem_map.1 hrs
  obtain ⟨⟨id, r'⟩, hentry, rfl⟩ := List.mem_map.1 hr
  have hl := GoMap.mem_range.1 hentry
  refine ⟨r', ?_, rfl⟩
  have hid : ((h.roomStats ord r').toMonitor).id = id := (hw.table id r' hl).1
  rw [hid]
  exact hl

theorem gate_of_biz {h : Hub} {ord : MapOrder} {r : RoomRef} (hw : h.WellFormed)
    (hl : h.rooms.lookup (h.room r).id = some r)
    (hbiz : (h.roomStats ord r).toMonitor.biz ≠ none) (ord' : MapOrder) :
    h.observeGate ord' r (h.roomStats ord r).toMonitor.mode = none := by
  have hjson : (h.roomStats ord r).toMonitor.toJSON = (h.roomStats ord r).toJSON := by
    simp only [MonitorRoom.toJSON, RoomStats.toMonitor, RoomStats.toJSON]
    congr 1
    split_ifs
    · rfl
    · rw [Option.map_some, List.map_map]
      rfl
  rw [MonitorRoom.biz, hjson, Hub.roomBizType_iff] at hbiz
  have hmode : ¬((h.roomStats ord r).toMonitor.mode ≠ "" ∧
      (h.roomStats ord r).toMonitor.mode ≠ (h.room r).mode.text) := fun hm => hm.2 rfl
  unfold Hub.observeGate
  rw [if_neg hmode, (Hub.roomHasRealMembers_iff hw hl).2 hbiz.1]
  simp only [Bool.not_true, Bool.false_eq_true, if_false]
  rw [if_neg]
  rintro ⟨hsolo, hpush⟩
  obtain ⟨c, hc, hrole⟩ := hbiz.2 hsolo
  have hmember : h.roomHasPushMember ord' (h.room r).id = true :=
    (Hub.roomHasPushMember_iff hw hl).2 ⟨c, hc, by rw [hrole]; decide⟩
  rw [hmember] at hpush
  simp at hpush

theorem mem_of_offers {h : Hub} {ord : MapOrder} {r : RoomRef} {u : UserID} {kind : Kind}
    (htarget : (h.roomStats ord r).toMonitor.Offers (.member u kind)) : u ∈ (h.room r).clients := by
  generalize ht : PlayTarget.member u kind = target at htarget
  cases htarget with
  | @member c kind hc hbiz hkind =>
    rw [Hub.clientList_toMonitor] at hc
    obtain ⟨u', hu', rfl⟩ := List.mem_map.1 hc
    obtain ⟨rfl, -⟩ := PlayTarget.member.inj ht
    exact Hub.mem_clientsOf.1 hu'
  | solo hc hs => cases ht

/-- What the live room says of a target the page offers. -/
theorem resolve_offered (username sdp : String) {w : World} {r : RoomRef} {o : UserID}
    {ord : MapOrder} {target : PlayTarget} (hw : w.hub.WellFormed) (ho : o ∉ w.hub.used)
    (hids : "" ∉ w.hub.used) (htarget : (w.hub.roomStats ord r).toMonitor.Offers target)
    (stream : StreamID) :
    (w.setHub (w.hub.withObserver o username r)).resolveOffer r o (target.offer sdp) =
        .ok (stream, .play) ↔
      stream = (w.hub.roomStats ord r).toMonitor.shown target ∧ target.nameable = true := by
  have hmem : ∀ c, c ∈ (w.hub.roomStats ord r).toMonitor.clientList → ∃ u ∈ (w.hub.room r).clients,
      u ≠ o ∧ u ≠ "" ∧ (w.hub.clientBrief ord u).toMonitor = c := by
    intro c hc
    rw [Hub.clientList_toMonitor] at hc
    obtain ⟨u, hu, rfl⟩ := List.mem_map.1 hc
    have hu' : u ∈ (w.hub.room r).clients := Hub.mem_clientsOf.1 hu
    have hused : u ∈ w.hub.used := hw.used_of_room (hw.member r u hu').1
    exact ⟨u, hu', fun h => ho (h ▸ hused), fun h => hids (h ▸ hused), rfl⟩
  cases htarget with
  | member kind hc hbiz hkind =>
    obtain ⟨u, hu, huo, hne, rfl⟩ := hmem _ hc
    have huser : (w.hub.clientBrief ord u).toMonitor.userId = u := rfl
    rw [huser, resolveOffer_member hu huo hne hkind hw, Hub.shown_member hu]
    simp only [Except.ok.injEq, Prod.mk.injEq, and_true, PlayTarget.nameable]
    exact eq_comm
  | @solo c s hc hs =>
    obtain ⟨u, hu, huo, hne, rfl⟩ := hmem _ hc
    obtain ⟨⟨kind, s'⟩, hentry, rfl⟩ := List.mem_map.1 hs
    rw [resolveOffer_solo hu huo (GoMap.mem_range.1 hentry) hw]
    simp only [true_and]
    rfl

theorem observeStarted_member {w : World} {r : RoomRef} {o u : UserID} {username sdp : String}
    {ord ord' : MapOrder} {kind : Kind} (hu : u ∈ (w.hub.room r).clients) (huo : u ≠ o)
    (hne : u ≠ "") :
    (w.setHub (w.hub.withObserver o username r)).observeStarted ord' r o
        ((PlayTarget.member u kind).offer sdp) =
      [.audited username "observe_start" (w.hub.room r).id
        (MonitorRoom.orElse ((((w.hub.roomStats ord r).toMonitor.clientList.find? fun c =>
          c.userId = u).map (·.nickname)).getD "") u)] := by
  have hnick : (((w.hub.roomStats ord r).toMonitor.clientList.find? fun c =>
      c.userId = u).map (·.nickname)).getD "" = (w.hub.client u).nickname := by
    rw [Hub.find_toMonitor, if_pos hu]
    rfl
  have hdetail : (w.setHub (w.hub.withObserver o username r)).observePlayDetail ord' r
      ((PlayTarget.member u kind).offer sdp) =
        MonitorRoom.orElse (w.hub.client u).nickname u := by
    have hin : ¬u ∉ ((w.hub.withObserver o username r).room r).clients :=
      not_not.2 (mem_withObserver.2 (Or.inl hu))
    simp only [observePlayDetail, PlayTarget.offer, if_true, setHub_hub, Hub.clientNickname,
      withObserver_client huo, hin, false_or, MonitorRoom.orElse]
  have hnonempty : MonitorRoom.orElse (w.hub.client u).nickname u ≠ "" := by
    unfold MonitorRoom.orElse
    split_ifs with hn
    · exact hne
    · exact hn
  have hadmin : ((w.hub.withObserver o username r).client o).adminUser = username := by
    simp [Hub.withObserver, Hub.addTo, Hub.allocate, Hub.observerClient]
  rw [hnick, World.observeStarted, hdetail, if_neg hnonempty, setHub_hub, hadmin, withObserver_id]

def watchable : List Input :=
  [.connect "alice", .join "alice" "1001", .publish "alice" "cam", .observeOpen 0 "root"]

def aliceOnScreen : MonitorRoom where
  id := "1001"
  mode := "meeting"
  members := 1
  realMembers := some 1
  clients := some [{ soloRole := none, isObserver := none, userId := "alice", nickname := "alice"
                     camOn := true, streams := [⟨"cam", "user_alice_cam"⟩] }]

end Meetkit
