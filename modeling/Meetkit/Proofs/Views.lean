import Meetkit.Abstract.View
import Meetkit.Proofs.Turn

/-! What the participants are told is what the server holds. Every operation either
leaves a room looking the same and its participants' pictures alone, or changes one
member and tells exactly the others. -/

namespace Meetkit

open World

def Client.card (x : Client) : Card := ⟨x.nickname, x.micOn, x.camOn, x.clientPlatform⟩

namespace Hub

/-- The streams of the members of `r` other than `c`. -/
def othersStreams (h : Hub) (r : RoomRef) (c u : UserID) (kind : Kind) : Option StreamID :=
  if u ≠ c ∧ u ∈ h.members r then (h.client u).streams.lookup kind else none

/-- The members of `r` other than `c`. -/
def othersCards (h : Hub) (r : RoomRef) (c u : UserID) : Option Card :=
  if u ≠ c ∧ u ∈ h.members r then some (h.client u).card else none

theorem mem_members_setClient {h : Hub} {c : UserID} {f : Client → Client}
    (hob : (f (h.client c)).isObserver = (h.client c).isObserver) {r : RoomRef} {u : UserID} :
    u ∈ (h.setClient c f).members r ↔ u ∈ h.members r := by
  rw [mem_members, mem_members, isObserver_setClient hob, setClient_room]

theorem othersStreams_setClient {h : Hub} {c : UserID} {f : Client → Client}
    (hob : (f (h.client c)).isObserver = (h.client c).isObserver) (r : RoomRef) (d u : UserID)
    (kind : Kind) : (h.setClient c f).othersStreams r d u kind =
      if u = c then if c ≠ d ∧ c ∈ h.members r then (f (h.client c)).streams.lookup kind else none
      else h.othersStreams r d u kind := by
  unfold othersStreams
  simp only [mem_members_setClient hob]
  by_cases hu : u = c
  · subst hu; rw [if_pos rfl, setClient_same]
  · rw [if_neg hu, setClient_ne _ _ _ _ hu]

theorem othersCards_setClient {h : Hub} {c : UserID} {f : Client → Client}
    (hob : (f (h.client c)).isObserver = (h.client c).isObserver) (r : RoomRef) (d u : UserID) :
    (h.setClient c f).othersCards r d u =
      if u = c then if c ≠ d ∧ c ∈ h.members r then some (f (h.client c)).card else none
      else h.othersCards r d u := by
  unfold othersCards
  simp only [mem_members_setClient hob]
  by_cases hu : u = c
  · subst hu; rw [if_pos rfl, setClient_same]
  · rw [if_neg hu, setClient_ne _ _ _ _ hu]

/-! ### The snapshot of a join -/

theorem find_peerInfo (h : Hub) (ord : MapOrder) (u : UserID) (l : List UserID) :
    (l.map (h.peerInfo ord)).find? (fun p => p.userID = u) =
      if u ∈ l then some (h.peerInfo ord u) else none := by
  induction l with
  | nil => rfl
  | cons d l ih =>
    rw [List.map_cons, List.find?_cons]
    by_cases hd : d = u
    · subst hd; simp [peerInfo]
    · have hne : decide ((h.peerInfo ord d).userID = u) = false := decide_eq_false hd
      rw [hne, ih]
      simp [Ne.symm hd]

theorem find_snapshotPeers (h : Hub) (ord : MapOrder) (r : RoomRef) (c u : UserID) :
    (h.snapshotPeers ord r c).find? (fun p => p.userID = u) =
      if u ≠ c ∧ u ∈ h.members r then some (h.peerInfo ord u) else none := by
  rw [snapshotPeers, find_peerInfo]
  refine if_congr ?_ rfl rfl
  simp only [List.mem_filter, mem_clientsOf, mem_members, Bool.and_eq_true, decide_eq_true_eq,
    Bool.not_eq_true']
  tauto

theorem snapshot_streams (h : Hub) (ord : MapOrder) (r : RoomRef) (c u : UserID) (kind : Kind) :
    (View.snapshot (h.snapshotPeers ord r c)).streams u kind = h.othersStreams r c u kind := by
  have hfind : (((h.client u).streams.range (ord.streams u)).map fun e =>
      (⟨e.1, e.2⟩ : StreamInfo)).find? (fun s => s.kind = kind) =
        (((h.client u).streams.range (ord.streams u)).find? fun e => e.1 = kind).map fun e =>
          ⟨e.1, e.2⟩ := by
    rw [List.find?_map]; rfl
  simp only [View.snapshot, find_snapshotPeers, othersStreams]
  split_ifs
  · simp only [Option.bind_some, peerInfo, hfind, Option.map_map, ← GoMap.find_range (ord.streams u)]
    rfl
  · rfl

theorem snapshot_peers (h : Hub) (ord : MapOrder) (r : RoomRef) (c u : UserID) :
    (View.snapshot (h.snapshotPeers ord r c)).peers u = h.othersCards r c u := by
  simp only [View.snapshot, find_snapshotPeers, othersCards]
  split_ifs <;> rfl

/-- The snapshot for `c` leaves `c` out. -/
theorem snapshotPeers_setClient {h : Hub} {c : UserID} {f : Client → Client}
    (hob : (f (h.client c)).isObserver = (h.client c).isObserver) (ord : MapOrder) (r : RoomRef) :
    (h.setClient c f).snapshotPeers ord r c = h.snapshotPeers ord r c := by
  unfold snapshotPeers
  simp only [isObserver_setClient hob]
  refine List.map_congr_left fun u hu => ?_
  have hne : u ≠ c := by
    have := (List.mem_filter.1 hu).2
    simp only [Bool.and_eq_true, decide_eq_true_eq] at this
    exact this.1
  simp only [peerInfo, setClient_ne _ _ _ _ hne]

/-! ### Rooms that look the same -/

/-- Nothing anybody in `r` can see has changed; participants may have left `r`
unseen. -/
structure LooksSame (h h' : Hub) (r : RoomRef) : Prop where
  was : ∀ c ∈ (h'.room r).clients, c ∈ (h.room r).clients ∧ h'.isObserver c = h.isObserver c
  mode : (h'.room r).clients ≠ [] → (h'.room r).mode = (h.room r).mode
  members : ∀ u, u ∈ h'.members r ↔ u ∈ h.members r
  streams : ∀ u ∈ h.members r, ∀ kind,
    (h'.client u).streams.lookup kind = (h.client u).streams.lookup kind
  card : ∀ u ∈ h.members r, (h'.client u).card = (h.client u).card

namespace LooksSame

variable {h h' : Hub} {r : RoomRef}

theorem othersStreams (hs : LooksSame h h' r) (c u : UserID) (kind : Kind) :
    h'.othersStreams r c u kind = h.othersStreams r c u kind := by
  unfold Hub.othersStreams
  simp only [hs.members u]
  split_ifs with hu
  · exact hs.streams u hu.2 kind
  · rfl

theorem othersCards (hs : LooksSame h h' r) (c u : UserID) :
    h'.othersCards r c u = h.othersCards r c u := by
  unfold Hub.othersCards
  simp only [hs.members u]
  split_ifs with hu
  · rw [hs.card u hu.2]
  · rfl

/-- The room map is the same and so is, as far as it shows, every client in it. -/
theorem of_room (hroom : h'.room r = h.room r)
    (hob : ∀ c ∈ (h.room r).clients, h'.isObserver c = h.isObserver c)
    (hstreams : ∀ u ∈ h.members r, ∀ kind,
      (h'.client u).streams.lookup kind = (h.client u).streams.lookup kind)
    (hcard : ∀ u ∈ h.members r, (h'.client u).card = (h.client u).card) : LooksSame h h' r where
  was c hc := ⟨hroom ▸ hc, hob c (hroom ▸ hc)⟩
  mode _ := by rw [hroom]
  members u := by
    rw [mem_members, mem_members, hroom]
    exact and_congr_right fun hu => by rw [hob u hu]
  streams := hstreams
  card := hcard

theorem refl (h : Hub) (r : RoomRef) : LooksSame h h r :=
  of_room rfl (fun _ _ => rfl) (fun _ _ _ => rfl) fun _ _ => rfl

/-- A client the room does not have may be rewritten at will. -/
theorem outside {c : UserID} (hc : c ∉ (h.room r).clients) (hroom : h'.room = h.room)
    (hclient : ∀ d, d ≠ c → h'.client d = h.client d) : LooksSame h h' r := by
  have hne : ∀ d ∈ (h.room r).clients, d ≠ c := fun d hd hdc => hc (hdc ▸ hd)
  refine of_room (by rw [hroom]) (fun d hd => ?_) (fun u hu kind => ?_) fun u hu => ?_
  · rw [isObserver, hclient d (hne d hd)]; rfl
  · rw [hclient u (hne u (mem_members.1 hu).1)]
  · rw [hclient u (hne u (mem_members.1 hu).1)]

theorem setClient_outside {c : UserID} (hc : c ∉ (h.room r).clients) (f : Client → Client) :
    LooksSame h (h.setClient c f) r :=
  outside hc rfl fun _ hd => setClient_ne _ _ _ _ hd

theorem allocate {c : UserID} (hc : c ∉ (h.room r).clients) (x : Client) :
    LooksSame h (h.allocate c x) r :=
  outside hc rfl fun _ hd => Function.update_of_ne hd _ _

/-- A write that does not show. -/
theorem setClient_unseen {c : UserID} {f : Client → Client}
    (hob : (f (h.client c)).isObserver = (h.client c).isObserver)
    (hstreams : ∀ kind, (f (h.client c)).streams.lookup kind = (h.client c).streams.lookup kind)
    (hcard : (f (h.client c)).card = (h.client c).card) : LooksSame h (h.setClient c f) r := by
  refine of_room rfl (fun d _ => isObserver_setClient hob d) (fun u _ kind => ?_) fun u _ => ?_
  · rw [setClient_client]
    split_ifs with hu
    · rw [hu, hstreams]
    · rfl
  · rw [setClient_client]
    split_ifs with hu
    · rw [hu, hcard]
    · rfl

theorem of_same (hroom : h'.room = h.room) (hclient : h'.client = h.client)
    (r : RoomRef) : LooksSame h h' r :=
  of_room (by rw [hroom]) (fun c _ => by rw [isObserver, hclient]; rfl)
    (fun u _ kind => by rw [hclient]) fun u _ => by rw [hclient]

theorem removeRoomIfEmpty (h : Hub) (s r : RoomRef) : LooksSame h (h.removeRoomIfEmpty s) r := by
  unfold Hub.removeRoomIfEmpty
  split_ifs
  · refine of_same ?_ ?_ r <;> rfl
  · exact refl h r

/-- A room that is created is empty, and nobody was in it. -/
theorem getOrCreateRoom (hw : h.WellFormed) (id : RoomID) (mode : RoomMode) (r : RoomRef) :
    LooksSame h (h.getOrCreateRoom id mode).1 r := by
  unfold Hub.getOrCreateRoom
  split
  · exact refl h r
  · by_cases hr : r = h.nextRoom
    · subst hr
      have hnil := hw.unallocated (le_refl h.nextRoom)
      refine ⟨?_, ?_, ?_, ?_, ?_⟩
      · intro c hc; simp [Function.update_self] at hc
      · intro hne; simp [Function.update_self] at hne
      · intro u; simp [Hub.members, Function.update_self, hnil]
      · intro u hu; simp [Hub.members, hnil] at hu
      · intro u hu; simp [Hub.members, hnil] at hu
    · refine of_room ?_ (fun _ _ => rfl) (fun _ _ _ => rfl) fun _ _ => rfl
      exact Function.update_of_ne hr _ _

theorem aside (ha : Aside h h') (r : RoomRef) : LooksSame h h' r where
  was c hc := ⟨ha.was r c hc, ha.isObserver c⟩
  mode _ := ha.mode r
  members u := by rw [ha.members]
  streams u hu kind := by rw [ha.client u (mem_members.1 hu).2]
  card u hu := by rw [ha.client u (mem_members.1 hu).2]

end LooksSame

end Hub

/-! ### Pictures -/

/-- What `c` in `r` was told is what is there. -/
structure World.InPicture (w : World) (r : RoomRef) (c : UserID) : Prop where
  streams : ∀ u kind, (w.view c).streams u kind = w.hub.othersStreams r c u kind
  peers : w.hub.isObserver c = false → (w.hub.room r).mode ≠ .solo →
    ∀ u, (w.view c).peers u = w.hub.othersCards r c u

/-- Everybody in a room is in the picture. -/
def World.ViewsAgree (w : World) : Prop :=
  ∀ r c, c ∈ (w.hub.room r).clients → w.InPicture r c

section Agree

variable {w w' : World} {c : UserID} {r : RoomRef} {ord : MapOrder}

/-- Messages that are neutral, and events that are no messages, leave every view. -/
theorem view_neutral {es : List Event} (hlog : w'.log = w.log ++ es)
    (hes : ∀ e ∈ es, ∀ d q m, e = .sent d q m → m.neutral = true) (c : UserID) :
    w'.view c = w.view c := by
  unfold World.view
  rw [hlog, inbox_append]
  refine Reader.read_append_ignored fun x hx v => ?_
  obtain ⟨e, he, hex⟩ := List.mem_filterMap.1 hx
  cases e with
  | sent d q m =>
    have hm := hes _ he d q m rfl
    dsimp only at hex
    split_ifs at hex
    obtain rfl := Option.some.inj hex
    cases m with
    | joined | peerJoined | peerLeft | peerState | peerStreamStarted | peerStreamStopped
    | observeJoined => cases hm
    | _ => rfl
  | _ => cases hex

theorem World.Quiet.view (h : Quiet w w') (c : UserID) : w'.view c = w.view c := by
  obtain ⟨es, hlog, hes⟩ := h.log
  refine view_neutral hlog (fun e he d q m hm => ?_) c
  have := hes e he
  rw [hm] at this
  exact this

theorem World.Aside.view (h : Aside w w') (c : UserID) : w'.view c = w.view c := by
  obtain ⟨es, hlog, hes⟩ := h.log
  refine view_neutral hlog (fun e he d q m hm => ?_) c
  rcases hes e he with rfl | ⟨o, q', m', rfl, -, hm'⟩
  · cases hm
  · cases hm; exact hm'

theorem World.InPicture.congr (h : w.InPicture r c) (hs : Hub.LooksSame w.hub w'.hub r)
    (hc : c ∈ (w'.hub.room r).clients) (hview : w'.view c = w.view c) : w'.InPicture r c where
  streams u kind := by rw [hview, h.streams, hs.othersStreams]
  peers hbiz hmode u := by
    rw [hs.mode (List.ne_nil_of_mem hc)] at hmode
    rw [hview, h.peers ((hs.was c hc).2.symm.trans hbiz) hmode, hs.othersCards]

theorem World.ViewsAgree.congr (h : w.ViewsAgree) (hs : ∀ r, Hub.LooksSame w.hub w'.hub r)
    (hview : ∀ c, w'.view c = w.view c) : w'.ViewsAgree := fun r c hc =>
  (h r c ((hs r).was c hc).1).congr (hs r) hc (hview c)

theorem World.ViewsAgree.quiet (h : w.ViewsAgree) (hq : Quiet w w') : w'.ViewsAgree :=
  h.congr (fun r => hq.hub ▸ .refl _ r) hq.view

theorem World.ViewsAgree.noted (h : w.ViewsAgree) (es : List Event) (hhub : w'.hub = w.hub)
    (hlog : w'.log = w.log ++ es)
    (hes : ∀ e ∈ es, ∀ d q m, e = .sent d q m → m.neutral = true) : w'.ViewsAgree :=
  h.congr (fun r => hhub ▸ .refl _ r) (view_neutral hlog hes)

/-- The audience of a message about `c` in its room. -/
theorem World.view_told (hw : w.hub.WellFormed) {ids : List UserID} (hids : ids.Nodup) {s : RoomRef}
    {d : UserID} (hd : d ∈ (w.hub.room s).clients) {hub : Hub}
    (hcl : (hub.client d).closed = (w.hub.client d).closed) (m : ServerMsg) :
    ((w.setHub hub).sendAll ids m).view d = if d ∈ ids then (w.view d).next m else w.view d := by
  rw [view_sendAll hids]
  refine if_congr ?_ rfl rfl
  rw [setHub_hub, hcl, (hw.member s d hd).2]
  simp

/-- A member's stream changed under a kind and the others were told. -/
theorem World.ViewsAgree.streamChanged (h : w.ViewsAgree) (hw : w.hub.WellFormed)
    (hc : c ∈ (w.hub.room r).clients) (hbiz : w.hub.isObserver c = false) {f : Client → Client}
    {kind : Kind} {s : Option StreamID} {m : ServerMsg}
    (hob : (f (w.hub.client c)).isObserver = (w.hub.client c).isObserver)
    (hcl : (f (w.hub.client c)).closed = (w.hub.client c).closed)
    (hcard : (f (w.hub.client c)).card = (w.hub.client c).card)
    (hlook : ∀ k, (f (w.hub.client c)).streams.lookup k =
      if k = kind then s else (w.hub.client c).streams.lookup k)
    (hm : ∀ v : View, v.next m = v.setStream c kind s) :
    ((w.setClient c f).broadcastToAllExcept ord r c m).ViewsAgree := by
  intro r' d hd
  replace hd : d ∈ (w.hub.room r').clients := hd
  have hold := h r' d hd
  have hview : ((w.setClient c f).broadcastToAllExcept ord r c m).view d =
      if d ∈ (w.hub.room r).clients ∧ d ≠ c then (w.view d).setStream c kind s else w.view d := by
    have hclosed : ((w.hub.setClient c f).client d).closed = (w.hub.client d).closed := by
      rw [Hub.setClient_client]
      split_ifs with hdc
      · rw [hcl, hdc]
      · rfl
    refine (view_told hw ((Hub.clientsOf_nodup _ _ _).filter _) hd hclosed m).trans ?_
    rw [← hm]
    refine if_congr ?_ rfl rfl
    simp
  by_cases hr : r' = r
  · subst hr
    have hmem : c ∈ w.hub.members r' := by simp [hc, hbiz]
    refine ⟨fun u k => ?_, fun hdb hmode u => ?_⟩
    · refine Eq.trans ?_ (Hub.othersStreams_setClient hob r' d u k).symm
      rw [hview]
      by_cases hdc : d = c
      · -- the sender knows its own streams and is told nothing
        rw [if_neg fun hd' => hd'.2 hdc, hold.streams]
        split_ifs with hu hne
        · exact absurd hdc.symm hne.1
        · exact if_neg fun hu' => hu'.1 (hu.trans hdc.symm)
        · rfl
      · rw [if_pos ⟨hd, hdc⟩, View.setStream_streams, hold.streams]
        by_cases hu : u = c
        · subst hu
          have htold : u ≠ d ∧ u ∈ w.hub.members r' := ⟨Ne.symm hdc, hmem⟩
          rw [if_pos rfl, if_pos htold, hlook, Hub.othersStreams, if_pos htold]
          simp
        · rw [if_neg hu, if_neg fun hu' => hu hu'.1]
    · refine Eq.trans ?_ (Hub.othersCards_setClient hob r' d u).symm
      have hpeers : (((w.setClient c f).broadcastToAllExcept ord r' c m).view d).peers =
          (w.view d).peers := by
        rw [hview]; split_ifs <;> rfl
      have hdb' : w.hub.isObserver d = false := (Hub.isObserver_setClient hob d).symm.trans hdb
      rw [hpeers, hold.peers hdb' hmode, hcard]
      split_ifs with hu hne
      · rw [hu, Hub.othersCards, if_pos hne]
      · rw [hu, Hub.othersCards, if_neg hne]
      · rfl
  · have hout : c ∉ (w.hub.room r').clients := fun hc' => hr (hw.unique hc' hc)
    refine hold.congr (.setClient_outside hout f) hd ?_
    rw [hview, if_neg fun hdr => hr (hw.unique hd hdr.1)]

theorem World.ViewsAgree.startStream (h : w.ViewsAgree) (hw : w.hub.WellFormed)
    (hc : c ∈ (w.hub.room r).clients) (hbiz : w.hub.isObserver c = false) (kind : Kind)
    (stream : StreamID) : (w.startStream ord r c kind stream).ViewsAgree :=
  h.streamChanged hw hc hbiz rfl rfl rfl
    (fun k => GoMap.lookup_insert_iff _ _ k stream) fun _ => rfl

theorem World.ViewsAgree.stopStream (h : w.ViewsAgree) (hw : w.hub.WellFormed)
    (hc : c ∈ (w.hub.room r).clients) (hbiz : w.hub.isObserver c = false) (kind : Kind)
    (stream : StreamID) :
    ((w.setClient c fun x => { x with streams := x.streams.erase kind }).stopStream ord r c kind
      stream).ViewsAgree := by
  have hstop : ((w.setClient c fun x => { x with streams := x.streams.erase kind
      }).broadcastStreamStopped ord r c kind stream).ViewsAgree :=
    h.streamChanged hw hc hbiz rfl rfl rfl
      (fun k => GoMap.lookup_erase_iff _ _ k) fun _ => rfl
  exact hstop.noted [.statsChanged, .spawned c [.closeStream (w.hub.room r).id stream]] rfl
    (List.append_assoc _ [Event.statsChanged] _) (by simp)

/-- A member's media state changed and the room's other members were told. -/
theorem World.ViewsAgree.mediaChanged (h : w.ViewsAgree) (hw : w.hub.WellFormed)
    (hc : c ∈ (w.hub.room r).clients) (micOn camOn : Bool) :
    ((w.setClient c fun x => { x with micOn, camOn }).broadcastMediaState ord r c).ViewsAgree := by
  intro r' d hd
  rw [broadcastMediaState_hub] at hd
  replace hd : d ∈ (w.hub.room r').clients := hd
  have hold := h r' d hd
  have hob : ∀ e, (w.hub.setClient c fun x => { x with micOn, camOn }).isObserver e =
      w.hub.isObserver e := Hub.isObserver_setClient (by rfl)
  have hview : ((w.setClient c fun x => { x with micOn, camOn }).broadcastMediaState ord r c).view d =
      if (w.hub.room r).mode ≠ .solo ∧ d ∈ (w.hub.room r).clients ∧ d ≠ c ∧
          w.hub.isObserver d = false then (w.view d).next (.peerState ⟨c, micOn, camOn⟩)
      else w.view d := by
    have hclosed : ((w.hub.setClient c fun x => { x with micOn, camOn }).client d).closed =
        (w.hub.client d).closed := by
      rw [Hub.setClient_client]
      split_ifs with hdc
      · rw [hdc]
      · rfl
    unfold broadcastMediaState
    by_cases hmode : (w.hub.room r).mode = .solo
    · rw [if_neg (by simp [Room.isBroadcast, hmode]), if_neg fun hno => hno.1 hmode]
      rfl
    · rw [if_pos (by simp [Room.isBroadcast, hmode])]
      simp only [setClient_hub, Hub.setClient_same]
      refine (view_told hw ((Hub.clientsOf_nodup _ _ _).filter _) hd hclosed _).trans
        (if_congr ?_ rfl rfl)
      simp [hob, hmode]
  refine ⟨fun u k => ?_, fun hdb hmode u => ?_⟩
  · have hsame : (((w.setClient c fun x => { x with micOn, camOn }).broadcastMediaState ord r c).view
        d).streams = (w.view d).streams := by
      rw [hview]; split_ifs <;> rfl
    rw [hsame, hold.streams, broadcastMediaState_hub, setClient_hub,
      Hub.othersStreams_setClient (by rfl)]
    split_ifs with hu hne
    · rw [hu, Hub.othersStreams, if_pos hne]
    · rw [hu, Hub.othersStreams, if_neg hne]
    · rfl
  · rw [broadcastMediaState_hub, setClient_hub, hob] at hdb
    rw [broadcastMediaState_hub, setClient_hub, Hub.setClient_room] at hmode
    have hpeers := hold.peers hdb hmode
    rw [broadcastMediaState_hub, setClient_hub, Hub.othersCards_setClient (by rfl), hview]
    by_cases hr : r' = r
    · subst hr
      by_cases hdc : d = c
      · rw [if_neg fun hno => hno.2.2.1 hdc, hpeers]
        split_ifs with hu hne
        · exact absurd hdc.symm hne.1
        · exact if_neg fun hu' => hu'.1 (hu.trans hdc.symm)
        · rfl
      · rw [if_pos ⟨hmode, hd, hdc, hdb⟩, View.next, View.setPeer_peers]
        dsimp only
        split_ifs with hu hne
        · rw [hpeers, Hub.othersCards, if_pos hne]
          rfl
        · rw [hpeers, Hub.othersCards, if_neg hne]; rfl
        · exact hpeers u
    · have hout : c ∉ (w.hub.room r').clients := fun hc' => hr (hw.unique hc' hc)
      rw [if_neg fun hno => hr (hw.unique hd hno.2.1), hpeers]
      split_ifs with hu hne
      · exact absurd (Hub.mem_members.1 hne.2).1 hout
      · rw [hu, Hub.othersCards, if_neg hne]
      · rfl

/-- A client that publishes nothing enters a room, is told what is there, and, if it
is a member of a broadcast room, the other members are told of it. -/
theorem World.ViewsAgree.entered (h : w.ViewsAgree) (ord : MapOrder) {f : Client → Client}
    (hout : ∀ s, c ∉ (w.hub.room s).clients) (hsilent : (w.hub.client c).streams = ∅)
    (hob : (f (w.hub.client c)).isObserver = (w.hub.client c).isObserver)
    (hcard : (f (w.hub.client c)).card = (w.hub.client c).card)
    (hstreams : (f (w.hub.client c)).streams = (w.hub.client c).streams)
    (hhub : w'.hub = (w.hub.addTo r c).setClient c f)
    (hself : w'.view c = View.snapshot (w'.hub.snapshotPeers ord r c))
    (hothers : ∀ s d, d ≠ c → d ∈ (w.hub.room s).clients → w'.view d =
      if w.hub.isObserver c = false ∧ (w.hub.room r).mode ≠ .solo ∧ s = r ∧
        w.hub.isObserver d = false then (w.view d).setPeer c (some (w.hub.client c).card)
      else w.view d) : w'.ViewsAgree := by
  have hobs : ∀ d, w'.hub.isObserver d = w.hub.isObserver d := by
    intro d
    rw [hhub]
    exact Hub.isObserver_setClient (h := w.hub.addTo r c) hob d
  have hroom : ∀ s d, d ∈ (w'.hub.room s).clients ↔ (s = r ∧ d = c) ∨ d ∈ (w.hub.room s).clients := by
    intro s d
    rw [hhub, Hub.setClient_room, Hub.mem_addTo, or_comm]
  have hmode : ∀ s, (w'.hub.room s).mode = (w.hub.room s).mode := by
    intro s
    rw [hhub, Hub.setClient_room, (w.hub.addTo_kept r s c).2]
  have hmem : ∀ s u, u ∈ w'.hub.members s ↔
      (s = r ∧ u = c ∧ w.hub.isObserver c = false) ∨ u ∈ w.hub.members s := by
    intro s u
    rw [Hub.mem_members, Hub.mem_members, hroom, hobs]
    constructor
    · rintro ⟨⟨hs, rfl⟩ | hu, hub⟩
      · exact Or.inl ⟨hs, rfl, hub⟩
      · exact Or.inr ⟨hu, hub⟩
    · rintro (⟨hs, rfl, hub⟩ | ⟨hu, hub⟩)
      · exact ⟨Or.inl ⟨hs, rfl⟩, hub⟩
      · exact ⟨Or.inr hu, hub⟩
  have hclient : ∀ u, u ≠ c → w'.hub.client u = w.hub.client u := by
    intro u hu
    rw [hhub, Hub.setClient_ne _ _ _ _ hu]; rfl
  have hnone : ∀ s, c ∉ w.hub.members s := fun s hc => hout s (Hub.mem_members.1 hc).1
  have hlook : ∀ k, (w'.hub.client c).streams.lookup k = none := by
    intro k
    rw [hhub, Hub.setClient_same]
    exact (congrArg (AList.lookup k) (hstreams.trans hsilent)).trans rfl
  -- no stream is seen that was not seen before
  have htruth : ∀ s d u k, w'.hub.othersStreams s d u k = w.hub.othersStreams s d u k := by
    intro s d u k
    simp only [Hub.othersStreams, hmem]
    by_cases hu : u = c
    · subst hu; simp [hlook, hnone]
    · simp [hu, hclient u hu]
  intro s d hd
  by_cases hdc : d = c
  · subst hdc
    obtain rfl : s = r := by
      rcases (hroom s d).1 hd with hs | hs
      · exact hs.1
      · exact absurd hs (hout s)
    refine ⟨fun u k => ?_, fun _ _ u => ?_⟩
    · rw [hself, Hub.snapshot_streams]
    · rw [hself, Hub.snapshot_peers]
  · have hd' : d ∈ (w.hub.room s).clients := ((hroom s d).1 hd).resolve_left fun hs => hdc hs.2
    have hold := h s d hd'
    have hview := hothers s d hdc hd'
    refine ⟨fun u k => ?_, fun hdb hms u => ?_⟩
    · have hsame : (w'.view d).streams = (w.view d).streams := by
        rw [hview]; split_ifs <;> rfl
      rw [hsame, hold.streams, htruth]
    · rw [hobs] at hdb
      rw [hmode] at hms
      have hpeers := hold.peers hdb hms
      have hcard' : (w'.hub.client c).card = (w.hub.client c).card := by
        rw [hhub, Hub.setClient_same]; exact hcard
      rw [hview]
      by_cases htold : w.hub.isObserver c = false ∧ (w.hub.room r).mode ≠ .solo ∧ s = r ∧
          w.hub.isObserver d = false
      · rw [if_pos htold, View.setPeer_peers, hpeers]
        by_cases hu : u = c
        · subst hu
          simp [Hub.othersCards, hmem, htold.1, htold.2.2.1, Ne.symm hdc, hcard']
        · simp [Hub.othersCards, hmem, hu, hclient u hu]
      · rw [if_neg htold, hpeers]
        by_cases hu : u = c
        · subst hu
          have hno : ¬(s = r ∧ w.hub.isObserver u = false) := by
            rintro ⟨rfl, hub⟩
            exact htold ⟨hub, hms, rfl, hdb⟩
          simp only [Hub.othersCards, hmem, hnone, true_and, or_false, and_false, if_false, hno]
        · simp [Hub.othersCards, hmem, hu, hclient u hu]

theorem view_emit {es : List Event} (hes : ∀ e ∈ es, ∀ d q m, e = .sent d q m → m.neutral = true)
    (c : UserID) : (w.emit es).view c = w.view c := view_neutral rfl hes c

theorem view_spawn (w : World) (calls : List ZlmCall) (d : UserID) :
    (w.spawn c calls).view d = w.view d := by
  have hsame : (w.spawn c calls).view d = (w.emit [.spawned c calls]).view d := rfl
  rw [hsame]
  exact view_emit (by simp) d

/-- What the joiner and the others get out of an announcement. -/
theorem announceJoin_view (ord : MapOrder) (r : RoomRef) (hopen : (w.hub.client c).closed = false) :
    (w.announceJoin ord r c).view c = View.snapshot (w.hub.snapshotPeers ord r c) ∧
      ∀ d, d ≠ c → (w.announceJoin ord r c).view d =
        if (w.hub.room r).mode ≠ .solo ∧ d ∈ w.hub.members r ∧ (w.hub.client d).closed = false then
          (w.view d).setPeer c (some (w.hub.client c).card) else w.view d := by
  set w₁ := (w.emit [.joined c (w.hub.room r).id]).send c ""
    (.joined ⟨c, (w.hub.room r).id, w.hub.snapshotPeers ord r c⟩) with hw₁
  have hhub : w₁.hub = w.hub := by rw [hw₁, send_hub]; rfl
  have hself : w₁.view c = View.snapshot (w.hub.snapshotPeers ord r c) := by
    rw [hw₁, view_send, if_pos ⟨rfl, hopen⟩]; rfl
  have hother : ∀ d, d ≠ c → w₁.view d = w.view d := by
    intro d hd
    rw [hw₁, view_send, if_neg fun h => hd h.1.symm]
    exact view_emit (by simp) d
  have hrun : w.announceJoin ord r c = (if (w.hub.room r).isBroadcast then
      w₁.broadcastExcept ord r c (.peerJoined ⟨c, (w.hub.client c).nickname, (w.hub.client c).micOn,
        (w.hub.client c).camOn, (w.hub.client c).clientPlatform⟩) else w₁).notifyStatsChanged := by
    simp only [announceJoin, emit_hub, ← hw₁, hhub]
  rw [hrun]
  have hlast : ∀ (v : World) d, v.notifyStatsChanged.view d = v.view d := fun v d =>
    view_emit (by simp) d
  have hnodup : ((w₁.hub.clientsOf ord r).filter fun d => d ≠ c && !w₁.hub.isObserver d).Nodup :=
    (Hub.clientsOf_nodup _ _ _).filter _
  refine ⟨?_, fun d hd => ?_⟩
  · rw [hlast]
    split_ifs
    · rw [broadcastExcept, view_sendAll hnodup, if_neg (by simp), hself]
    · exact hself
  · rw [hlast]
    by_cases hmode : (w.hub.room r).mode = .solo
    · rw [if_neg (by simp [Room.isBroadcast, hmode]), if_neg fun h => h.1 hmode, hother d hd]
    · rw [if_pos (by simp [Room.isBroadcast, hmode]), broadcastExcept, view_sendAll hnodup, hother d hd]
      refine if_congr ?_ rfl rfl
      simp [hhub, hd, hmode, and_assoc]

/-- A client outside every room may prepare to join one. -/
theorem World.ViewsAgree.joining (h : w.ViewsAgree) (hw : w.hub.WellFormed) (hu : c ∈ w.hub.used)
    {f : Client → Client} (hf : Mild f) (hroom : (w.hub.client c).room = none) {id : RoomID}
    {mode : RoomMode} {v : World} (hv : (w.setClient c f).getOrCreateRoom id mode = (v, r)) :
    v.ViewsAgree := by
  obtain ⟨rfl, rfl⟩ := World.getOrCreateRoom_hub hv
  have h1 : (w.setClient c f).ViewsAgree :=
    h.congr (fun s => .setClient_outside (hw.not_member_of_room hroom s) f) fun _ => rfl
  exact h1.congr (.getOrCreateRoom (hw.mild hu hf) id mode) fun _ => rfl

theorem World.ViewsAgree.emit (h : w.ViewsAgree) {es : List Event}
    (hes : ∀ e ∈ es, ∀ d q m, e = .sent d q m → m.neutral = true) : (w.emit es).ViewsAgree :=
  h.noted es rfl rfl hes

theorem World.ViewsAgree.unseen (h : w.ViewsAgree) (f : Client → Client)
    (hob : (f (w.hub.client c)).isObserver = (w.hub.client c).isObserver)
    (hstreams : ∀ kind, (f (w.hub.client c)).streams.lookup kind =
      (w.hub.client c).streams.lookup kind)
    (hcard : (f (w.hub.client c)).card = (w.hub.client c).card) : (w.setClient c f).ViewsAgree :=
  h.congr (fun _ => .setClient_unseen hob hstreams hcard) fun _ => rfl

theorem World.ViewsAgree.recordState (h : w.ViewsAgree) {kind : Kind} {stream : StreamID}
    {recording : Bool} : (w.broadcastRecordState ord r c kind stream recording).ViewsAgree := by
  unfold broadcastRecordState
  split_ifs
  · exact h.quiet (.sendAll _ _ rfl)
  · exact h

theorem Handled.viewsAgree {env : Env} {reqID : String} {b : Body} {a : Act} {v : World × Option Err}
    (h : w.ViewsAgree) (hw : w.hub.WellFormed) (hu : c ∈ w.hub.used)
    (hopen : (w.hub.client c).closed = false) (hact : a ≠ .rest → w.hub.isObserver c = false)
    (hv : Handled env w c reqID b a v) : v.1.ViewsAgree := by
  have hin : ∀ {r}, (w.hub.client c).room = some r → c ∈ (w.hub.room r).clients := fun hr =>
    hw.present c _ hr hopen
  cases hv with
  | refused e hb => exact h
  | ignored hb => exact h
  | misjoined e hf hroom =>
    exact h.congr (fun s => .setClient_outside (hw.not_member_of_room hroom s) _) fun _ => rfl
  | turnedAway e hf hroom hv hadm =>
    exact (h.joining hw hu hf hroom hv).congr (.removeRoomIfEmpty _ _) fun _ => rfl
  | @joined p f mode v r hf hroom hv hadm =>
    obtain ⟨hvw, -, hvroom, hvopen, -, -⟩ := joining_hub hw hu hf hroom hv
    have hout := hvw.not_member_of_room hvroom
    have hopen' : ((v.addTo r c).hub.client c).closed = false := hvopen.trans hopen
    obtain ⟨hself, hothers⟩ := announceJoin_view env.order r hopen'
    have hhub : (((v.addTo r c).announceJoin env.order r c).setClient c fun x =>
        { x with room := some r }).hub =
        (v.hub.addTo r c).setClient c fun x => { x with room := some r } := by
      rw [setClient_hub, announceJoin_hub]; rfl
    have hbiz : v.hub.isObserver c = false := by
      obtain ⟨rfl, rfl⟩ := World.getOrCreateRoom_hub hv
      rw [Hub.isObserver, setHub_hub, Hub.getOrCreateRoom_client]
      exact (Hub.isObserver_setClient (hf.isObserver _) c).trans (hact (by simp))
    refine (h.joining hw hu hf hroom hv).entered env.order hout (hvw.outside c hout).1 rfl rfl rfl
      hhub ?_ ?_
    · rw [hhub, Hub.snapshotPeers_setClient (by rfl)]
      exact hself
    · intro s d hdc hd
      refine (hothers d hdc).trans (if_congr ?_ rfl rfl)
      have hmem : d ∈ (v.addTo r c).hub.members r ↔
          d ∈ (v.hub.room r).clients ∧ v.hub.isObserver d = false := by
        rw [Hub.mem_members]
        simp [World.addTo, Hub.addTo, hdc, Hub.isObserver]
      have hroomd : d ∈ (v.hub.room r).clients ↔ s = r :=
        ⟨fun hd' => hvw.unique hd hd', fun hs => hs ▸ hd⟩
      have hmode : ((v.addTo r c).hub.room r).mode = (v.hub.room r).mode := by
        simp [World.addTo, Hub.addTo]
      have hclosed : ((v.addTo r c).hub.client d).closed = false := (hvw.member s d hd).2
      rw [hmem, hroomd, hmode, hclosed]
      simp [hbiz]
  | chatted hroom => exact h.quiet (.sendAll _ _ rfl)
  | mediaChanged hroom => exact h.mediaChanged hw (hin hroom) _ _
  | exchangeFailed e => exact h.emit (by simp)
  | @published p r stream sdp hroom hbiz hs =>
    have h1 : ((w.emit [.exchangedSDP c .push (w.hub.room r).id stream true]).emit
        [.published c (w.hub.room r).id (offerKind p) stream]).ViewsAgree :=
      (h.emit (by simp)).emit (by simp)
    exact ((h1.startStream hw (hin hroom) hbiz _ _).emit (by simp)).quiet (.send _ _ _ rfl)
  | played m sdp es hroom hm hes =>
    refine ((h.unseen _ rfl (fun _ => rfl) rfl).emit ?_).quiet (.send _ _ _ (by rw [hm]; rfl))
    intro e he d q m' hm'
    rcases List.mem_cons.1 he with rfl | he
    · cases hm'
    · exact absurd hm' ((Event.off_of_owner (hes e he)).2 d q m')
  | started hroom hbiz hs => exact h.startStream hw (hin hroom) hbiz _ _
  | unstopped e hp => exact h
  | stoppedNone hroom hbiz hk hs =>
    -- the kind carries no stream, because a stream has a name
    refine h.unseen _ rfl (fun k => ?_) rfl
    dsimp only
    rw [GoMap.lookup_erase_iff]
    split_ifs with hk'
    · cases hl : (w.hub.client c).streams.lookup k with
      | none => rfl
      | some s =>
        rw [← hk', hl] at hs
        exact absurd hs (hw.streamID c k s hl)
    · rfl
  | stopped hroom hbiz hk hs hne => exact h.stopStream hw (hin hroom) hbiz _ _
  | @recordFailed start => exact h.emit (by cases start <;> simp [Event.recordCall])
  | @recorded start =>
    refine (((h.emit ?_).unseen _ rfl (fun _ => rfl) rfl).quiet (.send _ _ _ rfl)).recordState.emit ?_
    · cases start <;> simp [Event.recordCall]
    · simp

/-! ### A departure -/

/-- The streams of a client, taken from a picture one after another. -/
theorem foldl_setStream (c : UserID) (entries : List (Kind × StreamID)) :
    ∀ v : View, (entries.foldl (fun v e => v.setStream c e.1 none) v).peers = v.peers ∧
      ∀ u k, (entries.foldl (fun v e => v.setStream c e.1 none) v).streams u k =
        if u = c ∧ k ∈ entries.map Prod.fst then none else v.streams u k := by
  induction entries with
  | nil => intro v; exact ⟨rfl, fun u k => by simp⟩
  | cons e entries ih =>
    intro v
    obtain ⟨hpeers, hstreams⟩ := ih (v.setStream c e.1 none)
    refine ⟨hpeers, fun u k => ?_⟩
    rw [List.foldl_cons, hstreams, View.setStream_streams]
    by_cases hone : u = c ∧ k = e.1
    · have hmem : k ∈ (e :: entries).map Prod.fst := by rw [hone.2]; exact List.mem_cons_self
      rw [if_pos hone, ite_self, if_pos ⟨hone.1, hmem⟩]
    · rw [if_neg hone]
      refine if_congr (and_congr_right fun hu => ?_) rfl rfl
      have hk : k ≠ e.1 := fun hk => hone ⟨hu, hk⟩
      rw [List.map_cons, List.mem_cons]
      exact ⟨Or.inr, fun h => h.resolve_left hk⟩

theorem view_streamStops (entries : List (Kind × StreamID)) {d : UserID} (hd : d ≠ c) :
    ∀ v : World, (v.hub.client d).closed = false →
      (entries.foldl (fun w e => w.broadcastStreamStopped ord r c e.1 e.2) v).view d =
        if d ∈ (v.hub.room r).clients then entries.foldl (fun x e => x.setStream c e.1 none) (v.view d)
        else v.view d := by
  induction entries with
  | nil => intro v _; split_ifs <;> rfl
  | cons e entries ih =>
    intro v hopen
    have hone : (v.broadcastStreamStopped ord r c e.1 e.2).view d =
        if d ∈ (v.hub.room r).clients then (v.view d).setStream c e.1 none else v.view d := by
      refine (view_sendAll ((Hub.clientsOf_nodup _ _ _).filter _) _).trans (if_congr ?_ rfl rfl)
      simp [hd, hopen]
    rw [List.foldl_cons, ih (v.broadcastStreamStopped ord r c e.1 e.2) hopen, hone,
      broadcastStreamStopped_hub]
    split_ifs <;> rfl

section Withdrawn

variable {s : RoomRef} {d u : UserID} (hw : w.hub.WellFormed) (hc : c ∈ (w.hub.room r).clients)
include hw hc

/-- What the others have seen when the departure is through. -/
theorem view_withdrawn (hd : d ≠ c) (hds : d ∈ (w.hub.room s).clients) :
    (w.withdrawn ord r c).view d =
      if s = r then
        if (w.hub.room r).mode ≠ .solo ∧ w.hub.isObserver d = false then
          (((w.hub.client c).streams.range (ord.streams c)).foldl
            (fun x e => x.setStream c e.1 none) (w.view d)).setPeer c none
        else ((w.hub.client c).streams.range (ord.streams c)).foldl
          (fun x e => x.setStream c e.1 none) (w.view d)
      else w.view d := by
  set entries := (w.hub.client c).streams.range (ord.streams c) with hentries
  set v := ((w.setClient c fun x => { x with closed := true }).removeFrom r c).setClient c fun x =>
    { x with streams := ∅, recordings := ∅ } with hv
  have hhub : v.hub = w.hub.withoutMember r c := by
    rw [← withdrawn_hub (w := w) (r := r) (c := c) ord, World.withdrawn, withdraw_hub]; rfl
  have hob : v.hub.isObserver d = w.hub.isObserver d := by rw [hhub, Hub.withoutMember_isObserver]
  have hopen : (v.hub.client d).closed = false := by
    rw [hhub, Hub.withoutMember_client, if_neg hd]
    exact (hw.member s d hds).2
  have hdr : d ∈ (v.hub.room r).clients ↔ s = r := by
    rw [hhub, Hub.mem_withoutMember r c d hw hc]
    exact ⟨fun hd' => hw.unique hds hd'.2, fun hs => ⟨hd, hs ▸ hds⟩⟩
  set x := entries.foldl (fun w e => w.broadcastStreamStopped ord r c e.1 e.2) v with hx
  have hxhub : x.hub = v.hub := streamStops_hub ord r c entries v
  have hxview : x.view d = if s = r then
      entries.foldl (fun x e => x.setStream c e.1 none) (w.view d) else w.view d :=
    (view_streamStops entries hd v hopen).trans (if_congr hdr rfl rfl)
  have hlast : (w.withdrawn ord r c).view d =
      (if (x.hub.room r).isBroadcast then x.broadcastExcept ord r c (.peerLeft c) else x).view d := by
    have hdeparting : ((w.setClient c fun x => { x with closed := true }).removeFrom r
        c).departingStreams ord c = entries := by
      simp [hentries, departingStreams, World.removeFrom, Hub.removeFrom]
    unfold World.withdrawn withdraw
    rw [hdeparting]
    exact (view_emit (by simp) d).trans (view_spawn _ _ d)
  have hleft : (x.broadcastExcept ord r c (.peerLeft c)).view d =
      if s = r ∧ w.hub.isObserver d = false then (x.view d).setPeer c none else x.view d := by
    refine (view_sendAll ((Hub.clientsOf_nodup _ _ _).filter _) _).trans (if_congr ?_ rfl rfl)
    simp [hxhub, hdr, hob, hd, hopen]
  have hbr : (x.hub.room r).isBroadcast = true ↔ (w.hub.room r).mode ≠ .solo := by
    simp [Room.isBroadcast, hxhub, hhub, Hub.withoutMember_mode]
  rw [hlast]
  by_cases hm : (w.hub.room r).mode = .solo
  · rw [if_neg fun hb => hbr.1 hb hm, hxview]
    simp [hm]
  · rw [if_pos (hbr.2 hm), hleft, hxview]
    by_cases hs : s = r <;> simp [hs, hm]

theorem streams_withdrawn (hd : d ≠ c) (hds : d ∈ (w.hub.room s).clients) (k : Kind) :
    ((w.withdrawn ord r c).view d).streams u k =
      if s = r ∧ u = c ∧ k ∈ ((w.hub.client c).streams.range (ord.streams c)).map Prod.fst then none
      else (w.view d).streams u k := by
  obtain ⟨-, hfold⟩ := foldl_setStream c ((w.hub.client c).streams.range (ord.streams c)) (w.view d)
  rw [view_withdrawn hw hc hd hds]
  by_cases hs : s = r
  · rw [if_pos hs]
    split_ifs with h1 h2 h2
    · rw [View.setPeer_streams, hfold, if_pos h2.2]
    · rw [View.setPeer_streams, hfold, if_neg fun h3 => h2 ⟨hs, h3⟩]
    · rw [hfold, if_pos h2.2]
    · rw [hfold, if_neg fun h3 => h2 ⟨hs, h3⟩]
  · rw [if_neg hs, if_neg fun h3 => hs h3.1]

theorem peers_withdrawn (hd : d ≠ c) (hds : d ∈ (w.hub.room s).clients)
    (hdb : w.hub.isObserver d = false) (hm : (w.hub.room s).mode ≠ .solo) :
    ((w.withdrawn ord r c).view d).peers u =
      if s = r ∧ u = c then none else (w.view d).peers u := by
  obtain ⟨hfold, -⟩ := foldl_setStream c ((w.hub.client c).streams.range (ord.streams c)) (w.view d)
  rw [view_withdrawn hw hc hd hds]
  by_cases hs : s = r
  · rw [if_pos hs, if_pos ⟨hs ▸ hm, hdb⟩, View.setPeer_peers, hfold]
    simp [hs]
  · rw [if_neg hs, if_neg fun h3 => hs h3.1]

theorem mem_members_withoutMember : u ∈ (w.hub.withoutMember r c).members s ↔
    u ≠ c ∧ u ∈ w.hub.members s := by
  rw [Hub.mem_members, Hub.mem_members, Hub.mem_withoutMember s c u hw hc,
    Hub.withoutMember_isObserver, and_assoc]

theorem othersStreams_withoutMember (k : Kind) : (w.hub.withoutMember r c).othersStreams s d u k =
    if u = c then none else w.hub.othersStreams s d u k := by
  unfold Hub.othersStreams
  simp only [mem_members_withoutMember hw hc, Hub.withoutMember_client]
  by_cases hu : u = c <;> simp [hu]

theorem othersCards_withoutMember : (w.hub.withoutMember r c).othersCards s d u =
    if u = c then none else w.hub.othersCards s d u := by
  unfold Hub.othersCards
  simp only [mem_members_withoutMember hw hc, Hub.withoutMember_client]
  by_cases hu : u = c <;> simp [hu]

/-- Nobody in another room knew of the member. -/
theorem unknown_elsewhere (hs : s ≠ r) :
    (∀ k, w.hub.othersStreams s d c k = none) ∧ w.hub.othersCards s d c = none := by
  have hno : c ∉ w.hub.members s := fun hcs => hs (hw.unique (Hub.mem_members.1 hcs).1 hc)
  simp [Hub.othersStreams, Hub.othersCards, hno]

/-- The other members see a member leave with its streams. -/
theorem World.ViewsAgree.withdrawn (h : w.ViewsAgree) : (w.withdrawn ord r c).ViewsAgree := by
  intro s d hd
  rw [withdrawn_hub, Hub.mem_withoutMember s c d hw hc] at hd
  obtain ⟨hdc, hds⟩ := hd
  have hold := h s d hds
  refine ⟨fun u k => ?_, fun hdb hm u => ?_⟩
  · rw [streams_withdrawn hw hc hdc hds, hold.streams, withdrawn_hub,
      othersStreams_withoutMember hw hc]
    by_cases hu : u = c
    · rw [if_pos hu, hu]
      split_ifs with h1
      · rfl
      · by_cases hs : s = r
        · -- the kind carried no stream
          have hk : (w.hub.client c).streams.lookup k = none := by
            by_contra hne
            obtain ⟨x, hx⟩ := Option.ne_none_iff_exists'.1 hne
            exact h1 ⟨hs, rfl, List.mem_map.2 ⟨(k, x), GoMap.mem_range.2 hx, rfl⟩⟩
          simp [Hub.othersStreams, hk]
        · exact (unknown_elsewhere hw hc hs).1 k
    · rw [if_neg hu, if_neg fun h3 => hu h3.2.1]
  · rw [withdrawn_hub, Hub.withoutMember_isObserver] at hdb
    rw [withdrawn_hub, Hub.withoutMember_mode] at hm
    rw [peers_withdrawn hw hc hdc hds hdb hm, hold.peers hdb hm, withdrawn_hub,
      othersCards_withoutMember hw hc]
    by_cases hu : u = c
    · rw [if_pos hu, hu]
      split_ifs with h1
      · rfl
      · exact (unknown_elsewhere hw hc fun hs => h1 ⟨hs, rfl⟩).2
    · rw [if_neg hu, if_neg fun h3 => hu h3.2]

end Withdrawn

theorem cleanup_viewsAgree (h : w.ViewsAgree) (hw : w.hub.WellFormed) (hc : w.serving c = true) :
    (w.cleanup ord c).ViewsAgree := by
  cases hr : (w.hub.client c).room with
  | none =>
    rw [cleanup_outside hc hr]
    refine h.congr (fun s => ?_) fun _ => rfl
    rw [setClient_hub]
    exact .setClient_outside (hw.not_member_of_room hr s) _
  | some r =>
    obtain ⟨v, ha, -, heq⟩ := cleanup_member ord hw hc hr
    have h1 : (w.withdrawn ord r c).ViewsAgree :=
      h.withdrawn hw (hw.present c r hr (serving_iff.1 hc).2)
    have h2 : v.ViewsAgree := h1.congr (fun s => .aside ha.hub s) ha.view
    have h3 : (v.removeRoomIfEmpty r).ViewsAgree :=
      h2.congr (fun s => .removeRoomIfEmpty v.hub r s) fun _ => rfl
    rw [heq]
    exact h3.emit (by simp)

/-- An observer is told what there is and nobody is told of it. -/
theorem observing_viewsAgree (h : w.ViewsAgree) (hw : w.hub.WellFormed) {u : UserID}
    (hu : u ∉ w.hub.used) (username : String) : (w.observing ord u username r).ViewsAgree := by
  have hout : ∀ s, u ∉ (w.hub.room s).clients :=
    hw.not_member_of_room (by rw [hw.unborn u hu])
  set x := Hub.observerClient u username with hx
  have h1 : (w.setHub (w.hub.allocate u x)).ViewsAgree :=
    h.congr (fun s => .allocate (hout s) x) fun _ => rfl
  have hnew : (w.setHub (w.hub.allocate u x)).hub.client u = x := Function.update_self _ _ _
  have hob : (w.setHub (w.hub.allocate u x)).hub.isObserver u = true := by
    rw [Hub.isObserver, hnew]; rfl
  have hopen : ((w.hub.withObserver u username r).client u).closed = false := by
    rw [Hub.withObserver, Hub.setClient_same]
    exact congrArg Client.closed hnew
  have hview : ∀ d, (w.observing ord u username r).view d =
      if u = d then View.snapshot ((w.hub.withObserver u username r).snapshotPeers ord r u)
      else w.view d := by
    intro d
    unfold World.observing
    rw [view_send]
    refine if_congr ?_ rfl (view_emit (by simp) d)
    exact ⟨fun hd => hd.1, fun hd => ⟨hd, hopen⟩⟩
  refine h1.entered ord hout ?_ rfl rfl rfl (observing_hub ord u username r) ?_ ?_
  · rw [hnew]; rfl
  · rw [hview, if_pos rfl, observing_hub]
  · intro s d hd _
    rw [hview, if_neg (Ne.symm hd), if_neg fun hno => by rw [hno.1] at hob; cases hob]
    rfl

end Agree

theorem Turn.viewsAgree {w w' : World} {i : Input} {a : Act} (hw : w.Sound) (h : w.ViewsAgree)
    (ht : Turn w i a w') : w'.ViewsAgree := by
  cases ht with
  | quiet hq => exact h.quiet hq
  | @connected c hop hc =>
    refine h.congr (fun s => .allocate (hw.hub.not_member_of_room ?_ s) _) fun _ => rfl
    rw [hw.hub.unborn c hc]
  | @served c e a v w' hop hc hv hq =>
    obtain ⟨hconn, hopen⟩ := serving_iff.1 hc
    have h1 : (w.emit [.received c e.body]).ViewsAgree := h.emit (by simp)
    have hw' : (w.emit [.received c e.body]).hub.WellFormed := hw.hub
    exact (hv.viewsAgree h1 hw' (hw.hub.used_of_hasConn hconn) hopen
      fun _ => hw.hub.business hconn).quiet hq
  | departed hop hc => exact cleanup_viewsAgree h hw.hub hc
  | @called n hop =>
    unfold runGoroutine
    split
    · exact h.noted [.called _ _] rfl rfl (by simp)
    · exact h
  | @observed u k reqID username mode p r w' hop hu hl hgate hw' =>
    rw [hw']
    have h1 : (w.observing i.env.order u username r).ViewsAgree :=
      observing_viewsAgree h hw.hub hu username
    exact h1.noted [.statsChanged] rfl rfl (by simp)
  | watched ho hv hq =>
    exact (hv.viewsAgree h hw.hub (hw.hub.used_of_observer ho) (hw.hub.watching _ ho)
      fun hne => absurd rfl hne).quiet hq
  | unobserved ha hq =>
    have h1 := h.congr (fun s => .aside ha.hub s) ha.view
    exact h1.quiet hq

/-- Whatever happened, what a participant was told is what the server holds: of every
other member's streams, and of the other members of a meeting or a call. -/
theorem views_agree (token : String) (is : List Input) : ((server token).run is).ViewsAgree := by
  have h : ((server token).run is).Sound ∧ ((server token).run is).ViewsAgree := by
    refine Machine.run_invariant (P := fun w : World => w.Sound ∧ w.ViewsAgree) ?_ ?_ is
    · exact ⟨server_sound token [], fun r c hc => absurd hc List.not_mem_nil⟩
    · intro w i hw
      have ht := step_turn (i := i) hw.1
      exact ⟨ht.sound hw.1, ht.viewsAgree hw.1 hw.2⟩
  exact h.2

end Meetkit
