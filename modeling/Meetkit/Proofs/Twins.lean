import Meetkit.Proofs.Turn

/-! Two servers that business clients cannot tell apart: one with observers, its
twin without. The queries of the hub answer the same for both, and the operations
of a business client keep them twins. -/

namespace Meetkit

open World

def trace (c : UserID) (log : List Event) : List Event := log.filter fun e => e.owner = some c

theorem trace_append (c : UserID) (log es : List Event) :
    trace c (log ++ es) = trace c log ++ trace c es := List.filter_append ..

/-- `h'` is `h` without its observers, who hold no streams. -/
structure Hub.Twin (h h' : Hub) : Prop where
  token : h'.token = h.token
  rooms : h'.rooms = h.rooms
  nextRoom : h'.nextRoom = h.nextRoom
  id : ∀ r, (h'.room r).id = (h.room r).id
  mode : ∀ r, (h'.room r).mode = (h.room r).mode
  clients : ∀ r, (h'.room r).clients = h.members r
  client : ∀ c, h.isObserver c = false → h'.client c = h.client c
  unborn : ∀ c, h.isObserver c = true → h'.client c = {}
  silent : ∀ c, h.isObserver c = true → (h.client c).streams = ∅
  used : ∀ c, h.isObserver c = false → (c ∈ h'.used ↔ c ∈ h.used)

namespace Hub.Twin

variable {h h' : Hub} {r : RoomRef} {c : UserID}

theorem isObserver (ht : Twin h h') (c : UserID) : h'.isObserver c = false := by
  cases hc : h.isObserver c with
  | true => rw [Hub.isObserver, ht.unborn c hc]
  | false => rw [Hub.isObserver, ht.client c hc]; exact hc

theorem members (ht : Twin h h') (r : RoomRef) : h'.members r = h.members r := by
  rw [Hub.members, ht.clients]
  exact List.filter_eq_self.2 fun c _ => by rw [ht.isObserver]; rfl

theorem mem (ht : Twin h h') (hc : h.isObserver c = false) :
    c ∈ (h'.room r).clients ↔ c ∈ (h.room r).clients := by
  rw [ht.clients, mem_members]
  exact and_iff_left hc

/-- A loop over a room that skips observers takes the same course. -/
theorem loop (ht : Twin h h') (ord : MapOrder) (r : RoomRef) (p : UserID → Bool) :
    (h'.clientsOf ord r).filter (fun c => p c && !h'.isObserver c) =
      (h.clientsOf ord r).filter fun c => p c && !h.isObserver c := by
  have hall : (fun c => p c && !h'.isObserver c) = p := by
    funext c
    rw [ht.isObserver]
    simp
  rw [hall, clientsOf, clientsOf, ht.clients, Hub.members, ← filter_rangeBy, List.filter_filter]

theorem any_members (h : Hub) (r : RoomRef) (p : UserID → Bool) :
    (h.room r).clients.any (fun c => !h.isObserver c && p c) = (h.members r).any p := by
  rw [Hub.members, List.any_filter]

/-- A search of a room that passes observers over finds the same. -/
theorem any_eq (ht : Twin h h') (r : RoomRef) {p p' : UserID → Bool}
    (hp : ∀ c, h.isObserver c = false → p' c = p c) :
    (h'.room r).clients.any (fun c => !h'.isObserver c && p' c) =
      (h.room r).clients.any fun c => !h.isObserver c && p c := by
  rw [any_members, any_members, ht.members]
  rw [Bool.eq_iff_iff]
  simp only [List.any_eq_true, mem_members]
  constructor
  · rintro ⟨c, ⟨hc, hb⟩, hpc⟩; exact ⟨c, ⟨hc, hb⟩, hp c hb ▸ hpc⟩
  · rintro ⟨c, ⟨hc, hb⟩, hpc⟩; exact ⟨c, ⟨hc, hb⟩, (hp c hb).symm ▸ hpc⟩

theorem validateToken (ht : Twin h h') (token : String) :
    h'.validateToken token = h.validateToken token := by
  simp only [Hub.validateToken, ht.token]

theorem admission (ht : Twin h h') (hc : h.isObserver c = false) (r : RoomRef) (mode : RoomMode) :
    h'.admission r c mode = h.admission r c mode := by
  have hcap : (h'.room r).capacity = (h.room r).capacity := by
    simp only [Room.capacity, ht.mode]
  have hpush : h'.hasPushMember r = h.hasPushMember r :=
    ht.any_eq r fun d hd => by rw [ht.client d hd]
  have hname : (h'.room r).clients.any (fun d => !h'.isObserver d &&
      decide ((h'.client d).nickname = (h.client c).nickname)) = (h.room r).clients.any fun d =>
        !h.isObserver d && decide ((h.client d).nickname = (h.client c).nickname) :=
    ht.any_eq r fun d hd => by rw [ht.client d hd]
  have hcount : h'.realMemberCount r = h.realMemberCount r := by
    simp only [Hub.realMemberCount, ht.members]
  unfold Hub.admission
  rw [ht.mode, ht.client c hc, hname]
  simp only [hcap, hpush, hcount]

theorem snapshotPeers (ht : Twin h h') (ord : MapOrder) (r : RoomRef) (c : UserID) :
    h'.snapshotPeers ord r c = h.snapshotPeers ord r c := by
  have hloop := ht.loop ord r fun d => decide (d ≠ c)
  unfold Hub.snapshotPeers
  rw [hloop]
  refine List.map_congr_left fun d hd => ?_
  have hb : h.isObserver d = false := by
    have := (List.mem_filter.1 hd).2
    simp only [Bool.and_eq_true, Bool.not_eq_true'] at this
    exact this.2
  simp only [Hub.peerInfo, ht.client d hb]

theorem hasStreamID (ht : Twin h h') (r : RoomRef) (stream : StreamID) :
    h'.hasStreamID r stream = h.hasStreamID r stream := by
  rw [Bool.eq_iff_iff]
  simp only [Hub.hasStreamID, List.any_eq_true, ht.clients, mem_members]
  constructor
  · rintro ⟨c, ⟨hc, hb⟩, e, he⟩
    exact ⟨c, hc, e, ht.client c hb ▸ he⟩
  · rintro ⟨c, hc, e, he⟩
    cases hb : h.isObserver c with
    | true => rw [ht.silent c hb] at he; exact absurd he.1 List.not_mem_nil
    | false => exact ⟨c, ⟨hc, hb⟩, e, (ht.client c hb).symm ▸ he⟩

theorem targetStreamID (ht : Twin h h') (r : RoomRef) (u : UserID) (kind : Kind) :
    h'.targetStreamID r u kind = h.targetStreamID r u kind := by
  unfold Hub.targetStreamID
  cases hb : h.isObserver u with
  | false => simp only [ht.mem hb, ht.client u hb]
  | true =>
    have hno : u ∉ (h'.room r).clients := by rw [ht.clients]; simp [hb]
    rw [if_neg hno, ht.silent u hb]
    split_ifs <;> rfl

theorem isBusinessActive (ht : Twin h h') (r : RoomRef) :
    h'.isBusinessActive r = h.isBusinessActive r := by
  have hany : (h.members r).any (fun c => (h'.client c).soloRole ≠ some .play) =
      (h.members r).any fun c => (h.client c).soloRole ≠ some .play := by
    rw [Bool.eq_iff_iff]
    simp only [List.any_eq_true]
    refine exists_congr fun c => and_congr_right fun hc => ?_
    rw [ht.client c (mem_members.1 hc).2]
  simp only [Hub.isBusinessActive, ht.members, ht.mode, hany]

/-! ### Changes of a business client -/

theorem setClient (ht : Twin h h') (hc : h.isObserver c = false) {f : Client → Client}
    (hf : (f (h.client c)).isObserver = (h.client c).isObserver) :
    Twin (h.setClient c f) (h'.setClient c f) where
  token := ht.token
  rooms := ht.rooms
  nextRoom := ht.nextRoom
  id := ht.id
  mode := ht.mode
  clients r := by
    rw [setClient_room, ht.clients]
    simp only [Hub.members, setClient_room, isObserver_setClient hf]
  client d hd := by
    rw [isObserver_setClient hf] at hd
    rw [setClient_client, setClient_client, ht.client c hc, ht.client d hd]
  unborn d hd := by
    rw [isObserver_setClient hf] at hd
    rw [setClient_ne, ht.unborn d hd]
    rintro rfl
    rw [hc] at hd
    cases hd
  silent d hd := by
    rw [isObserver_setClient hf] at hd
    rw [setClient_ne, ht.silent d hd]
    rintro rfl
    rw [hc] at hd
    cases hd
  used d hd := ht.used d ((isObserver_setClient hf d).symm.trans hd)

theorem isObserver_allocate {x : Client} (hc : h.isObserver c = false) (hx : x.isObserver = false)
    (d : UserID) : (h.allocate c x).isObserver d = h.isObserver d := by
  simp only [Hub.isObserver, Hub.allocate, Function.update_apply]
  split_ifs with hd
  · subst hd; exact hx.trans hc.symm
  · rfl

theorem allocate (ht : Twin h h') (hc : h.isObserver c = false) {x : Client}
    (hx : x.isObserver = false) : Twin (h.allocate c x) (h'.allocate c x) where
  token := ht.token
  rooms := ht.rooms
  nextRoom := ht.nextRoom
  id := ht.id
  mode := ht.mode
  clients r := by
    simp only [Hub.members, isObserver_allocate hc hx]
    exact ht.clients r
  client d hd := by
    rw [isObserver_allocate hc hx] at hd
    simp only [Hub.allocate, Function.update_apply, ht.client d hd]
  unborn d hd := by
    rw [isObserver_allocate hc hx] at hd
    have hne : d ≠ c := by rintro rfl; rw [hc] at hd; cases hd
    exact (Function.update_of_ne hne _ _).trans (ht.unborn d hd)
  silent d hd := by
    rw [isObserver_allocate hc hx] at hd
    have hne : d ≠ c := by rintro rfl; rw [hc] at hd; cases hd
    have hold : (h.allocate c x).client d = h.client d := Function.update_of_ne hne _ _
    rw [hold]
    exact ht.silent d hd
  used d hd := by
    rw [isObserver_allocate hc hx] at hd
    simp only [Hub.allocate, List.mem_cons, ht.used d hd]

/-- The room `r` changes the same way for its members on both sides. -/
theorem setRoom (ht : Twin h h') {f : Room → Room} (hid : ∀ x, (f x).id = x.id)
    (hmode : ∀ x, (f x).mode = x.mode)
    (hclients : (f (h'.room r)).clients =
      (f (h.room r)).clients.filter fun c => !h.isObserver c) :
    Twin (h.setRoom r f) (h'.setRoom r f) where
  token := ht.token
  rooms := ht.rooms
  nextRoom := ht.nextRoom
  id s := by
    rw [setRoom_room, setRoom_room]
    split_ifs
    · rw [hid, hid, ht.id]
    · exact ht.id s
  mode s := by
    rw [setRoom_room, setRoom_room]
    split_ifs
    · rw [hmode, hmode, ht.mode]
    · exact ht.mode s
  clients s := by
    simp only [Hub.members, setRoom_room]
    split_ifs
    · exact hclients
    · exact ht.clients s
  client := ht.client
  unborn := ht.unborn
  silent := ht.silent
  used := ht.used

theorem addTo (ht : Twin h h') (hc : h.isObserver c = false) (r : RoomRef) :
    Twin (h.addTo r c) (h'.addTo r c) := by
  refine ht.setRoom (fun _ => rfl) (fun _ => rfl) ?_
  simp only [Room.add, ht.clients]
  by_cases hmem : c ∈ (h.room r).clients
  · rw [List.insert_of_mem (mem_members.2 ⟨hmem, hc⟩), List.insert_of_mem hmem]; rfl
  · rw [List.insert_of_not_mem fun hm => hmem (mem_members.1 hm).1, List.insert_of_not_mem hmem,
      List.filter_cons_of_pos (by simp [hc])]
    rfl

theorem removeFrom (ht : Twin h h') (r : RoomRef) (c : UserID) :
    Twin (h.removeFrom r c) (h'.removeFrom r c) := by
  refine ht.setRoom (fun _ => rfl) (fun _ => rfl) ?_
  simp only [Room.remove, ht.clients]
  rw [(members_nodup h r).erase_eq_filter, (h.room r).nodup.erase_eq_filter, Hub.members,
    List.filter_filter, List.filter_filter]
  exact List.filter_congr fun d _ => Bool.and_comm _ _

theorem getOrCreateRoom (ht : Twin h h') (id : RoomID) (mode : RoomMode) :
    (h'.getOrCreateRoom id mode).2 = (h.getOrCreateRoom id mode).2 ∧
      Twin (h.getOrCreateRoom id mode).1 (h'.getOrCreateRoom id mode).1 := by
  unfold Hub.getOrCreateRoom
  rw [ht.rooms, ht.nextRoom]
  cases h.rooms.lookup id with
  | some r => exact ⟨rfl, ht⟩
  | none =>
    refine ⟨rfl, ht.token, rfl, rfl, fun s => ?_, fun s => ?_, fun s => ?_, ht.client, ht.unborn,
      ht.silent, ht.used⟩
    · simp only [Function.update_apply]
      split_ifs
      · rfl
      · exact ht.id s
    · simp only [Function.update_apply]
      split_ifs
      · rfl
      · exact ht.mode s
    · simp only [Hub.members, Function.update_apply]
      split_ifs
      · rfl
      · exact ht.clients s

theorem removeRoomIfEmpty (ht : Twin h h') (hwatched : h.members r = [] → (h.room r).clients = []) :
    Twin (h.removeRoomIfEmpty r) (h'.removeRoomIfEmpty r) := by
  have hiff : (h'.room r).clients = [] ↔ (h.room r).clients = [] := by
    rw [ht.clients]
    refine ⟨hwatched, fun hnil => ?_⟩
    rw [Hub.members, hnil]; rfl
  unfold Hub.removeRoomIfEmpty
  simp only [hiff]
  split_ifs
  · rw [ht.rooms, ht.id]
    exact ⟨ht.token, rfl, ht.nextRoom, ht.id, ht.mode, ht.clients, ht.client, ht.unborn, ht.silent,
      ht.used⟩
  · exact ht

end Hub.Twin

/-- Two worlds that agree on everything but the observers. -/
structure World.Twin (w w' : World) : Prop where
  hub : Hub.Twin w.hub w'.hub
  goroutines : w'.goroutines = w.goroutines
  trace : ∀ c, w.hub.isObserver c = false → trace c w'.log = trace c w.log

namespace World.Twin

variable {w w' : World} {r : RoomRef} {c : UserID} {ord : MapOrder}

theorem emit (ht : Twin w w') (es : List Event) : Twin (w.emit es) (w'.emit es) where
  hub := ht.hub
  goroutines := ht.goroutines
  trace d hd := by
    simp only [emit_log, trace_append, ht.trace d hd]

theorem setHub (ht : Twin w w') {h h' : Hub} (hh : Hub.Twin h h')
    (hob : ∀ c, h.isObserver c = w.hub.isObserver c) : Twin (w.setHub h) (w'.setHub h') where
  hub := hh
  goroutines := ht.goroutines
  trace d hd := ht.trace d ((hob d).symm.trans hd)

theorem setClient (ht : Twin w w') (hc : w.hub.isObserver c = false) {f : Client → Client}
    (hf : (f (w.hub.client c)).isObserver = (w.hub.client c).isObserver) :
    Twin (w.setClient c f) (w'.setClient c f) :=
  ht.setHub (ht.hub.setClient hc hf) fun d => Hub.isObserver_setClient hf d

theorem send (ht : Twin w w') (hc : w.hub.isObserver c = false) (q : String) (m : ServerMsg) :
    Twin (w.send c q m) (w'.send c q m) := by
  unfold World.send
  rw [ht.hub.client c hc]
  split_ifs
  · exact ht
  · exact ht.emit _

/-- A message reaches the same business clients on both sides. -/
theorem sendAll (ht : Twin w w') {ids ids' : List UserID} (hids : ids.Nodup) (hids' : ids'.Nodup)
    (hmem : ∀ c, w.hub.isObserver c = false → (c ∈ ids' ↔ c ∈ ids)) (m : ServerMsg) :
    Twin (w.sendAll ids m) (w'.sendAll ids' m) where
  hub := ht.hub
  goroutines := ht.goroutines
  trace d hd := by
    have hone : ∀ l : List UserID, Meetkit.trace d (l.map fun c => .sent c "" m) =
        List.replicate (l.count d) (.sent d "" m) := by
      intro l
      have hmap : Meetkit.trace d (l.map fun c => .sent c "" m) =
          (l.filter fun c => c == d).map fun c => .sent c "" m := by
        rw [Meetkit.trace, List.filter_map]
        exact congrArg _ (List.filter_congr fun c _ => by simp [Event.owner]; rfl)
      rw [hmap, List.filter_beq, List.map_replicate]
    have hsame : d ∈ (ids'.filter fun c => !(w'.hub.client c).closed) ↔
        d ∈ ids.filter fun c => !(w.hub.client c).closed := by
      simp only [List.mem_filter, hmem d hd, ht.hub.client d hd]
    simp only [World.sendAll, emit_log, trace_append, ht.trace d hd, hone]
    by_cases hmem' : d ∈ ids.filter fun c => !(w.hub.client c).closed
    · rw [List.count_eq_one_of_mem (hids.filter _) hmem',
        List.count_eq_one_of_mem (hids'.filter _) (hsame.2 hmem')]
    · rw [List.count_eq_zero.2 hmem', List.count_eq_zero.2 fun h => hmem' (hsame.1 h)]

/-- A broadcast that skips observers. -/
theorem sendMembers (ht : Twin w w') (ord : MapOrder) (r : RoomRef) (p : UserID → Bool)
    (m : ServerMsg) :
    Twin (w.sendAll ((w.hub.clientsOf ord r).filter fun c => p c && !w.hub.isObserver c) m)
      (w'.sendAll ((w'.hub.clientsOf ord r).filter fun c => p c && !w'.hub.isObserver c) m) := by
  refine ht.sendAll ((Hub.clientsOf_nodup _ _ _).filter _) ((Hub.clientsOf_nodup _ _ _).filter _)
    (fun c _ => ?_) m
  rw [ht.hub.loop]

theorem broadcastExcept (ht : Twin w w') (ord : MapOrder) (r : RoomRef) (c : UserID)
    (m : ServerMsg) : Twin (w.broadcastExcept ord r c m) (w'.broadcastExcept ord r c m) :=
  ht.sendMembers ord r (fun d => decide (d ≠ c)) m

theorem broadcastChat (ht : Twin w w') (hc : w.hub.isObserver c = false) (env : Env) (r : RoomRef)
    (text : String) : Twin (w.broadcastChat env r c text) (w'.broadcastChat env r c text) := by
  have h := ht.sendMembers env.order r (fun _ => true)
    (.chat { sender := c, nickname := (w.hub.client c).nickname, text, ts := env.now })
  simp only [Bool.true_and] at h
  unfold World.broadcastChat
  rw [ht.hub.client c hc]
  exact h

theorem broadcastToAllExcept (ht : Twin w w') (ord : MapOrder) (r : RoomRef) (c : UserID)
    (m : ServerMsg) : Twin (w.broadcastToAllExcept ord r c m) (w'.broadcastToAllExcept ord r c m) := by
  refine ht.sendAll ((Hub.clientsOf_nodup _ _ _).filter _) ((Hub.clientsOf_nodup _ _ _).filter _)
    (fun d hd => ?_) m
  simp only [List.mem_filter, Hub.mem_clientsOf, ht.hub.mem hd]

theorem broadcastMediaState (ht : Twin w w') (hc : w.hub.isObserver c = false) (ord : MapOrder)
    (r : RoomRef) : Twin (w.broadcastMediaState ord r c) (w'.broadcastMediaState ord r c) := by
  unfold World.broadcastMediaState Room.isBroadcast
  rw [ht.hub.mode, ht.hub.client c hc]
  split_ifs
  · exact ht.broadcastExcept ord r c _
  · exact ht

theorem broadcastRecordState (ht : Twin w w') (ord : MapOrder) (r : RoomRef) (c : UserID)
    (kind : Kind) (stream : StreamID) (recording : Bool) :
    Twin (w.broadcastRecordState ord r c kind stream recording)
      (w'.broadcastRecordState ord r c kind stream recording) := by
  unfold World.broadcastRecordState Room.isBroadcast
  rw [ht.hub.mode]
  split_ifs
  · exact ht.broadcastExcept ord r c _
  · exact ht

theorem spawn (ht : Twin w w') (c : UserID) (calls : List ZlmCall) :
    Twin (w.spawn c calls) (w'.spawn c calls) where
  hub := ht.hub
  goroutines := by
    rw [World.spawn, World.spawn, ht.goroutines]
  trace := (ht.emit [.spawned c calls]).trace

theorem startStream (ht : Twin w w') (hc : w.hub.isObserver c = false) (ord : MapOrder) (r : RoomRef)
    (kind : Kind) (stream : StreamID) :
    Twin (w.startStream ord r c kind stream) (w'.startStream ord r c kind stream) :=
  (ht.setClient hc (by rfl)).broadcastToAllExcept ord r c _

theorem stopStream (ht : Twin w w') (ord : MapOrder) (r : RoomRef) (c : UserID)
    (kind : Kind) (stream : StreamID) :
    Twin (w.stopStream ord r c kind stream) (w'.stopStream ord r c kind stream) := by
  have h1 := (ht.broadcastToAllExcept ord r c (.peerStreamStopped ⟨c, kind, stream⟩)).emit
    [.statsChanged]
  have h2 := h1.spawn c [.closeStream (w.hub.room r).id stream]
  unfold World.stopStream
  dsimp only
  rw [notifyStatsChanged_hub, broadcastStreamStopped_hub, notifyStatsChanged_hub,
    broadcastStreamStopped_hub, ht.hub.id]
  exact h2

theorem announceJoin (ht : Twin w w') (hc : w.hub.isObserver c = false) (ord : MapOrder)
    (r : RoomRef) : Twin (w.announceJoin ord r c) (w'.announceJoin ord r c) := by
  unfold World.announceJoin Room.isBroadcast
  dsimp only
  have h1 : Twin (w.emit [.joined c (w.hub.room r).id]) (w'.emit [.joined c (w'.hub.room r).id]) := by
    rw [ht.hub.id]; exact ht.emit _
  have h2 := h1.send hc "" (.joined ⟨c, (w.hub.room r).id, w.hub.snapshotPeers ord r c⟩)
  rw [send_hub, send_hub, emit_hub, emit_hub, ht.hub.snapshotPeers, ht.hub.mode, ht.hub.client c hc,
    ht.hub.id]
  rw [ht.hub.id] at h2
  split_ifs
  · exact (h2.broadcastExcept ord r c _).emit _
  · exact h2.emit _

end World.Twin

end Meetkit
