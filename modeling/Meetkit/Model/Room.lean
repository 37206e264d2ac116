import Meetkit.Model.World

/-! A room's queries, its admission checks, and the three ways its client map
changes: a member joins, an observer joins, a client is removed. -/

namespace Meetkit

namespace Hub

/-- Whether a solo publisher is already in the room. -/
def hasPushMember (h : Hub) (r : RoomRef) : Bool :=
  (h.room r).clients.any fun c => !h.isObserver c && (h.client c).soloRole = some .push

def realMemberCount (h : Hub) (r : RoomRef) : ℕ := (h.members r).length

/-- Whether any client in the room is publishing `streamID`. -/
def hasStreamID (h : Hub) (r : RoomRef) (streamID : StreamID) : Bool :=
  (h.room r).clients.any fun c => (h.client c).streams.entries.any fun e => e.2 = streamID

/-- The published stream of a user and kind, `""` when there is none. -/
def targetStreamID (h : Hub) (r : RoomRef) (userID : UserID) (kind : Kind) : StreamID :=
  if userID ∈ (h.room r).clients then ((h.client userID).streams.lookup kind).getD "" else ""

def clientNickname (h : Hub) (r : RoomRef) (userID : UserID) : String :=
  if userID ∉ (h.room r).clients ∨ (h.client userID).nickname = "" then userID
  else (h.client userID).nickname

def streamOwnerNickname (h : Hub) (ord : MapOrder) (r : RoomRef) (streamID : StreamID) : String :=
  match (h.clientsOf ord r).find? fun c =>
      !h.isObserver c && (h.client c).streams.entries.any fun e => e.2 = streamID with
  | some c => if (h.client c).nickname = "" then c else (h.client c).nickname
  | none => ""

def peerInfo (h : Hub) (ord : MapOrder) (c : UserID) : PeerInfo where
  userID := c
  nickname := (h.client c).nickname
  micOn := (h.client c).micOn
  camOn := (h.client c).camOn
  clientPlatform := (h.client c).clientPlatform
  streams := ((h.client c).streams.range (ord.streams c)).map fun e => ⟨e.1, e.2⟩

/-- What a joiner is told about the members already there. -/
def snapshotPeers (h : Hub) (ord : MapOrder) (r : RoomRef) (excludeID : UserID) : List PeerInfo :=
  ((h.clientsOf ord r).filter fun c => c ≠ excludeID && !h.isObserver c).map (h.peerInfo ord)

/-- The checks of `addClient`, in their order. -/
def admission (h : Hub) (r : RoomRef) (c : UserID) (requestedMode : RoomMode) : Option Err :=
  if requestedMode ≠ (h.room r).mode then
    some (.text ("room mode mismatch (already " ++ (h.room r).mode.text ++ ")"))
  else if 0 < (h.room r).capacity ∧ (h.room r).capacity ≤ h.realMemberCount r then
    some (.text "room is full")
  else if (h.room r).mode = .solo ∧ (h.client c).soloRole = some .push ∧ h.hasPushMember r then
    some (.text errRoomInUse)
  else if (h.room r).clients.any fun d =>
      !h.isObserver d && (h.client d).nickname = (h.client c).nickname then
    some (.text (if (h.room r).mode = .solo then errMemberNameInUse else errUserInUse))
  else none

def addTo (h : Hub) (r : RoomRef) (c : UserID) : Hub := h.setRoom r (·.add c)

def removeFrom (h : Hub) (r : RoomRef) (c : UserID) : Hub := h.setRoom r (·.remove c)

section Updates

variable (h : Hub) (r t : RoomRef) (c : UserID)

theorem addTo_kept : ((h.addTo r c).room t).id = (h.room t).id ∧
    ((h.addTo r c).room t).mode = (h.room t).mode := by
  rw [addTo, setRoom_room]
  split_ifs with ht
  · subst ht; exact ⟨rfl, rfl⟩
  · exact ⟨rfl, rfl⟩

theorem removeFrom_kept : ((h.removeFrom r c).room t).id = (h.room t).id ∧
    ((h.removeFrom r c).room t).mode = (h.room t).mode := by
  rw [removeFrom, setRoom_room]
  split_ifs with ht
  · subst ht; exact ⟨rfl, rfl⟩
  · exact ⟨rfl, rfl⟩

variable {h r t c}

theorem mem_addTo {d : UserID} : d ∈ ((h.addTo r c).room t).clients ↔
    d ∈ (h.room t).clients ∨ t = r ∧ d = c := by
  rw [addTo, setRoom_room]
  split_ifs with ht
  · subst ht
    rw [Room.mem_add]
    simp [or_comm]
  · simp [ht]

theorem mem_members_addTo {d : UserID} : d ∈ (h.addTo r c).members t ↔
    d ∈ h.members t ∨ d = c ∧ t = r ∧ h.isObserver c = false := by
  have hiff : d ∈ (h.addTo r c).members t ↔
      d ∈ ((h.addTo r c).room t).clients ∧ h.isObserver d = false := mem_members
  rw [hiff, mem_members, mem_addTo]
  constructor
  · rintro ⟨hd | ⟨ht, rfl⟩, hbiz⟩
    · exact Or.inl ⟨hd, hbiz⟩
    · exact Or.inr ⟨rfl, ht, hbiz⟩
  · rintro (⟨hd, hbiz⟩ | ⟨rfl, ht, hbiz⟩)
    · exact ⟨Or.inl hd, hbiz⟩
    · exact ⟨Or.inr ⟨ht, rfl⟩, hbiz⟩

theorem mem_removeFrom {d : UserID} : d ∈ ((h.removeFrom r c).room t).clients ↔
    d ∈ (h.room t).clients ∧ ¬(t = r ∧ d = c) := by
  rw [removeFrom, setRoom_room]
  split_ifs with ht
  · subst ht
    rw [Room.mem_remove]
    simp [and_comm]
  · simp [ht]

end Updates

/-- Whether real business clients remain; a solo room also needs one that is
not a player. -/
def isBusinessActive (h : Hub) (r : RoomRef) : Bool :=
  if h.members r = [] then false
  else if (h.room r).mode = .solo then
    (h.members r).any fun c => (h.client c).soloRole ≠ some .play
  else true

end Hub

namespace World

def addTo (w : World) (r : RoomRef) (c : UserID) : World := w.setHub (w.hub.addTo r c)

def removeFrom (w : World) (r : RoomRef) (c : UserID) : World := w.setHub (w.hub.removeFrom r c)

/-- What `addClient` does once the client is in the map. -/
def announceJoin (w : World) (ord : MapOrder) (r : RoomRef) (c : UserID) : World :=
  let w := w.emit [.joined c (w.hub.room r).id]
  let w := w.send c "" (.joined ⟨c, (w.hub.room r).id, w.hub.snapshotPeers ord r c⟩)
  -- solo rooms are private, peers are not told
  let w :=
    if (w.hub.room r).isBroadcast then
      let x := w.hub.client c
      w.broadcastExcept ord r c
        (.peerJoined ⟨c, x.nickname, x.micOn, x.camOn, x.clientPlatform⟩)
    else w
  w.notifyStatsChanged

def addClient (w : World) (ord : MapOrder) (r : RoomRef) (c : UserID) (requestedMode : RoomMode) :
    World × Option Err :=
  match w.hub.admission r c requestedMode with
  | some e => (w, some e)
  | none => ((w.addTo r c).announceJoin ord r c, none)

/-- Observers are not announced and not counted. -/
def addObserverClient (w : World) (ord : MapOrder) (r : RoomRef) (c : UserID) :
    World × Option Err :=
  if !w.hub.isObserver c then (w, some (.text "not an observer client"))
  else
    let w := w.addTo r c
    let w := w.setClient c fun x => { x with room := some r }
    let w := w.emit [.joined c (w.hub.room r).id]
    let w := w.send c "" (.observeJoined ⟨c, (w.hub.room r).id, w.hub.snapshotPeers ord r c⟩)
    (w.notifyStatsChanged, none)

/-- `removeClient` for an observer: no announcement, nothing published. -/
def removeObserver (w : World) (r : RoomRef) (c : UserID) : World :=
  if c ∉ (w.hub.room r).clients then w
  else ((w.removeFrom r c).removeRoomIfEmpty r).notifyStatsChanged

/-- `LeaveRoom` of an observer. -/
def observerLeaveRoom (w : World) (c : UserID) : World :=
  match (w.hub.client c).room with
  | none => w
  | some r => (w.setClient c fun x => { x with room := none }).removeObserver r c

/-- Tells the observers of a room that it ended and takes them out. -/
def dismissObservers (w : World) (ord : MapOrder) (r : RoomRef) (message : String) : World :=
  ((w.hub.clientsOf ord r).filter fun c => w.hub.isObserver c).foldl
    (fun w c => (w.send c "" (.observeEnded message)).observerLeaveRoom c) w

/-- The streams a departing client still publishes, in the order of the loop
that collects them, and those of them it is recording. -/
def departingStreams (w : World) (ord : MapOrder) (c : UserID) : List (Kind × StreamID) :=
  (w.hub.client c).streams.range (ord.streams c)

def recordedStreams (w : World) (ord : MapOrder) (c : UserID) : List (Kind × StreamID) :=
  (w.departingStreams ord c).filter fun e => (w.hub.client c).recordings.lookup e.1 = some true

/-- The departure of a member after it left the map: its streams and recordings
are taken from it, the room is told, ZLM is told off the request path. -/
def withdraw (w : World) (ord : MapOrder) (r : RoomRef) (c : UserID) : World :=
  let entries := w.departingStreams ord c
  let recorded := w.recordedStreams ord c
  let app := (w.hub.room r).id
  let w := w.setClient c fun x => { x with streams := ∅, recordings := ∅ }
  let w := entries.foldl (fun w e => w.broadcastStreamStopped ord r c e.1 e.2) w
  let w := if (w.hub.room r).isBroadcast then w.broadcastExcept ord r c (.peerLeft c) else w
  let w := w.spawn c
    (recorded.map (fun e => .stopRecord app e.2) ++ entries.map fun e => .closeStream app e.2)
  w.emit [.departed c app]

/-- Removing an observer never removes further clients, so the observers a
departure dismisses go through `removeObserver`. -/
def removeClient (w : World) (ord : MapOrder) (r : RoomRef) (c : UserID) : World :=
  if w.hub.isObserver c then w.removeObserver r c
  else if c ∉ (w.hub.room r).clients then w
  else
    let w := (w.removeFrom r c).withdraw ord r c
    let w := if w.hub.isBusinessActive r then w else w.dismissObservers ord r "业务已结束"
    (w.removeRoomIfEmpty r).notifyStatsChanged

def leaveRoom (w : World) (ord : MapOrder) (c : UserID) : World :=
  match (w.hub.client c).room with
  | none => w
  | some r => (w.setClient c fun x => { x with room := none }).removeClient ord r c

end World

end Meetkit
