import Mathlib.Data.List.Infix
import Mathlib.Logic.Function.Basic
import Meetkit.Lib.GoMap
import Meetkit.Lib.Machine
import Meetkit.Model.Message
import Meetkit.Model.WatchWall

/-! The observe sessions of the admin page. The tiles of a room share one connection,
kept in `roomSessions` with the number of tiles that use it. A session is an object that
`startTile` keeps hold of across its awaits, so sessions, connections and calls of
`startTile` are numbered. A step is an event handler or what runs when an await
resumes. -/

namespace Meetkit

abbrev SessionRef := ℕ

abbrev SigId := ℕ

abbrev StartId := ℕ

/-- A connection of `ensureRoomSession`, open until either side closes it. -/
structure ObserveSig where
  room : RoomID := ""
  isOpen : Bool := false

structure RoomSession where
  sig : SigId := 0
  refCount : ℕ := 0

/-- A peer connection is numbered when `play` returns it. -/
structure SessionTile where
  roomId : RoomID
  auditDetail : String
  pc : Option ℕ := none

/-- What a call of `startTile` awaits. -/
inductive StartPhase
  /-- `sig.connect()` in `ensureRoomSession`. -/
  | connecting
  /-- The answer to `observe-join`. -/
  | joining (sig : SigId)
  /-- `ensureRoomSession`, which has returned this session. -/
  | entering (session : SessionRef)
  /-- `opts.play` -/
  | playing
  deriving DecidableEq

structure TileStart where
  key : TileKey
  room : RoomID
  phase : StartPhase

/-- A room of the hub statistics; `business` is whether it has a `roomBizType`. -/
structure HubRoom where
  id : RoomID
  business : Bool
  /-- The user ids of the clients that are no observers. -/
  clients : List UserID

structure TileSessions where
  tiles : GoMap TileKey SessionTile := ∅
  roomSessions : GoMap RoomID SessionRef := ∅
  session : SessionRef → RoomSession := fun _ => {}
  sig : SigId → ObserveSig := fun _ => {}
  pcOpen : ℕ → Bool := fun _ => false
  start : StartId → Option TileStart := fun _ => none
  roomEndScheduled : RoomID → Bool := fun _ => false
  /-- The rooms of the timers of `scheduleRoomEnd` that have not fired. -/
  timers : List RoomID := []
  newSession : SessionRef := 0
  newSig : SigId := 0
  newPC : ℕ := 0
  newStart : StartId := 0

inductive WatchLabel
  | startTile (key : TileKey) (room : RoomID) (auditDetail : String)
  /-- `sig.connect()` resolves. -/
  | connected (id : StartId)
  | connectFailed (id : StartId)
  | observeJoined (id : StartId)
  /-- `observe-error`, `observe-ended`, the time limit, or a failed `send`. -/
  | joinFailed (id : StartId)
  /-- `ensureRoomSession` resolves. -/
  | entered (id : StartId)
  /-- `opts.play` resolves. -/
  | played (id : StartId)
  | playFailed (id : StartId)
  | stopTile (key : TileKey)
  | syncTilesWithHub (hub : List HubRoom)
  /-- `observe-ended` on the connection of a session. -/
  | observeEnded (session : SessionRef)
  /-- A connection breaks. -/
  | dropped (sig : SigId)
  /-- A timer of `scheduleRoomEnd` fires. -/
  | roomEnd (room : RoomID)
  | stopAllWatching

namespace TileSessions

def setStart (s : TileSessions) (id : StartId) (p : Option TileStart) : TileSessions :=
  { s with start := Function.update s.start id p }

def closeSig (s : TileSessions) (sig : SigId) : TileSessions :=
  { s with sig := Function.update s.sig sig { s.sig sig with isOpen := false } }

def setRefCount (s : TileSessions) (r : SessionRef) (n : ℕ) : TileSessions :=
  { s with session := Function.update s.session r { s.session r with refCount := n } }

def closePC (s : TileSessions) : Option ℕ → TileSessions
  | some pc => { s with pcOpen := Function.update s.pcOpen pc false }
  | none => s

def removeTileEntry (s : TileSessions) (key : TileKey) : TileSessions :=
  let s' := match s.tiles.lookup key with
    | some tile => s.closePC tile.pc
    | none => s
  { s' with tiles := s'.tiles.erase key }

def cleanupRoomSession (s : TileSessions) (room : RoomID) : TileSessions :=
  match s.roomSessions.lookup room with
  | none => s
  | some r =>
    { s.closeSig (s.session r).sig with roomSessions := s.roomSessions.erase room }

/-- A tile of the room gives its session back. -/
def release (s : TileSessions) (room : RoomID) : TileSessions :=
  match s.roomSessions.lookup room with
  | none => s
  | some r =>
    let s := s.setRefCount r ((s.session r).refCount - 1)
    if (s.session r).refCount = 0 ∧ s.roomEndScheduled room = false then s.cleanupRoomSession room
    else s

/-- `reportObserveStop` throws when the connection has broken. -/
def reportFails (s : TileSessions) (tile : SessionTile) : Bool :=
  tile.auditDetail ≠ "" &&
    (s.roomSessions.lookup tile.roomId).any fun r => !(s.sig (s.session r).sig).isOpen

/-- An error carries the state in which it is thrown. -/
def stopTile (s : TileSessions) (key : TileKey) : Except TileSessions TileSessions :=
  match s.tiles.lookup key with
  | none => .ok s
  | some tile =>
    if s.reportFails tile then .error s
    else .ok ((s.removeTileEntry key).release tile.roomId)

/-- The loops over `stopTile`, and what the page does once all tiles have been stopped. -/
def stopTiles (s : TileSessions) (keys : List TileKey) (andThen : TileSessions → TileSessions) :
    TileSessions :=
  match keys.foldlM stopTile s with
  | .ok s => andThen s
  | .error s => s

/-- The callers of `startTile` have looked the key up and found nothing. -/
def startTile (s : TileSessions) (key : TileKey) (room : RoomID) (auditDetail : String) :
    TileSessions :=
  if key ∈ s.tiles ∨ MAX_TILES ≤ s.tiles.keys.length then s
  else
    let phase := match s.roomSessions.lookup room with
      | some r => .entering r
      | none => .connecting
    { s with
      tiles := s.tiles.insert key { roomId := room, auditDetail }
      start := Function.update s.start s.newStart (some ⟨key, room, phase⟩)
      newStart := s.newStart + 1 }

def connected (s : TileSessions) (id : StartId) (p : TileStart) : TileSessions :=
  { s with
    sig := Function.update s.sig s.newSig { room := p.room, isOpen := true }
    newSig := s.newSig + 1 }.setStart id (some { p with phase := .joining s.newSig })

def observeJoined (s : TileSessions) (id : StartId) (p : TileStart) (sig : SigId) : TileSessions :=
  { s with
    session := Function.update s.session s.newSession { sig, refCount := 0 }
    roomSessions := s.roomSessions.insert p.room s.newSession
    newSession := s.newSession + 1 }.setStart id (some { p with phase := .entering s.newSession })

def entered (s : TileSessions) (id : StartId) (p : TileStart) (r : SessionRef) : TileSessions :=
  (s.setRefCount r ((s.session r).refCount + 1)).setStart id (some { p with phase := .playing })

def played (s : TileSessions) (id : StartId) (p : TileStart) : TileSessions :=
  { s with
    pcOpen := Function.update s.pcOpen s.newPC true
    tiles := s.tiles.modify p.key ({ · with pc := some s.newPC })
    newPC := s.newPC + 1 }.setStart id none

/-- The `catch` of `startTile`. -/
def startFailed (s : TileSessions) (id : StartId) (p : TileStart) : TileSessions :=
  let s := s.setStart id none
  match s.tiles.lookup p.key with
  | some tile =>
    if tile.roomId = "" then s.removeTileEntry p.key
    else (s.removeTileEntry p.key).release tile.roomId
  | none => s.removeTileEntry p.key

def scheduleRoomEnd (s : TileSessions) (room : RoomID) : TileSessions :=
  if s.roomEndScheduled room then s
  else
    { s with
      roomEndScheduled := Function.update s.roomEndScheduled room true
      timers := s.timers ++ [room] }

/-- The keys of the tiles that `p` holds of, in the order of the map. -/
def keysWhere (s : TileSessions) (p : TileKey → SessionTile → Bool) : List TileKey :=
  s.tiles.keys.reverse.filter fun key => (s.tiles.lookup key).any (p key)

/-- The listener of `wireRoomSessionEvents`. A closed connection gets no message. -/
def observeEnded (s : TileSessions) (r : SessionRef) : TileSessions :=
  let sig := s.sig (s.session r).sig
  if r < s.newSession ∧ sig.isOpen then s.scheduleRoomEnd sig.room else s

def roomEnd (s : TileSessions) (room : RoomID) : TileSessions :=
  if room ∈ s.timers then
    let s' := { s with roomEndScheduled := Function.update s.roomEndScheduled room false }
    let s' := s'.stopTiles (s'.keysWhere fun _ tile => tile.roomId = room)
      (cleanupRoomSession · room)
    { s' with timers := s'.timers.erase room }
  else s

/-- `roomsById.get(id)` -/
def hubRoom (hub : List HubRoom) (id : RoomID) : Option HubRoom := hub.reverse.find? (·.id = id)

def ended (hub : List HubRoom) (room : RoomID) : Bool :=
  !(hubRoom hub room).any (·.business)

/-- Whether `syncTilesWithHub` finds that the member of a tile has left its room. -/
def departed (hub : List HubRoom) (key : TileKey) (tile : SessionTile) : Bool :=
  let idAndColon := tile.roomId.toList ++ [':']
  let userId := (key.toList.drop idAndColon.length).takeWhile (· ≠ ':')
  !ended hub tile.roomId && !decide (":push:".toList <:+: key.toList) &&
    decide (idAndColon <+: key.toList) && userId ≠ [] &&
    (hubRoom hub tile.roomId).any fun room => !room.clients.any fun c => c.toList = userId

def syncTilesWithHub (s : TileSessions) (hub : List HubRoom) : TileSessions :=
  let endedRooms := (s.keysWhere fun _ tile => ended hub tile.roomId).filterMap fun key =>
    (s.tiles.lookup key).map (·.roomId)
  s.stopTiles (s.keysWhere (departed hub)) (endedRooms.foldl scheduleRoomEnd)

def stopAllWatching (s : TileSessions) : TileSessions :=
  let s := { s with roomEndScheduled := fun _ => false }
  s.stopTiles s.tiles.keys.reverse fun s =>
    s.roomSessions.keys.reverse.foldl cleanupRoomSession s

/-- A call of `startTile` goes on if it awaits what happens. -/
def resume (s : TileSessions) (id : StartId)
    (k : TileStart → StartPhase → Option TileSessions) : TileSessions :=
  ((s.start id).bind fun p => k p p.phase).getD s

def step (s : TileSessions) : WatchLabel → TileSessions
  | .startTile key room auditDetail => s.startTile key room auditDetail
  | .connected id => s.resume id fun p phase =>
      if phase = .connecting then some (s.connected id p) else none
  | .connectFailed id => s.resume id fun p phase =>
      if phase = .connecting then some (s.startFailed id p) else none
  | .observeJoined id => s.resume id fun p phase => match phase with
      | .joining sig => if (s.sig sig).isOpen then some (s.observeJoined id p sig) else none
      | _ => none
  | .joinFailed id => s.resume id fun p phase => match phase with
      | .joining _ => some (s.startFailed id p)
      | _ => none
  | .entered id => s.resume id fun p phase => match phase with
      | .entering r => some (s.entered id p r)
      | _ => none
  | .played id => s.resume id fun p phase =>
      if phase = .playing then some (s.played id p) else none
  | .playFailed id => s.resume id fun p phase =>
      if phase = .playing then some (s.startFailed id p) else none
  | .stopTile key => s.stopTiles [key] id
  | .syncTilesWithHub hub => s.syncTilesWithHub hub
  | .observeEnded r => s.observeEnded r
  | .dropped sig => s.closeSig sig
  | .roomEnd room => s.roomEnd room
  | .stopAllWatching => s.stopAllWatching

end TileSessions

def tileSessions : Machine TileSessions WatchLabel where
  init := {}
  step := TileSessions.step

end Meetkit
