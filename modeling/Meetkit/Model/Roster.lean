import Meetkit.Lib.Machine
import Meetkit.Lib.Reader
import Meetkit.Model.Room

/-! Members that enter and leave rooms, one step of `addClient` or `removeClient` at a
time, and the peers that a page makes of the messages queued for it. A broadcast is
one step: it holds the room's lock, so nobody enters or leaves meanwhile. What a
client's other handlers write to it comes from outside. -/

namespace Meetkit

/-- Where a client is. It joins once, and its departure follows on its own join. -/
inductive Stage
  | outside
  -- `addClient` after its critical section
  | snapshot (r : RoomRef)
  | joined (r : RoomRef) (peers : List PeerInfo)
  | peerJoined (r : RoomRef)
  | inside (r : RoomRef)
  /-- The critical section of `removeClient`. -/
  | delete (r : RoomRef)
  /-- Takes the client's streams. -/
  | collect (r : RoomRef)
  /-- Tells the room about the streams that are left, then about the client. -/
  | stopped (r : RoomRef) (entries : List (Kind × StreamID))
  | gone

structure Hall where
  hub : Hub := {}
  stage : UserID → Stage := fun _ => .outside
  /-- What is queued for a client, in the order it will read it. -/
  inbox : UserID → List ServerMsg := fun _ => []

inductive HallLabel
  /-- The fields of `c` become those of `x`. -/
  | write (c : UserID) (x : Client)
  /-- The critical section of `addClient`. -/
  | insert (c : UserID) (r : RoomRef) (mode : RoomMode)
  | run (c : UserID) (ord : MapOrder)
  /-- `cleanup` begins. -/
  | depart (c : UserID)

/-! ### The page -/

/-- The peers of a page after each message, as `wireSignalHandlers` keeps them. -/
def rosterReader : Reader ServerMsg (List UserID) where
  start := []
  next peers
    | .joined p => peers ∪ p.peers.map (·.userID)
    | .peerJoined p => peers.insert p.userID
    | .peerLeft u => peers.filter (· ≠ u)
    -- `ensurePeer`
    | .peerState p => peers.insert p.userID
    | .peerStreamStarted p => peers.insert p.userID
    | _ => peers

namespace Hall

def peers (s : Hall) (c : UserID) : List UserID := rosterReader.read (s.inbox c)

/-! ### The server -/

def setStage (s : Hall) (c : UserID) (next : Stage) : Hall :=
  { s with stage := Function.update s.stage c next }

/-- `c.send` on each of the clients, with queues that never fill. -/
def sendAll (s : Hall) (ids : List UserID) (m : ServerMsg) : Hall :=
  { s with inbox := fun d =>
      if d ∈ ids ∧ (s.hub.client d).closed = false then s.inbox d ++ [m] else s.inbox d }

def send (s : Hall) (c : UserID) (m : ServerMsg) : Hall := s.sendAll [c] m

def broadcastExcept (s : Hall) (ord : MapOrder) (r : RoomRef) (exceptID : UserID)
    (m : ServerMsg) : Hall :=
  s.sendAll ((s.hub.clientsOf ord r).filter fun c => c ≠ exceptID && !s.hub.isObserver c) m

def broadcastStreamStopped (s : Hall) (ord : MapOrder) (r : RoomRef) (c : UserID) (kind : Kind)
    (streamID : StreamID) : Hall :=
  s.sendAll ((s.hub.clientsOf ord r).filter fun d => d ≠ c) (.peerStreamStopped ⟨c, kind, streamID⟩)

/-- The next step of `c`'s `addClient` or `removeClient`. -/
def run (s : Hall) (c : UserID) (ord : MapOrder) : Hall :=
  match s.stage c with
  | .snapshot r => s.setStage c (.joined r (s.hub.snapshotPeers ord r c))
  | .joined r peers => (s.send c (.joined ⟨c, (s.hub.room r).id, peers⟩)).setStage c (.peerJoined r)
  | .peerJoined r =>
    let x := s.hub.client c
    (if (s.hub.room r).isBroadcast then
      s.broadcastExcept ord r c (.peerJoined ⟨c, x.nickname, x.micOn, x.camOn, x.clientPlatform⟩)
    else s).setStage c (.inside r)
  | .delete r =>
    if c ∉ (s.hub.room r).clients then s.setStage c .gone
    else { s with hub := s.hub.removeFrom r c }.setStage c (.collect r)
  | .collect r =>
    { s with hub := s.hub.setClient c fun x => { x with streams := ∅, recordings := ∅ } }.setStage c
      (.stopped r ((s.hub.client c).streams.range (ord.streams c)))
  | .stopped r (e :: entries) =>
    (s.broadcastStreamStopped ord r c e.1 e.2).setStage c (.stopped r entries)
  | .stopped r [] =>
    (if (s.hub.room r).isBroadcast then s.broadcastExcept ord r c (.peerLeft c) else s).setStage c .gone
  | .outside | .inside _ | .gone => s

def step (s : Hall) : HallLabel → Hall
  | .write c x =>
    { s with hub := s.hub.setClient c fun y => { x with isObserver := y.isObserver, closed := y.closed } }
  | .insert c r mode =>
    match s.stage c with
    | .outside =>
      match s.hub.admission r c mode with
      | some _ => s
      | none => { s with hub := s.hub.addTo r c }.setStage c (.snapshot r)
    | _ => s
  | .run c ord => s.run c ord
  | .depart c =>
    match s.stage c with
    | .inside r => { s with hub := s.hub.setClient c fun x => { x with closed := true } }.setStage c (.delete r)
    | _ => s

end Hall

/-- The members of the rooms that there are, all of them empty at first. -/
def hall (rooms : RoomRef → RoomID × RoomMode) : Machine Hall HallLabel where
  init := { hub := { room := fun r => { id := (rooms r).1, mode := (rooms r).2 } } }
  step := Hall.step

end Meetkit
