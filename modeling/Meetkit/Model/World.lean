import Meetkit.Model.State

/-! The hub together with the log of what it did: messages taken from and queued
for clients, calls to ZLM, goroutines started. The log only grows, and everything
a run is judged by is read from it. Goroutines that still have calls to make to
ZLM are kept beside it. -/

namespace Meetkit

inductive WebRTCType
  | push | play
  deriving DecidableEq, Repr

/-- A REST call to ZLM made off the request path. -/
inductive ZlmCall
  | stopRecord (app : RoomID) (stream : StreamID)
  | closeStream (app : RoomID) (stream : StreamID)
  deriving DecidableEq, Repr

abbrev ConnID := Nat

inductive Event
  /-- `c`'s readLoop took an envelope. -/
  | received (c : UserID) (body : Body)
  /-- What `dispatch` returned for it. -/
  | handled (c : UserID) (result : Option Err)
  /-- Queued for `c`, or handed to its deliver callback. -/
  | sent (c : UserID) (reqID : String) (m : ServerMsg)
  /-- The log line `join` of `addClient` or `observe-join` of `addObserverClient`. -/
  | joined (c : UserID) (app : RoomID)
  /-- `removeClient` has done its own part for `c`. -/
  | departed (c : UserID) (app : RoomID)
  | exchangedSDP (c : UserID) (type : WebRTCType) (app : RoomID) (stream : StreamID) (ok : Bool)
  /-- A successful push, registered in `c.streams`. -/
  | published (c : UserID) (app : RoomID) (kind : Kind) (stream : StreamID)
  | startedRecord (c : UserID) (app : RoomID) (kind : Kind) (stream : StreamID) (ok : Bool)
  | stoppedRecord (c : UserID) (app : RoomID) (kind : Kind) (stream : StreamID) (ok : Bool)
  /-- A goroutine was started on behalf of `c` with these calls to make. -/
  | spawned (c : UserID) (calls : List ZlmCall)
  /-- A goroutine started on behalf of `c` made a call. -/
  | called (c : UserID) (call : ZlmCall)
  | statsChanged
  | audited (user action room detail : String)
  /-- Written to an observe connection outside any room client. -/
  | pushed (k : ConnID) (type : String) (reqID : String) (e : Option Err)
  deriving DecidableEq

/-- The call to ZLM that a record message makes, and whether it succeeded. -/
def Event.recordCall (start : Bool) (c : UserID) (app : RoomID) (kind : Kind) (stream : StreamID)
    (ok : Bool) : Event :=
  if start then .startedRecord c app kind stream ok else .stoppedRecord c app kind stream ok

/-- The messages of one client, with the request ids they answer. -/
def inbox (c : UserID) (log : List Event) : List (String × ServerMsg) :=
  log.filterMap fun
    | .sent d q m => if d = c then some (q, m) else none
    | _ => none

theorem inbox_append (c : UserID) (log es : List Event) :
    inbox c (log ++ es) = inbox c log ++ inbox c es := List.filterMap_append

structure Goroutine where
  owner : UserID
  calls : List ZlmCall

/-- The admin connection of an observer. -/
structure ObserveConn where
  opened : Bool := false
  username : String := ""
  client : Option UserID := none
  roomID : RoomID := ""
  closed : Bool := false

structure World where
  hub : Hub := {}
  log : List Event := []
  goroutines : List Goroutine := []
  conn : ConnID → ObserveConn := fun _ => {}

/-- What the environment decides during one operation: the iteration orders, the
clock and the answers of ZLM. -/
structure Env where
  order : MapOrder := {}
  now : Int := 0
  sdp : Except String String := .ok ""
  record : Except String Unit := .ok ()
  recordURL : Except String String := .error ""

namespace World

def emit (w : World) (es : List Event) : World := { w with log := w.log ++ es }

def setHub (w : World) (h : Hub) : World := { w with hub := h }

def setClient (w : World) (c : UserID) (f : Client → Client) : World :=
  w.setHub (w.hub.setClient c f)

section Updates

variable (w : World) (es fs : List Event) (h : Hub)

@[simp] theorem emit_hub : (w.emit es).hub = w.hub := rfl
@[simp] theorem emit_log : (w.emit es).log = w.log ++ es := rfl
@[simp] theorem emit_goroutines : (w.emit es).goroutines = w.goroutines := rfl
@[simp] theorem emit_conn : (w.emit es).conn = w.conn := rfl
@[simp] theorem setHub_hub : (w.setHub h).hub = h := rfl
@[simp] theorem setHub_log : (w.setHub h).log = w.log := rfl
@[simp] theorem setHub_goroutines : (w.setHub h).goroutines = w.goroutines := rfl
@[simp] theorem setHub_conn : (w.setHub h).conn = w.conn := rfl

theorem emit_emit : (w.emit es).emit fs = w.emit (es ++ fs) := by
  simp [emit, List.append_assoc]

theorem emit_nil : w.emit [] = w := by simp [emit]

end Updates

/-- `c.send`, with an outbound queue that never fills. -/
def send (w : World) (c : UserID) (reqID : String) (m : ServerMsg) : World :=
  if (w.hub.client c).closed then w else w.emit [.sent c reqID m]

/-- The loop of a broadcast, calling `send` on each client in turn. -/
def sendAll (w : World) (ids : List UserID) (m : ServerMsg) : World :=
  w.emit ((ids.filter fun c => !(w.hub.client c).closed).map fun c => .sent c "" m)

/-- To every non-observer client except one. -/
def broadcastExcept (w : World) (ord : MapOrder) (r : RoomRef) (exceptID : UserID)
    (m : ServerMsg) : World :=
  w.sendAll ((w.hub.clientsOf ord r).filter fun c => c ≠ exceptID && !w.hub.isObserver c) m

/-- To every client, observers included, except one. -/
def broadcastToAllExcept (w : World) (ord : MapOrder) (r : RoomRef) (exceptID : UserID)
    (m : ServerMsg) : World :=
  w.sendAll ((w.hub.clientsOf ord r).filter fun c => c ≠ exceptID) m

/-- To every non-observer client, the sender included. -/
def broadcastChat (w : World) (env : Env) (r : RoomRef) (sender : UserID) (text : String) : World :=
  w.sendAll ((w.hub.clientsOf env.order r).filter fun c => !w.hub.isObserver c)
    (.chat { sender, nickname := (w.hub.client sender).nickname, text, ts := env.now })

def broadcastMediaState (w : World) (ord : MapOrder) (r : RoomRef) (c : UserID) : World :=
  if (w.hub.room r).isBroadcast then
    w.broadcastExcept ord r c
      (.peerState ⟨c, (w.hub.client c).micOn, (w.hub.client c).camOn⟩)
  else w

def broadcastStreamStarted (w : World) (ord : MapOrder) (r : RoomRef) (c : UserID) (kind : Kind)
    (streamID : StreamID) : World :=
  w.broadcastToAllExcept ord r c (.peerStreamStarted ⟨c, kind, streamID⟩)

def broadcastStreamStopped (w : World) (ord : MapOrder) (r : RoomRef) (c : UserID) (kind : Kind)
    (streamID : StreamID) : World :=
  w.broadcastToAllExcept ord r c (.peerStreamStopped ⟨c, kind, streamID⟩)

def broadcastRecordState (w : World) (ord : MapOrder) (r : RoomRef) (c : UserID) (kind : Kind)
    (streamID : StreamID) (recording : Bool) : World :=
  if (w.hub.room r).isBroadcast then
    w.broadcastExcept ord r c (.recordState ⟨c, kind, streamID, recording, ""⟩)
  else w

def notifyStatsChanged (w : World) : World := w.emit [.statsChanged]

/-- `go func`: the calls are made later, in order. -/
def spawn (w : World) (c : UserID) (calls : List ZlmCall) : World :=
  { w.emit [.spawned c calls] with goroutines := w.goroutines ++ [⟨c, calls⟩] }

/-- `w'` is `w` after events alone: queued messages, notes in the log. -/
structure Says (w w' : World) : Prop where
  hub : w'.hub = w.hub
  goroutines : w'.goroutines = w.goroutines
  conn : w'.conn = w.conn

section Effects

variable (w : World) (c : UserID) (ids : List UserID) (m : ServerMsg) (ord : MapOrder)
  (r : RoomRef) (kind : Kind) (streamID : StreamID)

theorem says_emit (es : List Event) : w.Says (w.emit es) := ⟨rfl, rfl, rfl⟩

theorem says_send (reqID : String) : w.Says (w.send c reqID m) := by
  unfold send
  split_ifs
  · exact ⟨rfl, rfl, rfl⟩
  · exact w.says_emit _

theorem says_sendAll : w.Says (w.sendAll ids m) := w.says_emit _

theorem says_broadcastMediaState : w.Says (w.broadcastMediaState ord r c) := by
  unfold broadcastMediaState
  split_ifs
  · exact w.says_sendAll _ _
  · exact ⟨rfl, rfl, rfl⟩

theorem says_broadcastRecordState (recording : Bool) :
    w.Says (w.broadcastRecordState ord r c kind streamID recording) := by
  unfold broadcastRecordState
  split_ifs
  · exact w.says_sendAll _ _
  · exact ⟨rfl, rfl, rfl⟩

@[simp] theorem send_hub (reqID : String) : (w.send c reqID m).hub = w.hub :=
  (w.says_send c m reqID).hub

@[simp] theorem sendAll_hub : (w.sendAll ids m).hub = w.hub := rfl

@[simp] theorem broadcastExcept_hub : (w.broadcastExcept ord r c m).hub = w.hub := rfl

@[simp] theorem broadcastMediaState_hub : (w.broadcastMediaState ord r c).hub = w.hub :=
  (w.says_broadcastMediaState c ord r).hub

@[simp] theorem broadcastStreamStarted_hub :
    (w.broadcastStreamStarted ord r c kind streamID).hub = w.hub := rfl

@[simp] theorem broadcastStreamStopped_hub :
    (w.broadcastStreamStopped ord r c kind streamID).hub = w.hub := rfl

@[simp] theorem broadcastRecordState_hub (recording : Bool) :
    (w.broadcastRecordState ord r c kind streamID recording).hub = w.hub :=
  (w.says_broadcastRecordState c ord r kind streamID recording).hub

@[simp] theorem notifyStatsChanged_hub : w.notifyStatsChanged.hub = w.hub := rfl

@[simp] theorem spawn_hub (calls : List ZlmCall) : (w.spawn c calls).hub = w.hub := rfl

@[simp] theorem setClient_hub (f : Client → Client) : (w.setClient c f).hub = w.hub.setClient c f :=
  rfl

end Effects

def getOrCreateRoom (w : World) (id : RoomID) (mode : RoomMode) : World × RoomRef :=
  (w.setHub (w.hub.getOrCreateRoom id mode).1, (w.hub.getOrCreateRoom id mode).2)

def removeRoomIfEmpty (w : World) (r : RoomRef) : World := w.setHub (w.hub.removeRoomIfEmpty r)

end World

end Meetkit
