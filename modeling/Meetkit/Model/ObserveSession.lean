import Meetkit.Lib.Machine
import Meetkit.Model.World

/-! One observe connection and the two goroutines that touch its fields: its readLoop
and whoever closes it from outside. Of the rooms only the observers this connection
has put there are kept. Whether a room is found and its checks pass is the
environment's; that a room dismisses the observer meanwhile is left out. -/

namespace Meetkit

/-- A message, by what its handling does to the connection. -/
inductive SessionMsg
  /-- `observe-join`, decoded and trimmed. -/
  | join (roomID : RoomID)
  | leave
  | offer
  /-- Any other; it may be answered. -/
  | other (answered : Bool)

inductive SessionLoop
  | reading
  -- `handleObserveJoin`
  | gate (roomID : RoomID)
  | add (roomID : RoomID)
  | publish (u : UserID) (roomID : RoomID)
  -- `leaveRoom`, then `observe-left`
  | leaveCall
  | leaveDelete (u : UserID) (r : RoomRef)
  | leaveClear
  | left
  | dispatch
  -- the deferred `closeConn`, and its body
  | exiting
  | closing
  | exited
  deriving DecidableEq

inductive CloseStep
  -- `leaveRoom`
  | test
  | call
  | delete (u : UserID) (r : RoomRef)
  | clear
  | unregister
  | closeSend
  | closeSocket
  deriving DecidableEq

inductive CloseOnce
  | unused
  | running (byLoop : Bool) (step : CloseStep)
  | done
  deriving DecidableEq

structure ObserveSession where
  client : Option UserID := none
  roomID : RoomID := ""
  /-- `c.room` of the observers. -/
  room : UserID → Option RoomRef := fun _ => none
  /-- The room whose clients map has the observer. -/
  place : UserID → Option RoomRef := fun _ => none
  /-- The ids `uuid.NewString` has returned. -/
  used : List UserID := []
  registered : Bool := true
  sendClosed : Bool := false
  socketClosed : Bool := false
  once : CloseOnce := .unused
  loop : SessionLoop := .reading

structure SessionEnv where
  -- the checks on the room and on the statistics pass
  gate : Bool := true
  -- `GetRoom` in `AddObserverClient`
  found : Option RoomRef := some 0
  newID : UserID := ""
  -- `Dispatch` answers
  answered : Bool := true

inductive SessionLabel
  -- the readLoop gets a message, or an error, or takes its next step
  | read (m : SessionMsg)
  | readError
  | run (env : SessionEnv)
  /-- `leaveAllByToken` calls `closeConn`. -/
  | close
  /-- The next step of the body of `closeConn`, when the outside runs it. -/
  | closer

namespace ObserveSession

/-- `pushRaw` by the readLoop, which panics out of the loop on a closed channel. -/
def push (s : ObserveSession) (next : SessionLoop) : ObserveSession :=
  { s with loop := if s.sendClosed then .exiting else next }

/-- `c.room = nil` in `LeaveRoom`. -/
def clearRoom (s : ObserveSession) (u : UserID) : ObserveSession :=
  { s with room := Function.update s.room u none }

def delete (s : ObserveSession) (u : UserID) (r : RoomRef) : ObserveSession :=
  if s.place u = some r then { s with place := Function.update s.place u none } else s

def clearClient (s : ObserveSession) : ObserveSession := { s with client := none, roomID := "" }

/-- One step of the body of `closeConn`; on a nil client `LeaveRoom` panics, and the
body counts as run. -/
def closeStep (s : ObserveSession) (byLoop : Bool) : CloseStep → ObserveSession
  | .test =>
    match s.client with
    | none => { s with once := .running byLoop .unregister }
    | some _ => { s with once := .running byLoop .call }
  | .call =>
    match s.client with
    | none => { s with once := .done }
    | some u =>
      match s.room u with
      | none => { s with once := .running byLoop .clear }
      | some r => { s.clearRoom u with once := .running byLoop (.delete u r) }
  | .delete u r => { s.delete u r with once := .running byLoop .clear }
  | .clear => { s.clearClient with once := .running byLoop .unregister }
  | .unregister => { s with registered := false, once := .running byLoop .closeSend }
  | .closeSend => { s with sendClosed := true, once := .running byLoop .closeSocket }
  | .closeSocket => { s with socketClosed := true, once := .done }

/-- `AddObserverClient` under a new id: the observer is told, on the connection, that
it has joined. -/
def addObserver (s : ObserveSession) (roomID : RoomID) (env : SessionEnv) : ObserveSession :=
  if env.newID ∈ s.used then s
  else match env.found with
    | none => { s with used := env.newID :: s.used }.push .reading
    | some r =>
      { s with
        used := env.newID :: s.used
        room := Function.update s.room env.newID (some r)
        place := Function.update s.place env.newID (some r) }.push (.publish env.newID roomID)

def read (s : ObserveSession) : SessionMsg → ObserveSession
  | .join roomID =>
    match s.client with
    | some _ => s.push .reading
    | none => { s with loop := .gate roomID }
  | .leave =>
    match s.client with
    | some _ => { s with loop := .leaveCall }
    | none => s.push .reading
  | .offer =>
    match s.client with
    | some _ => { s with loop := .dispatch }
    | none => s.push .reading
  | .other answered => if answered then s.push .reading else s

def run (s : ObserveSession) (env : SessionEnv) : ObserveSession :=
  match s.loop with
  | .reading => s
  | .gate roomID => if env.gate then { s with loop := .add roomID } else s.push .reading
  | .add roomID => s.addObserver roomID env
  | .publish u roomID => { s with client := some u, roomID, loop := .reading }
  | .leaveCall =>
    match s.client with
    | none => { s with loop := .exiting }
    | some u =>
      match s.room u with
      | none => { s with loop := .leaveClear }
      | some r => { s.clearRoom u with loop := .leaveDelete u r }
  | .leaveDelete u r => { s.delete u r with loop := .leaveClear }
  | .leaveClear => { s.clearClient with loop := .left }
  | .left => s.push .reading
  | .dispatch =>
    match s.client with
    | none => { s with loop := .exiting }
    | some _ => if env.answered then s.push .reading else { s with loop := .reading }
  -- `closeOnce.Do` waits for a body that runs
  | .exiting =>
    match s.once with
    | .unused => { s with once := .running true .test, loop := .closing }
    | .running .. => s
    | .done => { s with loop := .exited }
  | .closing =>
    match s.once with
    | .running true step => s.closeStep true step
    | _ => { s with loop := .exited }
  | .exited => s

def step (s : ObserveSession) : SessionLabel → ObserveSession
  | .read m => if s.loop = .reading then s.read m else s
  | .readError => if s.loop = .reading then { s with loop := .exiting } else s
  | .run env => s.run env
  | .close => if s.once = .unused then { s with once := .running false .test } else s
  | .closer =>
    match s.once with
    | .running false step => s.closeStep false step
    | _ => s

end ObserveSession

def observeSession : Machine ObserveSession SessionLabel where
  init := {}
  step := ObserveSession.step

end Meetkit
