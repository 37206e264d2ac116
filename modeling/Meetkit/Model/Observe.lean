import Meetkit.Model.Client
import Meetkit.Model.Stats

/-! The admin connections that watch a room: joining it as a silent observer behind
a gate on the statistics snapshot, leaving it, and what such a connection may send. -/

namespace Meetkit

/-- A message on an observe connection; a join carries the user id its observer
client gets if it is let in. -/
inductive ObserveBody
  | join (u : UserID) (p : Decoded ObserveJoinPayload)
  | leave
  | watchStop (detail : Decoded String)
  | webrtcOffer (p : Decoded WebRTCOfferPayload)
  | unknown (type : String)

namespace Hub

def roomHasRealMembers (h : Hub) (ord : MapOrder) (roomID : RoomID) : Bool :=
  match (h.statsSnapshot ord).rooms.find? fun rs => rs.id = roomID with
  | some rs => 0 < rs.realMembers
  | none => false

def roomHasPushMember (h : Hub) (ord : MapOrder) (roomID : RoomID) : Bool :=
  (h.statsSnapshot ord).rooms.any fun rs =>
    rs.id = roomID && rs.clients.any fun c => !c.isObserver && c.soloRole ≠ some .play

/-- The checks of `handleObserveJoin` on the room that is to be watched. -/
def observeGate (h : Hub) (ord : MapOrder) (r : RoomRef) (mode : String) : Option Err :=
  if mode ≠ "" ∧ mode ≠ (h.room r).mode.text then some (.text "room mode mismatch")
  else if !h.roomHasRealMembers ord (h.room r).id then some (.text "room has no active members")
  else if (h.room r).mode = .solo ∧ !h.roomHasPushMember ord (h.room r).id then
    some (.text "room has no push stream")
  else none

/-- `SetObserver` on a fresh `NewObserveClient`. -/
def observerClient (u : UserID) (adminUser : String) : Client :=
  { newObserveClient with
    isObserver := true, adminUser
    nickname := "observer-" ++ String.ofList (u.toList.take 8) }

end Hub

namespace World

def setConn (w : World) (k : ConnID) (f : ObserveConn → ObserveConn) : World :=
  { w with conn := Function.update w.conn k (f (w.conn k)) }

/-- `AddObserverClient`. -/
def addObserver (w : World) (ord : MapOrder) (roomID : RoomID) (u : UserID) : World × Option Err :=
  match w.hub.getRoom roomID with
  | none => (w, some (.text "room not found"))
  | some r =>
    match w.addObserverClient ord r u with
    | (w, some e) => (w, some e)
    | (w, none) => (w.setClient u fun x => { x with room := some r }, none)

def handleObserveJoin (env : Env) (w : World) (k : ConnID) (u : UserID)
    (p : Decoded ObserveJoinPayload) : World × Option Err :=
  if (w.conn k).client.isSome then (w, some (.text "already observing a room"))
  else match p with
    | .error e => (w, some (.text e))
    | .ok p =>
      let roomID := Text.trimSpace p.room
      if roomID = "" then (w, some (.text "room is required"))
      else match w.hub.getRoom roomID with
        | none => (w, some (.text "room not found"))
        | some r =>
          match w.hub.observeGate env.order r p.mode with
          | some e => (w, some e)
          | none =>
            let w := w.setHub (w.hub.allocate u (Hub.observerClient u (w.conn k).username))
            match w.addObserver env.order (w.hub.room r).id u with
            | (w, some e) => (w, some e)
            | (w, none) =>
              (w.setConn k fun oc => { oc with client := some u, roomID := (w.hub.room r).id }, none)

/-- `observeConn.leaveRoom`. -/
def observeLeave (w : World) (k : ConnID) : World :=
  match (w.conn k).client with
  | none => w
  | some u => (w.observerLeaveRoom u).setConn k fun oc => { oc with client := none, roomID := "" }

/-- One envelope through an observe connection's readLoop. -/
def observeReceive (env : Env) (w : World) (k : ConnID) (reqID : String) : ObserveBody → World
  | .join u p =>
    match handleObserveJoin env w k u p with
    | (w, none) => w
    | (w, some e) => w.emit [.pushed k "observe-error" "" (some e)]
  | .leave => (w.observeLeave k).emit [.pushed k "observe-left" "" none]
  | .watchStop detail =>
    if (w.conn k).client.isNone || (w.conn k).roomID = "" then w
    else match detail with
      | .error _ =>
        w.emit [.pushed k "observe-error" "" (some (.text "bad observe-watch-stop payload"))]
      | .ok detail =>
        let detail := Text.trimSpace detail
        if detail ≠ "" then
          w.emit [.audited (w.conn k).username "observe_stop" (w.conn k).roomID detail]
        else w
  | .webrtcOffer p =>
    match (w.conn k).client with
    | none => w.emit [.pushed k "observe-error" "" (some (.text "not observing a room"))]
    | some o =>
      match dispatch env w o ⟨reqID, .webrtcOffer p⟩ with
      | (w, none) => w
      | (w, some e) => w.emit [.pushed k (if reqID ≠ "" then "error" else "observe-error") reqID e]
  | .unknown type =>
    w.emit [.pushed k "observe-error" "" (some (.text ("unknown message type: " ++ type)))]

/-- `closeConn`, which runs once. -/
def observeClose (w : World) (k : ConnID) : World :=
  if (w.conn k).closed then w
  else (w.observeLeave k).setConn k fun oc => { oc with closed := true }

end World

end Meetkit
