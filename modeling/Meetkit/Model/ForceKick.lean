import Meetkit.Model.Client
import Meetkit.Model.Queues

/-! Kicking, message by message. `ForceKick` puts its notice into the victim's outbound
queue and closes the connection right after that; the victim's writeLoop takes the
messages off the queue one at a time. A step is one of these, a send by somebody else,
or whatever the server does to the hub meanwhile. No connection breaks by itself. -/

namespace Meetkit

/-- A call of `KickMember` or `DissolveRoom`. -/
abbrev KickId := ℕ

structure Outgoing where
  msg : ServerMsg
  /-- The call whose `ForceKick` sent it. -/
  kick : Option KickId := none
  deriving DecidableEq

inductive WriteLoop
  | waiting
  /-- It has taken the message off the queue. -/
  | writing (m : Outgoing)
  | returned

def WriteLoop.inHand : WriteLoop → List Outgoing
  | writing m => [m]
  | _ => []

structure Outbox where
  sendCh : Channel Outgoing := { capacity := outboundQueue }
  writeLoop : WriteLoop := .waiting
  /-- What went over the connection. -/
  written : List Outgoing := []
  /-- The call that closed the connection. -/
  closedBy : Option KickId := none

namespace Outbox

/-- `Client.send`; the channel of a closed client is closed. -/
def send (o : Outbox) (m : Outgoing) : Outbox := { o with sendCh := o.sendCh.offer m }

/-- `msg, ok := <-c.sendCh`, when it does not block. -/
def take (o : Outbox) : Outbox :=
  match o.writeLoop, o.sendCh.queue with
  | .waiting, m :: _ => { o with sendCh := o.sendCh.receive, writeLoop := .writing m }
  | .waiting, [] => if o.sendCh.closed then { o with writeLoop := .returned } else o
  | _, _ => o

/-- `c.conn.WriteMessage`, which fails on a closed connection. -/
def write (o : Outbox) : Outbox :=
  match o.writeLoop with
  | .writing m =>
    if o.closedBy = none then { o with writeLoop := .waiting, written := o.written ++ [m] }
    else { o with writeLoop := .returned }
  | _ => o

/-- `c.conn.Close()` -/
def close (o : Outbox) (n : KickId) : Outbox := { o with closedBy := o.closedBy.or (some n) }

/-- The critical section of `cleanup`; the readLoop exits once the connection is closed. -/
def cleanup (o : Outbox) : Outbox :=
  if o.closedBy = none then o else { o with sendCh := o.sendCh.close }

end Outbox

structure KickCall where
  reason : String := ""
  /-- The victims still to be kicked. -/
  todo : List UserID := []
  /-- The victim that has been sent its notice and whose connection is closed next. -/
  closing : Option UserID := none

structure Kicks where
  hub : Hub := {}
  outbox : UserID → Outbox := fun _ => {}
  call : KickId → KickCall := fun _ => {}
  newCall : KickId := 0

inductive KickLabel
  | hubChanges (h : Hub)
  /-- Any other send to the client. -/
  | send (c : UserID) (m : ServerMsg)
  | take (c : UserID)
  | write (c : UserID)
  | cleanup (c : UserID)
  | kickMember (roomID : RoomID) (userID : UserID) (reason : String)
  | dissolveRoom (ord : MapOrder) (roomID : RoomID) (reason : String)
  /-- The next step of the call. -/
  | forceKick (n : KickId)

namespace Hub

/-- Whom `KickMember` kicks: nobody when it returns an error. -/
def kickVictims (h : Hub) (roomID : RoomID) (userID : UserID) : List UserID :=
  match h.getRoom roomID with
  | none => []
  | some r => if userID ∈ (h.room r).clients ∧ h.isObserver userID = false then [userID] else []

def dissolveVictims (h : Hub) (ord : MapOrder) (roomID : RoomID) : List UserID :=
  match h.getRoom roomID with
  | none => []
  | some r => (h.clientsOf ord r).filter fun c => !h.isObserver c

end Hub

namespace Kicks

def setOutbox (s : Kicks) (c : UserID) (o : Outbox) : Kicks :=
  { s with outbox := Function.update s.outbox c o }

def setCall (s : Kicks) (n : KickId) (x : KickCall) : Kicks :=
  { s with call := Function.update s.call n x }

def startCall (s : Kicks) (reason : String) (victims : List UserID) : Kicks :=
  { s.setCall s.newCall
      { reason := if reason = "" then "您已被管理员移出" else reason, todo := victims } with
    newCall := s.newCall + 1 }

/-- The notice that the call sends to its victims. -/
def notice (s : Kicks) (n : KickId) : Outgoing := ⟨.adminKicked (s.call n).reason, some n⟩

def forceKick (s : Kicks) (n : KickId) : Kicks :=
  match (s.call n).closing with
  | some c =>
    (s.setCall n { s.call n with closing := none }).setOutbox c ((s.outbox c).close n)
  | none =>
    match (s.call n).todo with
    | [] => s
    | c :: todo =>
      if (s.hub.client c).hasConn then
        (s.setCall n { s.call n with todo, closing := some c }).setOutbox c
          ((s.outbox c).send (s.notice n))
      -- `LeaveRoom`, which changes the hub alone
      else s.setCall n { s.call n with todo }

def step (s : Kicks) : KickLabel → Kicks
  | .hubChanges h => { s with hub := h }
  | .send c m => s.setOutbox c ((s.outbox c).send ⟨m, none⟩)
  | .take c => s.setOutbox c (s.outbox c).take
  | .write c => s.setOutbox c (s.outbox c).write
  | .cleanup c => s.setOutbox c (s.outbox c).cleanup
  | .kickMember roomID userID reason => s.startCall reason (s.hub.kickVictims roomID userID)
  | .dissolveRoom ord roomID reason =>
    s.startCall (if reason = "" then "房间已被管理员解散" else reason)
      (s.hub.dissolveVictims ord roomID)
  | .forceKick n => s.forceKick n

end Kicks

def kicks : Machine Kicks KickLabel where
  init := {}
  step := Kicks.step

end Meetkit
