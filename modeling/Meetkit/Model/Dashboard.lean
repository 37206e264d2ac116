import Meetkit.Lib.Channel
import Meetkit.Lib.GoMap
import Meetkit.Model.World

/-! The admin dashboard's hub: its client set, the queue of each connection, the
debounce timer and the broadcasts that are under way. A step is one critical
section of `d.mu`, one send to a queue, or the close of a queue. What a message
says is left open. -/

namespace Meetkit

def adminWSOutboundQueue := 8

/-- What the goroutine of an admin connection, its readLoop, does next. -/
inductive DashConn
  | away
  /-- `pushSnapshot` up to its send. -/
  | pushing
  /-- Waits for a message. -/
  | reading
  -- `close`
  | unregister
  | closeSend
  | gone
  deriving DecidableEq

/-- What a goroutine that broadcasts does next. -/
inductive Broadcast
  /-- The timer's callback, before it clears `d.debounce`. -/
  | fired
  /-- `broadcastHub` or `broadcastAudit`, before it copies the client set. -/
  | marshal
  | sending (raw : String) (todo : List ConnID)

/-- The clients of its copy it has not sent to. -/
def Broadcast.todo : Broadcast → List ConnID
  | .sending _ todo => todo
  | _ => []

structure Dashboard where
  /-- The keys of `d.clients`. -/
  clients : List ConnID := []
  send : ConnID → Channel String := fun _ => { capacity := adminWSOutboundQueue }
  conn : ConnID → DashConn := fun _ => .away
  /-- `d.debounce != nil`. -/
  debounce : Bool := false
  /-- The timers that have not fired. -/
  timers : ℕ := 0
  broadcasts : List Broadcast := []
  /-- A send was made on a closed queue. -/
  panicked : Bool := false

inductive DashboardLabel
  /-- `handleWS` registers a new connection. -/
  | register (k : ConnID)
  /-- The next step of `pushSnapshot`; without a message when it cannot be marshalled. -/
  | push (k : ConnID) (raw : Option String)
  /-- A refresh message. -/
  | refresh (k : ConnID)
  /-- The readLoop finds its connection broken. -/
  | readError (k : ConnID)
  /-- The next step of `close`. -/
  | close (k : ConnID)
  /-- The writeLoop takes a message. -/
  | write (k : ConnID)
  /-- The stats hook: `scheduleHubPush`. -/
  | statsChanged
  | fire
  /-- The audit hook: `broadcastAudit`. -/
  | audited
  /-- The next step of the `n`-th broadcast: the message, if it can be marshalled,
  and the order in which the client set is copied. -/
  | broadcast (n : ℕ) (raw : Option String) (rank : ConnID → ℕ)

namespace Dashboard

def setConn (d : Dashboard) (k : ConnID) (x : DashConn) : Dashboard :=
  { d with conn := Function.update d.conn k x }

def setSend (d : Dashboard) (k : ConnID) (f : Channel String → Channel String) : Dashboard :=
  { d with send := Function.update d.send k (f (d.send k)) }

def setBroadcast (d : Dashboard) (n : ℕ) (b : Broadcast) : Dashboard :=
  { d with broadcasts := d.broadcasts.set n b }

/-- `select { case c.send <- raw: default: }`. -/
def offer (d : Dashboard) (k : ConnID) (raw : String) : Dashboard :=
  { d.setSend k (·.offer raw) with panicked := d.panicked || (d.send k).closed }

def register (d : Dashboard) (k : ConnID) : Dashboard :=
  { d.setConn k .pushing with clients := d.clients.insert k }

def unregister (d : Dashboard) (k : ConnID) : Dashboard :=
  { d.setConn k .closeSend with clients := d.clients.filter (· ≠ k) }

def scheduleHubPush (d : Dashboard) : Dashboard :=
  if d.debounce then d else { d with debounce := true, timers := d.timers + 1 }

def runBroadcast (d : Dashboard) (n : ℕ) (raw : Option String) (rank : ConnID → ℕ) : Dashboard :=
  match d.broadcasts[n]? with
  | some .fired => { d.setBroadcast n .marshal with debounce := false }
  | some .marshal =>
    match raw with
    | none => d.setBroadcast n (.sending "" [])
    | some raw => d.setBroadcast n (.sending raw (rangeBy rank d.clients))
  | some (.sending raw (k :: todo)) => (d.setBroadcast n (.sending raw todo)).offer k raw
  | _ => d

def step (d : Dashboard) : DashboardLabel → Dashboard
  | .register k => if d.conn k = .away then d.register k else d
  | .push k raw =>
    if d.conn k = .pushing then
      match raw with
      | none => d.setConn k .reading
      | some raw => (d.setConn k .reading).offer k raw
    else d
  | .refresh k => if d.conn k = .reading then d.setConn k .pushing else d
  | .readError k => if d.conn k = .reading then d.setConn k .unregister else d
  | .close k =>
    match d.conn k with
    | .unregister => d.unregister k
    | .closeSend => (d.setConn k .gone).setSend k (·.close)
    | _ => d
  | .write k => d.setSend k (·.receive)
  | .statsChanged => d.scheduleHubPush
  | .fire =>
    if 0 < d.timers then
      { d with timers := d.timers - 1, broadcasts := d.broadcasts ++ [.fired] }
    else d
  | .audited => { d with broadcasts := d.broadcasts ++ [.marshal] }
  | .broadcast n raw rank => d.runBroadcast n raw rank

end Dashboard

def dashboard : Machine Dashboard DashboardLabel where
  init := {}
  step := Dashboard.step

end Meetkit
