import Meetkit.Lib.Machine
import Meetkit.Model.Room

/-! The calls that take clients out of rooms, a critical section or a field write at a
time, beside the joins that put them in. A broadcast is one step: it holds the room's
lock, so nobody enters or leaves meanwhile. The log notes who did what; nothing reads
it. The stats hook, which changes no room and no queue, is left out. -/

namespace Meetkit

/-- What a client's join does next. -/
inductive EntryStep
  | away
  -- `handleJoin` after its checks
  | lookup (id : RoomID) (mode : RoomMode)
  /-- The critical section of `addClient`. -/
  | insert (r : RoomRef) (mode : RoomMode)
  | snapshot (r : RoomRef)
  | joined (r : RoomRef) (peers : List PeerInfo)
  | peerJoined (r : RoomRef)
  /-- `removeRoomIfEmpty` after a refused join. -/
  | rejected (r : RoomRef)
  -- `AddObserverClient`
  | observeLookup (id : RoomID)
  | observeInsert (r : RoomRef)
  /-- `c.room = r` in `addObserverClient`. -/
  | observeAttach (r : RoomRef)
  | observeSnapshot (r : RoomRef)
  | observeJoined (r : RoomRef) (peers : List PeerInfo)
  /-- `c.room = r` in `handleJoin` and in `AddObserverClient`. -/
  | attach (r : RoomRef)

/-- What a call that takes a client out of its room does next. -/
inductive ExitStep
  | cleanup
  /-- `cleanup` reads `c.room`. -/
  | cleanupRoom
  | forceKick (reason : String)
  /-- One round of the loop of `dismissObservers`. -/
  | dismiss (message : String)
  | leaveRoom
  /-- The critical section of `removeClient`. -/
  | removeClient (r : RoomRef)
  /-- Takes the client's streams and recordings. -/
  | collect (r : RoomRef)
  /-- Tells the room about the streams that are left, then about the client. -/
  | stopped (r : RoomRef) (todo : List (Kind × StreamID))
  /-- Starts the goroutine that tells ZLM. -/
  | spawn (r : RoomRef)
  | activity (r : RoomRef)
  /-- `dismissObservers` collects them. -/
  | observers (r : RoomRef)
  | dismissing (r : RoomRef) (sweep : ℕ)
  | drop (r : RoomRef)
  | returned
  deriving DecidableEq

/-- One such call, with what it knows. -/
structure Trigger where
  client : UserID
  next : ExitStep
  app : RoomID := ""
  entries : List (Kind × StreamID) := []
  recordSids : List StreamID := []
  /-- What the goroutine it started has yet to call. -/
  calls : List ZlmCall := []

inductive SweepKind
  /-- The loop of `DissolveRoom`. -/
  | dissolve (reason : String)
  /-- The loop of `dismissObservers`. -/
  | dismiss (message : String)

/-- What one round of the loop begins. -/
def SweepKind.first : SweepKind → ExitStep
  | .dissolve reason => .forceKick reason
  | .dismiss message => .dismiss message

/-- A loop that takes one client after the other. -/
structure Sweep where
  how : SweepKind
  todo : List UserID
  child : Option ℕ := none

inductive Note
  /-- `c` was inserted into `r.clients`. -/
  | arrived (c : UserID) (r : RoomRef)
  /-- The call `n` found `c.room` and calls `removeClient`. -/
  | found (n : ℕ) (c : UserID) (r : RoomRef)
  /-- It found `c` in `r.clients` and deleted it; `c` had these streams and recordings. -/
  | departed (n : ℕ) (c : UserID) (r : RoomRef) (streams : GoMap Kind StreamID)
    (recordings : GoMap Kind Bool)
  /-- It did not find it there. -/
  | missed (n : ℕ) (c : UserID) (r : RoomRef)
  /-- Queued for `d`, by one of the calls or by a join. -/
  | sent (n : Option ℕ) (d : UserID) (m : ServerMsg)
  | called (n : ℕ) (call : ZlmCall)
  | returned (n : ℕ)

structure Exits where
  hub : Hub := {}
  entry : UserID → EntryStep := fun _ => .away
  triggers : List Trigger := []
  sweeps : List Sweep := []
  log : List Note := []

inductive ExitLabel
  /-- A handler of `c` other than `handleJoin` and `cleanup` leaves its fields like this. -/
  | write (c : UserID) (x : Client)
  | join (c : UserID) (id : RoomID) (mode : RoomMode)
  | observe (o : UserID) (id : RoomID)
  /-- The next step of `c`'s join. -/
  | enter (c : UserID) (ord : MapOrder)
  | cleanup (c : UserID)
  | leave (c : UserID)
  | kick (id : RoomID) (c : UserID) (reason : String)
  | dissolve (id : RoomID) (reason : String) (ord : MapOrder)
  /-- The next step of a call. -/
  | run (n : ℕ) (ord : MapOrder)
  | sweep (k : ℕ)
  /-- The goroutine of a call tells ZLM. -/
  | tell (n : ℕ)

namespace ExitStep

def collects : ExitStep → Bool
  | .collect _ => true
  | _ => false

def isReturned : ExitStep → Bool
  | .returned => true
  | _ => false

end ExitStep

namespace Exits

def note (s : Exits) (e : Note) : Exits := { s with log := s.log ++ [e] }

def setHub (s : Exits) (h : Hub) : Exits := { s with hub := h }

def setTrigger (s : Exits) (n : ℕ) (x : Trigger) : Exits := { s with triggers := s.triggers.set n x }

def setEntry (s : Exits) (c : UserID) (next : EntryStep) : Exits :=
  { s with entry := Function.update s.entry c next }

/-- `c.send` on each of the clients, with queues that never fill. -/
def sendAll (s : Exits) (n : Option ℕ) (ids : List UserID) (m : ServerMsg) : Exits :=
  { s with log := s.log ++ (ids.filter fun d => !(s.hub.client d).closed).map fun d => .sent n d m }

def broadcastExcept (s : Exits) (n : Option ℕ) (ord : MapOrder) (r : RoomRef) (exceptID : UserID)
    (m : ServerMsg) : Exits :=
  s.sendAll n ((s.hub.clientsOf ord r).filter fun c => c ≠ exceptID && !s.hub.isObserver c) m

def broadcastStreamStopped (s : Exits) (n : ℕ) (ord : MapOrder) (r : RoomRef) (c : UserID)
    (kind : Kind) (streamID : StreamID) : Exits :=
  s.sendAll (some n) ((s.hub.clientsOf ord r).filter fun d => d ≠ c)
    (.peerStreamStopped ⟨c, kind, streamID⟩)

/-! ### Joins -/

def insertInto (s : Exits) (c : UserID) (r : RoomRef) : Exits :=
  (s.setHub (s.hub.addTo r c)).note (.arrived c r)

def enter (s : Exits) (c : UserID) (ord : MapOrder) : Exits :=
  match s.entry c with
  | .away => s
  | .lookup id mode =>
    (s.setHub (s.hub.getOrCreateRoom id mode).1).setEntry c
      (.insert (s.hub.getOrCreateRoom id mode).2 mode)
  | .insert r mode =>
    match s.hub.admission r c mode with
    | some _ => s.setEntry c (.rejected r)
    | none => (s.insertInto c r).setEntry c (.snapshot r)
  | .snapshot r => s.setEntry c (.joined r (s.hub.snapshotPeers ord r c))
  | .joined r peers =>
    (s.sendAll none [c] (.joined ⟨c, (s.hub.room r).id, peers⟩)).setEntry c (.peerJoined r)
  | .peerJoined r =>
    let x := s.hub.client c
    (if (s.hub.room r).isBroadcast then
      s.broadcastExcept none ord r c (.peerJoined ⟨c, x.nickname, x.micOn, x.camOn, x.clientPlatform⟩)
    else s).setEntry c (.attach r)
  | .rejected r => (s.setHub (s.hub.removeRoomIfEmpty r)).setEntry c .away
  | .observeLookup id =>
    match s.hub.getRoom id with
    | none => s.setEntry c .away
    | some r => s.setEntry c (.observeInsert r)
  | .observeInsert r =>
    if !s.hub.isObserver c then s.setEntry c .away
    else (s.insertInto c r).setEntry c (.observeAttach r)
  | .observeAttach r =>
    (s.setHub (s.hub.setClient c fun x => { x with room := some r })).setEntry c (.observeSnapshot r)
  | .observeSnapshot r => s.setEntry c (.observeJoined r (s.hub.snapshotPeers ord r c))
  | .observeJoined r peers =>
    (s.sendAll none [c] (.observeJoined ⟨c, (s.hub.room r).id, peers⟩)).setEntry c (.attach r)
  | .attach r =>
    (s.setHub (s.hub.setClient c fun x => { x with room := some r })).setEntry c .away

/-! ### Departures -/

def returns (s : Exits) (n : ℕ) (x : Trigger) : Exits :=
  (s.note (.returned n)).setTrigger n { x with next := .returned }

/-- The call `n` passes its client to `removeClient`. -/
def finds (s : Exits) (n : ℕ) (x : Trigger) (r : RoomRef) : Exits :=
  (s.note (.found n x.client r)).setTrigger n { x with next := .removeClient r }

/-- Begins a call for `c`. -/
def start (s : Exits) (c : UserID) (next : ExitStep) : Exits :=
  { s with triggers := s.triggers ++ [{ client := c, next }] }

def startSweep (s : Exits) (how : SweepKind) (todo : List UserID) : Exits :=
  { s with sweeps := s.sweeps ++ [{ how, todo }] }

def sweepDone (s : Exits) (k : ℕ) : Bool :=
  match s.sweeps[k]? with
  | some w => w.todo.isEmpty && w.child.isNone
  | none => true

/-- The next step of the call `n`. -/
def exec (s : Exits) (n : ℕ) (x : Trigger) (ord : MapOrder) : Exits :=
  let c := x.client
  match x.next with
  | .cleanup =>
    if (s.hub.client c).closed then s.returns n x
    else (s.setHub (s.hub.setClient c fun y => { y with closed := true })).setTrigger n
      { x with next := .cleanupRoom }
  | .cleanupRoom =>
    match (s.hub.client c).room with
    | none => s.returns n x
    | some r => s.finds n x r
  | .forceKick reason =>
    if (s.hub.client c).hasConn then
      -- closing the connection makes its readLoop call `cleanup`
      (s.sendAll (some n) [c]
        (.adminKicked (if reason = "" then "您已被管理员移出" else reason))).returns n x
    else s.setTrigger n { x with next := .leaveRoom }
  | .dismiss message =>
    (s.sendAll (some n) [c] (.observeEnded message)).setTrigger n { x with next := .leaveRoom }
  | .leaveRoom =>
    match (s.hub.client c).room with
    | none => s.returns n x
    | some r => (s.setHub (s.hub.setClient c fun y => { y with room := none })).finds n x r
  | .removeClient r =>
    if c ∉ (s.hub.room r).clients then (s.note (.missed n c r)).returns n x
    else
      let y := s.hub.client c
      ((s.setHub (s.hub.removeFrom r c)).note (.departed n c r y.streams y.recordings)).setTrigger n
        { x with next := if s.hub.isObserver c then .drop r else .collect r }
  | .collect r =>
    let y := s.hub.client c
    let entries := y.streams.range (ord.streams c)
    (s.setHub (s.hub.setClient c fun y => { y with streams := ∅, recordings := ∅ })).setTrigger n
      { x with
        next := .stopped r entries
        app := (s.hub.room r).id
        entries
        recordSids := (entries.filter fun e => y.recordings.lookup e.1 = some true).map Prod.snd }
  | .stopped r (e :: todo) =>
    (s.broadcastStreamStopped n ord r c e.1 e.2).setTrigger n { x with next := .stopped r todo }
  | .stopped r [] =>
    (if (s.hub.room r).isBroadcast then s.broadcastExcept (some n) ord r c (.peerLeft c)
    else s).setTrigger n { x with next := .spawn r }
  | .spawn r =>
    s.setTrigger n { x with
      next := .activity r
      calls := x.recordSids.map (.stopRecord x.app) ++ x.entries.map fun e => .closeStream x.app e.2 }
  | .activity r =>
    s.setTrigger n { x with next := if s.hub.isBusinessActive r then .drop r else .observers r }
  | .observers r =>
    (s.startSweep (.dismiss "业务已结束")
      ((s.hub.clientsOf ord r).filter fun o => s.hub.isObserver o)).setTrigger n
      { x with next := .dismissing r s.sweeps.length }
  | .dismissing r k => if s.sweepDone k then s.setTrigger n { x with next := .drop r } else s
  | .drop r => (s.setHub (s.hub.removeRoomIfEmpty r)).returns n x
  | .returned => s

/-- The call of a sweep's current round has returned. -/
def roundDone (s : Exits) (w : Sweep) : Bool :=
  match w.child with
  | none => true
  | some n => ((s.triggers[n]?).map fun x => x.next.isReturned).getD true

def sweep (s : Exits) (k : ℕ) : Exits :=
  match s.sweeps[k]? with
  | none => s
  | some w =>
    if !s.roundDone w then s
    else match w.todo with
      | [] => { s with sweeps := s.sweeps.set k { w with child := none } }
      | c :: todo =>
        { s with sweeps := s.sweeps.set k { w with todo, child := some s.triggers.length } }.start c w.how.first

/-- Some call is about to take the streams of `c`. -/
def collecting (s : Exits) (c : UserID) : Bool :=
  s.triggers.any fun x => x.client = c && x.next.collects

def step (s : Exits) : ExitLabel → Exits
  | .write c x =>
    -- the handlers run on the goroutine that runs `cleanup` after them
    if s.collecting c then s
    else s.setHub (s.hub.setClient c fun y =>
      { x with room := y.room, hasConn := y.hasConn, isObserver := y.isObserver, closed := y.closed })
  | .join c id mode =>
    match s.entry c with
    | .away => if (s.hub.client c).room.isSome then s else s.setEntry c (.lookup id mode)
    | _ => s
  | .observe o id =>
    match s.entry o with
    | .away => if (s.hub.client o).room.isSome then s else s.setEntry o (.observeLookup id)
    | _ => s
  | .enter c ord => s.enter c ord
  | .cleanup c => s.start c .cleanup
  | .leave c => s.start c .leaveRoom
  | .kick id c reason =>
    match s.hub.getRoom id with
    | none => s
    | some r =>
      if c ∉ (s.hub.room r).clients ∨ s.hub.isObserver c then s else s.start c (.forceKick reason)
  | .dissolve id reason ord =>
    match s.hub.getRoom id with
    | none => s
    | some r =>
      let victims := (s.hub.clientsOf ord r).filter fun c => !s.hub.isObserver c
      if victims = [] then s
      else s.startSweep (.dissolve (if reason = "" then "房间已被管理员解散" else reason)) victims
  | .run n ord =>
    match s.triggers[n]? with
    | none => s
    | some x => s.exec n x ord
  | .sweep k => s.sweep k
  | .tell n =>
    match s.triggers[n]? with
    | none => s
    | some x =>
      match x.calls with
      | [] => s
      | call :: calls => (s.note (.called n call)).setTrigger n { x with calls }

end Exits

/-- The clients that there are, none of them in a room at first. -/
def exits (clients : UserID → Client) : Machine Exits ExitLabel where
  init := { hub := { client := fun c => { clients c with room := none } } }
  step := Exits.step

end Meetkit
