import Meetkit.Lib.Machine
import Meetkit.Model.Observe

/-! The goroutines that change rooms, interleaved. A step is one critical section of
the hub or of a room, or one field write made outside of them; what a goroutine does
next is its `Loop`, its `Watch` or its `LeaveStep`. What they only read for a message
to somebody is left out, and so is everything that changes no room. Of the messages
those are kept that can come to a closed queue in the midst of a join or a departure:
the send panics, and the goroutine goes no further. -/

namespace Meetkit

/-- What takes an observer out of its room, step by step: in a dismissal the `send` of
observe-ended, and of `LeaveRoom` the write `c.room = nil`, the critical section of
`removeClient` and `removeRoomIfEmpty`. -/
inductive LeaveStep
  | send (o : UserID)
  | leave (o : UserID)
  | delete (r : RoomRef) (o : UserID)
  | drop (r : RoomRef)

namespace LeaveStep

def exec (h : Hub) : LeaveStep → Hub × List LeaveStep
  | .send _ => (h, [])
  | .leave o =>
    match (h.client o).room with
    | none => (h, [])
    | some r => (h.setClient o fun x => { x with room := none }, [.delete r o])
  | .delete r o => if o ∉ (h.room r).clients then (h, []) else (h.removeFrom r o, [.drop r])
  | .drop r => (h.removeRoomIfEmpty r, [])

/-- `pushRaw` offers to the queue of an observe connection, closed or not. -/
def panics (shut : UserID → Bool) : LeaveStep → Bool
  | .send o => shut o
  | _ => false

end LeaveStep

/-- What the readLoop goroutine of a business client does next. -/
inductive Loop
  -- waits for a message
  | reading
  -- `handleJoin` after its checks
  | soloRole (p : JoinPayload)
  | plannedStream (p : JoinPayload)
  | nickname (p : JoinPayload) (mode : RoomMode)
  | platform (p : JoinPayload) (mode : RoomMode)
  | micOn (p : JoinPayload) (mode : RoomMode)
  | camOn (p : JoinPayload) (mode : RoomMode)
  -- `GetOrCreateRoom`, the critical section of `addClient` and `c.room = room`
  | lookup (room : RoomID) (mode : RoomMode)
  | insert (r : RoomRef) (mode : RoomMode)
  | attach (r : RoomRef)
  /-- `removeRoomIfEmpty` after a refused join. -/
  | rejected (r : RoomRef)
  -- `cleanup`, and in it `removeClient`
  | closing
  | delete (r : RoomRef)
  | clear (r : RoomRef)
  | activity (r : RoomRef)
  -- `dismissObservers` collects them and goes through them
  | observers (r : RoomRef)
  | dismissing (r : RoomRef) (todo : List LeaveStep)
  | drop (r : RoomRef)
  | gone

def Loop.isReading : Loop → Bool
  | .reading => true
  | _ => false

inductive Watch
  | away
  -- `GetRoom` in `AddObserverClient`
  | lookup (roomID : RoomID)
  -- in `addObserverClient` its critical section, `c.room = r` and the `send` of observe-joined
  | insert (r : RoomRef)
  | attach (r : RoomRef)
  | send (r : RoomRef)
  /-- `c.room = r` again in `AddObserverClient`. -/
  | attachAgain (r : RoomRef)
  /-- `AddObserverClient` has returned, or panicked. -/
  | watching

structure Sys where
  hub : Hub := {}
  loop : UserID → Loop := fun _ => .reading
  watch : UserID → Watch := fun _ => .away
  /-- The connections on which the next read fails. -/
  severed : UserID → Bool := fun _ => false
  /-- The observers whose connection has closed its queue. -/
  shut : UserID → Bool := fun _ => false
  leaves : List LeaveStep := []

inductive Label
  /-- `ServeWS`: a business connection gets user id `c`. -/
  | connect (c : UserID)
  -- `c`'s readLoop takes a join and checks it, or a leave
  | join (c : UserID) (p : Decoded JoinPayload)
  | leave (c : UserID)
  /-- `c`'s connection breaks, or the handler of another message panics. -/
  | hangUp (c : UserID)
  | exit (c : UserID)
  | run (c : UserID) (ord : MapOrder)
  /-- A broadcast of `c`'s readLoop comes to a closed queue. -/
  | panic (c : UserID)
  -- cut short by a panic, a dissolution is a `hangUp` of those it has reached
  | kick (roomID : RoomID) (userID : UserID)
  | dissolve (roomID : RoomID)
  /-- An observe-join. The statistics are gathered room by room, so whether the checks
  on them pass is not settled here. -/
  | observe (u : UserID) (roomID : RoomID) (mode : String) (username : String) (active : Bool)
  | watch (u : UserID)
  /-- The observe connection of `u` calls `LeaveRoom`: for observe-leave, or in `closeConn`. -/
  | unobserve (u : UserID)
  /-- `closeConn` closes the queue of `u`'s connection; when it does is left open. -/
  | shut (u : UserID)
  | leaving (n : ℕ)

namespace Loop

def exec (shut : UserID → Bool) (h : Hub) (c : UserID) (ord : MapOrder) : Loop → Hub × Loop
  | .reading => (h, .reading)
  | .soloRole p =>
    match Hub.soloRoleOf? p.soloRole with
    | none => (h, .reading)
    | some .play => (h.writeSoloRole c .play, .nickname p .solo)
    | some .push => (h.writeSoloRole c .push, .plannedStream p)
  | .plannedStream p =>
    match Hub.checkPlannedStream p with
    | .error _ => (h, .reading)
    | .ok streamID => (h.writePlannedStream c streamID, .nickname p .solo)
  | .nickname p mode => (h.writeNickname c p.nickname, .platform p mode)
  | .platform p mode => (h.writePlatform c p.clientPlatform, .micOn p mode)
  | .micOn p mode => (h.writeMicOn c p.micOn, .camOn p mode)
  | .camOn p mode => (h.writeCamOn c p.camOn, .lookup p.room mode)
  | .lookup room mode => ((h.getOrCreateRoom room mode).1, .insert (h.getOrCreateRoom room mode).2 mode)
  | .insert r mode =>
    match h.admission r c mode with
    | some _ => (h, .rejected r)
    | none => (h.addTo r c, .attach r)
  | .attach r => (h.setClient c fun x => { x with room := some r }, .reading)
  | .rejected r => (h.removeRoomIfEmpty r, .reading)
  -- `cleanup` runs once and nothing else closes a client, so it is open here
  | .closing =>
    (h.setClient c fun x => { x with closed := true },
      match (h.client c).room with
      | none => .gone
      | some r => .delete r)
  | .delete r =>
    if c ∉ (h.room r).clients then (h, .gone)
    else (h.removeFrom r c, if h.isObserver c then .drop r else .clear r)
  | .clear r => (h.setClient c fun x => { x with streams := ∅, recordings := ∅ }, .activity r)
  | .activity r => (h, if h.isBusinessActive r then .drop r else .observers r)
  | .observers r =>
    (h, .dismissing r (((h.clientsOf ord r).filter fun o => h.isObserver o).flatMap fun o =>
      [.send o, .leave o]))
  | .dismissing r [] => (h, .drop r)
  | .dismissing r (s :: todo) =>
    if s.panics shut then (h, .gone) else ((s.exec h).1, .dismissing r ((s.exec h).2 ++ todo))
  | .drop r => (h.removeRoomIfEmpty r, .gone)
  | .gone => (h, .gone)

/-- Whom `c` broadcasts to before its next step: peer-joined goes to the other members,
and a departure may have something to tell to everybody that is left. -/
def audience (h : Hub) (c : UserID) : Loop → List UserID
  | .attach r => if (h.room r).isBroadcast then (h.members r).filter (· ≠ c) else []
  | .activity r => (h.room r).clients
  | _ => []

/-- `cleanup` is deferred by `readLoop`, and a panic in it ends the goroutine. -/
def unwound : Loop → Loop
  | .attach _ => .closing
  | _ => .gone

end Loop

namespace Watch

def exec (shut : UserID → Bool) (h : Hub) (u : UserID) : Watch → Hub × Watch
  | .away => (h, .away)
  | .lookup roomID =>
    match h.getRoom roomID with
    | none => (h, .away)
    | some r => (h, .insert r)
  | .insert r => if !h.isObserver u then (h, .away) else (h.addTo r u, .attach r)
  | .attach r => (h.setClient u fun x => { x with room := some r }, .send r)
  | .send r => (h, if shut u then .watching else .attachAgain r)
  | .attachAgain r => (h.setClient u fun x => { x with room := some r }, .watching)
  | .watching => (h, .watching)

end Watch

namespace Sys

def setLoop (s : Sys) (c : UserID) (l : Loop) : Sys :=
  { s with loop := Function.update s.loop c l }

def sever (s : Sys) (p : UserID → Bool) : Sys :=
  { s with severed := fun c => s.severed c || p c }

def listening (s : Sys) (c : UserID) : Bool :=
  (s.loop c).isReading && (s.hub.client c).hasConn && !(s.hub.client c).closed

/-- The queue of `d` is closed. A member's may have been open when `send` looked. -/
def queueClosed (s : Sys) (d : UserID) : Bool :=
  if s.hub.isObserver d then s.shut d else (s.hub.client d).closed

/-- `handleJoin` up to its first write. -/
def startJoin (s : Sys) (c : UserID) (p : Decoded JoinPayload) : Sys :=
  match s.hub.checkJoin c p with
  | .error _ => s
  | .ok (p, mode) => s.setLoop c (if mode = .solo then .soloRole p else .nickname p mode)

/-- `handleObserveJoin` before it asks the hub to add its observer. -/
def startObserve (s : Sys) (u : UserID) (roomID : RoomID) (mode username : String) : Sys :=
  match s.hub.getRoom roomID with
  | none => s
  | some r =>
    if mode ≠ "" ∧ mode ≠ (s.hub.room r).mode.text then s
    else { s with
      hub := s.hub.allocate u (Hub.observerClient u username)
      watch := Function.update s.watch u (.lookup (s.hub.room r).id) }

def step (s : Sys) : Label → Sys
  | .connect c => if c ∈ s.hub.used then s else { s with hub := s.hub.allocate c newClient }
  | .join c p => if s.listening c && !s.severed c then s.startJoin c p else s
  | .leave c => if s.listening c && !s.severed c then s.sever fun d => d = c else s
  | .hangUp c => s.sever fun d => d = c
  | .exit c => if s.listening c && s.severed c then s.setLoop c .closing else s
  | .run c ord =>
    let next := (s.loop c).exec s.shut s.hub c ord
    { s with hub := next.1 }.setLoop c next.2
  | .panic c =>
    if ((s.loop c).audience s.hub c).any s.queueClosed then s.setLoop c (s.loop c).unwound else s
  | .kick roomID userID =>
    match s.hub.getRoom roomID with
    | none => s
    | some r =>
      if userID ∉ (s.hub.room r).clients ∨ s.hub.isObserver userID then s
      else s.sever fun d => d = userID
  | .dissolve roomID =>
    match s.hub.getRoom roomID with
    | none => s
    | some r => s.sever fun d => d ∈ s.hub.members r
  | .observe u roomID mode username active =>
    if active && u ∉ s.hub.used then s.startObserve u roomID mode username else s
  | .watch u =>
    let next := (s.watch u).exec s.shut s.hub u
    { s with hub := next.1, watch := Function.update s.watch u next.2 }
  | .unobserve u => if s.hub.isObserver u then { s with leaves := s.leaves ++ [.leave u] } else s
  | .shut u =>
    if s.hub.isObserver u then { s with shut := Function.update s.shut u true } else s
  | .leaving n =>
    match s.leaves[n]? with
    | none => s
    | some l =>
      { s with
        hub := (l.exec s.hub).1
        leaves := s.leaves.take n ++ (l.exec s.hub).2 ++ s.leaves.drop (n + 1) }

end Sys

/-- The server, one critical section at a time. -/
def threads (token : String) : Machine Sys Label where
  init := { hub := { token } }
  step := Sys.step

end Meetkit
