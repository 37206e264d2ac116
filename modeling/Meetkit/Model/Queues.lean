import Meetkit.Lib.Channel
import Meetkit.Model.State

/-! The broadcasts of a room and the outbound queues of its clients. A broadcast holds
the room's lock for reading and goes through the clients one by one; `send` reads
`c.closed` in one critical section of `c.mu` and offers to `c.sendCh` after it. A
step is one of these, one critical section of the room, or one of `cleanup`. A send on
a closed queue panics: the broadcast ends there, the lock is given back, and what the
goroutine has deferred runs. -/

namespace Meetkit

def outboundQueue := 32

/-- Which clients a broadcast skips. -/
inductive CastKind
  /-- `broadcastExcept`: observers and the sender. -/
  | except
  /-- `broadcastToAllExcept`: the sender. -/
  | toAllExcept
  /-- `broadcastChat`: observers. -/
  | chat

/-- Where a client broadcasts. -/
inductive Phase
  /-- In `addClient` after its critical section; `c.room` is not set before it returns. -/
  | joining
  | serving
  /-- In `removeClient` after its critical section. -/
  | departed
  deriving DecidableEq

/-- What the readLoop goroutine of a business client does next. -/
inductive Speaker
  | outside
  | joining
  | serving
  /-- In a broadcast: the client it has found open and not sent to yet, and those it has
  still to look at. -/
  | casting (raw : String) (aim : Option UserID) (todo : List UserID) (phase : Phase)
  /-- `cleanup`, and whether `c.room` is set. -/
  | closing (housed : Bool)
  -- `removeClient` before its critical section
  | leaving
  | departed
  | gone

/-- What follows a broadcast. -/
def Phase.back : Phase → Speaker
  | joining => .joining
  | serving => .serving
  | departed => .departed

/-- What follows a panic in it: the `cleanup` that the readLoop has deferred, or nothing if
it is under way already. -/
def Phase.unwound : Phase → Speaker
  | joining => .closing false
  | serving => .closing true
  | departed => .gone

namespace Speaker

def aim : Speaker → Option UserID
  | casting _ aim _ _ => aim
  | _ => none

/-- Whether it holds the room's lock for reading. -/
def reads : Speaker → Bool
  | casting .. => true
  | _ => false

end Speaker

structure RoomQueues where
  /-- The keys of `r.clients`. -/
  clients : List UserID := []
  isObserver : UserID → Bool := fun _ => false
  loops : GoMap UserID Speaker := ∅
  closed : UserID → Bool := fun _ => false
  sendCh : UserID → Channel String := fun _ => { capacity := outboundQueue }
  /-- Whose observe connection has closed its queue. -/
  shut : UserID → Bool := fun _ => false
  /-- A send was made on the closed queue of a client. -/
  panicked : Bool := false

inductive QueueLabel
  /-- A new business client enters the room. -/
  | join (c : UserID)
  | observe (o : UserID)
  | unobserve (o : UserID)
  /-- `closeConn` of the observer's connection. -/
  | shut (o : UserID)
  /-- `c` starts a broadcast of a message, going through the clients by rank. -/
  | broadcast (c : UserID) (kind : CastKind) (raw : String) (rank : UserID → ℕ)
  /-- `c`'s readLoop finds its connection broken. -/
  | exit (c : UserID)
  /-- The next step of `c`'s goroutine. -/
  | run (c : UserID)
  /-- Any other message to the client, as a reply to it. -/
  | send (c : UserID) (raw : String)
  /-- The writeLoop of `c` takes a message. -/
  | write (c : UserID)

namespace RoomQueues

def loop (s : RoomQueues) (c : UserID) : Speaker := (s.loops.lookup c).getD .outside

def setLoop (s : RoomQueues) (c : UserID) (l : Speaker) : RoomQueues :=
  { s with loops := s.loops.insert c l }

/-- Whether the room's lock can be taken for writing. -/
def unread (s : RoomQueues) : Bool := s.loops.entries.all fun e => !e.2.reads

/-- The clients a broadcast calls `send` on. -/
def audience (s : RoomQueues) (c : UserID) : CastKind → List UserID
  | .except => s.clients.filter fun d => d ≠ c && !s.isObserver d
  | .toAllExcept => s.clients.filter fun d => d ≠ c
  | .chat => s.clients.filter fun d => !s.isObserver d

def enter (s : RoomQueues) (c : UserID) : RoomQueues := { s with clients := s.clients.insert c }

def remove (s : RoomQueues) (c : UserID) : RoomQueues :=
  { s with clients := s.clients.filter (· ≠ c) }

/-- The non-blocking send of `Client.send`. -/
def offer (s : RoomQueues) (d : UserID) (raw : String) : RoomQueues :=
  { s with
    sendCh := Function.update s.sendCh d ((s.sendCh d).offer raw)
    panicked := s.panicked || (s.sendCh d).closed }

/-- The critical section of `cleanup`. -/
def close (s : RoomQueues) (c : UserID) : RoomQueues :=
  { s with
    closed := Function.update s.closed c true
    sendCh := Function.update s.sendCh c (s.sendCh c).close }

def run (s : RoomQueues) (c : UserID) : RoomQueues :=
  match s.loop c with
  | .joining => s.setLoop c .serving
  | .casting _ none [] phase => s.setLoop c phase.back
  | .casting raw none (d :: todo) phase =>
    if s.isObserver d then
      -- its deliver callback sends to the queue of its connection, which nobody checks
      s.setLoop c (if s.shut d then phase.unwound else .casting raw none todo phase)
    else if s.closed d then s.setLoop c (.casting raw none todo phase)
    else s.setLoop c (.casting raw (some d) todo phase)
  | .casting raw (some d) todo phase =>
    (s.setLoop c
      (if (s.sendCh d).closed then phase.unwound else .casting raw none todo phase)).offer d raw
  | .closing housed => (s.setLoop c (if housed then .leaving else .gone)).close c
  | .leaving => if s.unread then (s.setLoop c .departed).remove c else s
  | .departed => s.setLoop c .gone
  | _ => s

def broadcast (s : RoomQueues) (c : UserID) (kind : CastKind) (raw : String) (rank : UserID → ℕ)
    (phase : Phase) : RoomQueues :=
  s.setLoop c (.casting raw none (rangeBy rank (s.audience c kind)) phase)

def step (s : RoomQueues) : QueueLabel → RoomQueues
  | .join c =>
    match s.loop c with
    | .outside => if s.unread then (s.setLoop c .joining).enter c else s
    | _ => s
  | .observe o =>
    if s.unread && o ∉ s.clients then
      { s.enter o with isObserver := Function.update s.isObserver o true }
    else s
  | .unobserve o => if s.unread && s.isObserver o then s.remove o else s
  | .shut o => { s with shut := Function.update s.shut o true }
  | .broadcast c kind raw rank =>
    match s.loop c with
    | .joining => s.broadcast c kind raw rank .joining
    | .serving => s.broadcast c kind raw rank .serving
    | .departed => s.broadcast c kind raw rank .departed
    | _ => s
  | .exit c =>
    match s.loop c with
    | .serving => s.setLoop c (.closing true)
    | _ => s
  | .run c => s.run c
  | .send c raw => if s.closed c then s else s.offer c raw
  | .write c => { s with sendCh := Function.update s.sendCh c (s.sendCh c).receive }

end RoomQueues

/-- One room, from the moment it is created. -/
def roomQueues : Machine RoomQueues QueueLabel where
  init := {}
  step := RoomQueues.step

end Meetkit
