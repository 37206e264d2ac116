import Mathlib.Logic.Function.Basic
import Meetkit.Lib.GoMap
import Meetkit.Lib.Machine
import Meetkit.Model.Message

/-! The pull connections of the meeting page. An entry of `state.peers` is an object
that a pull keeps hold of across its awaits, so entries, connections and pulls are
numbered and live on when `state.peers` has forgotten them. A step is an event handler,
or what runs when an await of a pull resumes. A kind is none of the names that an entry
has for its other fields. -/

namespace Meetkit

abbrev PeerRef := ℕ

abbrev PC := ℕ

abbrev PullId := ℕ

structure PeerEntry where
  expectedKinds : List Kind := []
  /-- `peer[kind].pc` -/
  pc : Kind → Option PC := fun _ => none
  pullGen : Kind → ℕ := fun _ => 0
  failRetries : Kind → ℕ := fun _ => 0
  /-- Whether the entry has a promise under the inflight key. -/
  pulling : Kind → Bool := fun _ => false

/-- A peer connection, with what the handler of its state changes has captured. -/
structure Conn where
  peer : PeerRef
  userId : UserID
  kind : Kind
  pullGen : ℕ
  /-- `playStream` has returned it to its pull. -/
  returned : Bool := false
  closed : Bool := false
  deriving DecidableEq, Repr

inductive PullPhase
  /-- In `playStream`, which has made this connection. -/
  | playing (pc : PC)
  | sleeping
  /-- The pull is over, what is left is to delete the inflight key. -/
  | ended

structure Pull where
  peer : PeerRef
  userId : UserID
  kind : Kind
  pullGen : ℕ
  attempt : ℕ := 0
  maxAttempts : ℕ
  phase : PullPhase := .sleeping

structure MeetingPage where
  /-- `state.peers`, the entry that was set last first. -/
  peers : GoMap UserID PeerRef := ∅
  entry : PeerRef → PeerEntry := fun _ => {}
  conn : PC → Option Conn := fun _ => none
  pull : PullId → Option Pull := fun _ => none
  newPeer : PeerRef := 0
  newPC : PC := 0
  newPull : PullId := 0

inductive MeetingLabel
  /-- `joined`, with the peers in the room and the kinds they stream. -/
  | joined (peers : List (UserID × List Kind))
  | peerJoined (userId : UserID)
  | peerLeft (userId : UserID)
  | peerState (userId : UserID)
  | peerStreamStarted (userId : UserID) (kind : Kind)
  | peerStreamStopped (userId : UserID) (kind : Kind)
  /-- The state of a connection becomes `failed` or `disconnected`. -/
  | connectionFailed (pc : PC)
  | retryExistingPeerPulls
  /-- `playStream` resumes the pull with its connection. -/
  | played (id : PullId)
  /-- `playStream` throws. -/
  | playFailed (id : PullId)
  | slept (id : PullId)
  /-- The `finally` of a pull that is over. -/
  | settled (id : PullId)

namespace MeetingPage

def modifyEntry (s : MeetingPage) (r : PeerRef) (f : PeerEntry → PeerEntry) : MeetingPage :=
  { s with entry := Function.update s.entry r (f (s.entry r)) }

def setPC (s : MeetingPage) (r : PeerRef) (kind : Kind) (pc : Option PC) : MeetingPage :=
  s.modifyEntry r fun peer => { peer with pc := Function.update peer.pc kind pc }

def setPulling (s : MeetingPage) (r : PeerRef) (kind : Kind) (b : Bool) : MeetingPage :=
  s.modifyEntry r fun peer => { peer with pulling := Function.update peer.pulling kind b }

def setFailRetries (s : MeetingPage) (r : PeerRef) (kind : Kind) (n : ℕ) : MeetingPage :=
  s.modifyEntry r fun peer => { peer with failRetries := Function.update peer.failRetries kind n }

def bumpPullGen (s : MeetingPage) (r : PeerRef) (kind : Kind) : MeetingPage :=
  s.modifyEntry r fun peer =>
    { peer with pullGen := Function.update peer.pullGen kind (peer.pullGen kind + 1) }

def setPull (s : MeetingPage) (id : PullId) (p : Option Pull) : MeetingPage :=
  { s with pull := Function.update s.pull id p }

def modifyConn (s : MeetingPage) (pc : PC) (f : Conn → Conn) : MeetingPage :=
  { s with conn := Function.update s.conn pc ((s.conn pc).map f) }

def closePC (s : MeetingPage) (pc : PC) : MeetingPage := s.modifyConn pc ({ · with closed := true })

def setReturned (s : MeetingPage) (pc : PC) : MeetingPage :=
  s.modifyConn pc ({ · with returned := true })

def addPeer (s : MeetingPage) (userId : UserID) : MeetingPage :=
  { s with
    peers := s.peers.insert userId s.newPeer
    entry := Function.update s.entry s.newPeer {}
    newPeer := s.newPeer + 1 }

def ensurePeer (s : MeetingPage) (userId : UserID) : MeetingPage × PeerRef :=
  match s.peers.lookup userId with
  | some r => (s, r)
  | none => (s.addPeer userId, s.newPeer)

def notePeerStreamKind (s : MeetingPage) (userId : UserID) (kind : Kind) : MeetingPage :=
  if kind = "" then s
  else
    let (s, r) := s.ensurePeer userId
    s.modifyEntry r fun peer =>
      { peer with
        expectedKinds :=
          if kind ∈ peer.expectedKinds then peer.expectedKinds
          else peer.expectedKinds ++ [kind] }

def stopPeerPull (s : MeetingPage) (r : PeerRef) (kind : Kind) : MeetingPage :=
  match (s.entry r).pc kind with
  | some pc => (s.closePC pc).setPC r kind none
  | none => s

/-- The part of `playStream` before its first await. -/
def playStream (s : MeetingPage) (id : PullId) (p : Pull) : MeetingPage :=
  let c : Conn := { peer := p.peer, userId := p.userId, kind := p.kind, pullGen := p.pullGen }
  { s with
    conn := Function.update s.conn s.newPC (some c)
    newPC := s.newPC + 1
    pull := Function.update s.pull id (some { p with phase := .playing s.newPC }) }

/-- One round of the loop of a pull, up to an await. -/
def attemptPull (s : MeetingPage) (id : PullId) (p : Pull) : MeetingPage :=
  let peer := s.entry p.peer
  if p.maxAttempts ≤ p.attempt ∨ peer.pullGen p.kind ≠ p.pullGen ∨ (peer.pc p.kind).isSome then
    s.setPull id (some { p with phase := .ended })
  else s.playStream id p

def pullPeerStreamWithRetry (s : MeetingPage) (userId : UserID) (kind : Kind) (preemptive : Bool)
    (pullGen : ℕ) : MeetingPage :=
  let (s, r) := s.ensurePeer userId
  { s with newPull := s.newPull + 1 }.attemptPull s.newPull
    { peer := r, userId := userId, kind := kind, pullGen := pullGen
      maxAttempts := if preemptive then 30 else 3 }

def startPullingPeerStream (s : MeetingPage) (userId : UserID) (kind : Kind)
    (preemptive force : Bool) : MeetingPage :=
  let (s, r) := s.ensurePeer userId
  let s := if force then (s.stopPeerPull r kind).setPulling r kind false else s
  if ((s.entry r).pc kind).isSome && !force then s
  else if (s.entry r).pulling kind && !force then s
  else
    let s := s.bumpPullGen r kind
    let pullGen := (s.entry r).pullGen kind
    (s.pullPeerStreamWithRetry userId kind preemptive pullGen).setPulling r kind true

def joined (s : MeetingPage) (peers : List (UserID × List Kind)) : MeetingPage :=
  peers.foldl (fun s peer =>
    peer.2.foldl (fun s kind =>
      (s.notePeerStreamKind peer.1 kind).startPullingPeerStream peer.1 kind true false)
      (s.ensurePeer peer.1).1) s

/-- `if (peer[kind]) closePC(peer[kind].pc)` -/
def closeStream (s : MeetingPage) (r : PeerRef) (kind : Kind) : MeetingPage :=
  match (s.entry r).pc kind with
  | some pc => s.closePC pc
  | none => s

def peerLeft (s : MeetingPage) (userId : UserID) : MeetingPage :=
  let s' := match s.peers.lookup userId with
    | some r => (s.closeStream r "cam").closeStream r "screen"
    | none => s
  { s' with peers := s'.peers.erase userId }

def peerStreamStarted (s : MeetingPage) (userId : UserID) (kind : Kind) : MeetingPage :=
  ((s.notePeerStreamKind userId kind).ensurePeer userId).1.startPullingPeerStream userId kind
    true true

/-- Where the entry is there, `ensurePeerPlaceholderTile` adds nothing. -/
def peerStreamStopped (s : MeetingPage) (userId : UserID) (kind : Kind) : MeetingPage :=
  match s.peers.lookup userId with
  | some r => s.stopPeerPull r kind
  | none => s

def retryExistingPeerPulls (s : MeetingPage) : MeetingPage :=
  s.peers.entries.reverse.foldl (fun s e =>
    let expected := (s.entry e.2).expectedKinds
    (if expected = [] then ["cam"] else expected).foldl
      (fun s kind => s.startPullingPeerStream e.1 kind true true) s) s

/-- `onState` of a connection. A closed connection fires no event. -/
def connectionFailed (s : MeetingPage) (pc : PC) : MeetingPage :=
  match s.conn pc with
  | some c =>
    let peer := s.entry c.peer
    if c.closed then s
    else if peer.pullGen c.kind ≠ c.pullGen then s
    else if peer.pc c.kind ≠ (if c.returned then some pc else none) then s
    else
      let retries := peer.failRetries c.kind + 1
      let s := (s.setFailRetries c.peer c.kind retries).stopPeerPull c.peer c.kind
      if 4 ≤ retries then s else s.startPullingPeerStream c.userId c.kind true true
  | none => s

def played (s : MeetingPage) (id : PullId) : MeetingPage :=
  match s.pull id with
  | some p =>
    match p.phase with
    | .playing pc =>
      let s := s.setReturned pc
      let s := if (s.entry p.peer).pullGen p.kind ≠ p.pullGen then s.closePC pc
        else (s.setFailRetries p.peer p.kind 0).setPC p.peer p.kind (some pc)
      s.setPull id (some { p with phase := .ended })
    | _ => s
  | none => s

/-- `playStream` closes the connection it has made. -/
def playFailed (s : MeetingPage) (id : PullId) : MeetingPage :=
  match s.pull id with
  | some p =>
    match p.phase with
    | .playing pc =>
      (s.closePC pc).setPull id
        (some { p with phase := if p.maxAttempts ≤ p.attempt + 1 then .ended else .sleeping })
    | _ => s
  | none => s

def slept (s : MeetingPage) (id : PullId) : MeetingPage :=
  match s.pull id with
  | some p =>
    match p.phase with
    | .sleeping => s.attemptPull id { p with attempt := p.attempt + 1 }
    | _ => s
  | none => s

def settled (s : MeetingPage) (id : PullId) : MeetingPage :=
  match s.pull id with
  | some p =>
    match p.phase with
    | .ended => (s.setPull id none).setPulling p.peer p.kind false
    | _ => s
  | none => s

def step (s : MeetingPage) : MeetingLabel → MeetingPage
  | .joined peers => s.joined peers
  | .peerJoined userId => (s.ensurePeer userId).1
  | .peerLeft userId => s.peerLeft userId
  | .peerState userId => (s.ensurePeer userId).1
  | .peerStreamStarted userId kind => s.peerStreamStarted userId kind
  | .peerStreamStopped userId kind => s.peerStreamStopped userId kind
  | .connectionFailed pc => s.connectionFailed pc
  | .retryExistingPeerPulls => s.retryExistingPeerPulls
  | .played id => s.played id
  | .playFailed id => s.playFailed id
  | .slept id => s.slept id
  | .settled id => s.settled id

end MeetingPage

/-- What the events said last of a stream (`false` for stopped) and of a user (`false`
for left). No function of the page reads it. -/
structure Heard where
  stream : UserID → Kind → Option Bool := fun _ _ => none
  member : UserID → Option Bool := fun _ => none

namespace Heard

def hearMember (h : Heard) (userId : UserID) (b : Bool) : Heard :=
  { h with member := Function.update h.member userId (some b) }

def hearStream (h : Heard) (userId : UserID) (kind : Kind) (b : Bool) : Heard :=
  let kinds := Function.update (h.stream userId) kind (some b)
  { h with stream := Function.update h.stream userId kinds }

def hear (h : Heard) : MeetingLabel → Heard
  | .joined peers => peers.foldl (fun h peer =>
      peer.2.foldl (fun h kind => h.hearStream peer.1 kind true) (h.hearMember peer.1 true)) h
  | .peerJoined userId => h.hearMember userId true
  | .peerLeft userId => h.hearMember userId false
  | .peerStreamStarted userId kind => h.hearStream userId kind true
  | .peerStreamStopped userId kind => h.hearStream userId kind false
  | _ => h

end Heard

structure Meeting where
  page : MeetingPage := {}
  heard : Heard := {}

def meeting : Machine Meeting MeetingLabel where
  init := {}
  step m l := ⟨m.page.step l, m.heard.hear l⟩

end Meetkit
