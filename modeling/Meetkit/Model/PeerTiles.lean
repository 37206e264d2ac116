import Meetkit.Model.MeetingPage

/-! What the meeting page shows of the others: a tile for every peer's camera and for every
other stream of a peer, with its name and its badges. The handlers run beside the pulls of
`MeetingPage`, whose peers, connections and generations decide what they do. The ids are
of one length, so that `peer-${userId}-${kind}` stands for the user and the kind. -/

namespace Meetkit

structure MediaStream where
  id : ℕ
  hasVideo : Bool
  deriving DecidableEq, Repr

/-- The options of `upsertTile` for a peer's tile. -/
structure TileOpts where
  nickname : Option String := none
  isScreen : Bool := false
  /-- `some none` is `stream: null`. -/
  stream : Option (Option MediaStream) := none
  recording : Option Bool := none

structure PeerTile where
  isScreen : Bool
  mirrored : Bool
  nameTag : String := ""
  badges : List String := []
  noVideo : Bool := false
  fallback : String := ""
  stream : Option MediaStream := none
  recording : Bool := false
  deriving DecidableEq, Repr

def shouldMirrorVideo (isScreen : Bool) : Bool := !isScreen

/-- `userId.slice(0, 6)` -/
def shortName (userId : UserID) : String := String.ofList (userId.toList.take 6)

namespace PeerTile

def create (opts : TileOpts) : PeerTile where
  isScreen := opts.isScreen
  mirrored := shouldMirrorVideo opts.isScreen

def screenSuffix (isScreen : Bool) : String := if isScreen then "（屏幕）" else ""

def apply (entry : PeerTile) (opts : TileOpts) : PeerTile :=
  { entry with
    nameTag := match opts.nickname with
      | some nickname => nickname ++ screenSuffix opts.isScreen
      | none => entry.nameTag
    noVideo := match opts.stream with
      | some (some stream) => entry.noVideo && !stream.hasVideo
      | _ => entry.noVideo
    stream := opts.stream.getD entry.stream
    recording := opts.recording.getD entry.recording }

def badgesOf (micOn camOn : Bool) : List String :=
  (if micOn then [] else ["🔇"]) ++ if camOn then [] else ["🚫📹"]

def setBadges (entry : PeerTile) (micOn camOn : Bool) : PeerTile :=
  { entry with
    badges := badgesOf micOn camOn
    noVideo := !camOn
    fallback := if camOn then entry.fallback else entry.nameTag }

end PeerTile

structure PeerTiles where
  page : MeetingPage := {}
  myUserId : Option UserID := none
  /-- `peer.nickname` -/
  nickname : PeerRef → String := fun _ => ""
  /-- The nickname that the pull of this generation was started with. -/
  pullName : PeerRef → Kind → ℕ → String := fun _ _ _ => ""
  tile : UserID → Kind → Option PeerTile := fun _ _ => none

inductive TileEvent
  | message (m : ServerMsg)
  /-- A track arrives on a connection. -/
  | track (pc : PC) (stream : MediaStream)
  | connectionFailed (pc : PC)
  | retryExistingPeerPulls
  | played (id : PullId)
  | playFailed (id : PullId)
  | slept (id : PullId)
  | settled (id : PullId)

namespace PeerTiles

def setTile (s : PeerTiles) (userId : UserID) (kind : Kind) (t : Option PeerTile) : PeerTiles :=
  { s with tile := Function.update s.tile userId (Function.update (s.tile userId) kind t) }

def setPage (s : PeerTiles) (page : MeetingPage) : PeerTiles := { s with page }

def upsertTile (s : PeerTiles) (userId : UserID) (kind : Kind) (opts : TileOpts) : PeerTiles :=
  s.setTile userId kind (some (((s.tile userId kind).getD (.create opts)).apply opts))

def removeTile (s : PeerTiles) (userId : UserID) (kind : Kind) : PeerTiles :=
  s.setTile userId kind none

def updateBadges (s : PeerTiles) (userId : UserID) (kind : Kind) (micOn camOn : Bool) : PeerTiles :=
  s.setTile userId kind ((s.tile userId kind).map (·.setBadges micOn camOn))

/-- What `ensurePeer` does to the nickname. A nickname that is not given is empty. -/
def ensureName (s : PeerTiles) (userId : UserID) (nickname : String) : PeerTiles :=
  match s.page.peers.lookup userId with
  | some r =>
    if nickname = "" then s else { s with nickname := Function.update s.nickname r nickname }
  | none =>
    { s with
      nickname := Function.update s.nickname s.page.newPeer
        (if nickname = "" then shortName userId else nickname) }

def ensurePeer (s : PeerTiles) (userId : UserID) (nickname : String) : PeerTiles :=
  (s.ensureName userId nickname).setPage (s.page.ensurePeer userId).1

/-- `peer.nickname` of the entry under this id. -/
def peerName (s : PeerTiles) (userId : UserID) : String :=
  match s.page.peers.lookup userId with
  | some r => s.nickname r
  | none => ""

/-- The badges are left alone where the media state is not given. -/
def ensurePeerPlaceholderTile (s : PeerTiles) (userId : UserID) (nickname : String)
    (media : Option (Bool × Bool)) : PeerTiles :=
  let s := s.ensurePeer userId nickname
  let s := s.upsertTile userId "cam" { nickname := some (s.peerName userId) }
  match media with
  | some (micOn, camOn) => s.updateBadges userId "cam" micOn camOn
  | none => s

def notePeerStreamKind (s : PeerTiles) (userId : UserID) (kind : Kind) : PeerTiles :=
  if kind = "" then s
  else (s.ensurePeer userId "").setPage (s.page.notePeerStreamKind userId kind)

def startPullingPeerStream (s : PeerTiles) (userId : UserID) (nickname : String) (kind : Kind)
    (preemptive force : Bool) : PeerTiles :=
  let (ensured, r) := s.page.ensurePeer userId
  let busy := ((ensured.entry r).pc kind).isSome || (ensured.entry r).pulling kind
  let pullGen := (ensured.entry r).pullGen kind + 1
  let page := s.page.startPullingPeerStream userId kind preemptive force
  let s := s.ensurePeer userId nickname
  if busy && !force then s
  else
    let s := s.upsertTile userId kind
      { nickname := some (s.nickname r), isScreen := kind = "screen" }
    let gens := Function.update (s.pullName r kind) pullGen nickname
    { s with
      page
      pullName := Function.update s.pullName r (Function.update (s.pullName r) kind gens) }

def joinedPeer (s : PeerTiles) (peer : PeerInfo) : PeerTiles :=
  peer.streams.foldl (fun s stream =>
    (s.notePeerStreamKind peer.userID stream.kind).startPullingPeerStream peer.userID peer.nickname
      stream.kind true false)
    (s.ensurePeerPlaceholderTile peer.userID peer.nickname (some (peer.micOn, peer.camOn)))

def joined (s : PeerTiles) (p : JoinedPayload) : PeerTiles :=
  p.peers.foldl joinedPeer { s with myUserId := some p.userID }

def peerLeft (s : PeerTiles) (userId : UserID) : PeerTiles :=
  ((s.setPage (s.page.peerLeft userId)).removeTile userId "cam").removeTile userId "screen"

def peerStreamStarted (s : PeerTiles) (p : PeerStreamPayload) : PeerTiles :=
  let s := (s.notePeerStreamKind p.userID p.kind).ensurePeer p.userID ""
  s.startPullingPeerStream p.userID (s.peerName p.userID) p.kind true true

def peerStreamStopped (s : PeerTiles) (p : PeerStreamPayload) : PeerTiles :=
  let known := (s.page.peers.lookup p.userID).isSome
  let s := s.setPage (s.page.peerStreamStopped p.userID p.kind)
  if p.kind = "cam" && known then
    (s.ensurePeerPlaceholderTile p.userID (s.peerName p.userID) none).upsertTile p.userID "cam"
      { stream := some none }
  else s.removeTile p.userID p.kind

/-- A record-state of one's own goes to the tiles of one's own. -/
def recordState (s : PeerTiles) (p : RecordStatePayload) : PeerTiles :=
  if s.myUserId = some p.userID then s
  else s.upsertTile p.userID p.kind { recording := some p.recording }

def onMessage (s : PeerTiles) : ServerMsg → PeerTiles
  | .joined p => s.joined p
  | .peerJoined p => s.ensurePeerPlaceholderTile p.userID p.nickname (some (p.micOn, p.camOn))
  | .peerLeft userId => s.peerLeft userId
  | .peerState p => s.ensurePeerPlaceholderTile p.userID "" (some (p.micOn, p.camOn))
  | .peerStreamStarted p => s.peerStreamStarted p
  | .peerStreamStopped p => s.peerStreamStopped p
  | .recordState p => s.recordState p
  | _ => s

/-- `onTrack` of a pull. A closed connection fires no event. -/
def track (s : PeerTiles) (pc : PC) (stream : MediaStream) : PeerTiles :=
  match s.page.conn pc with
  | some c =>
    if c.closed then s
    else if (s.page.entry c.peer).pullGen c.kind ≠ c.pullGen then s
    else s.upsertTile c.userId c.kind { stream := some (some stream) }
  | none => s

def connectionFailed (s : PeerTiles) (pc : PC) : PeerTiles :=
  match s.page.conn pc with
  | some c =>
    let peer := s.page.entry c.peer
    if c.closed then s
    else if peer.pullGen c.kind ≠ c.pullGen then s
    else if peer.pc c.kind ≠ (if c.returned then some pc else none) then s
    else
      let retries := peer.failRetries c.kind + 1
      let s := s.setPage
        ((s.page.setFailRetries c.peer c.kind retries).stopPeerPull c.peer c.kind)
      if 4 ≤ retries then s
      else
        s.startPullingPeerStream c.userId (s.pullName c.peer c.kind c.pullGen) c.kind true true
  | none => s

/-- The kinds an entry is pulled again for. -/
def retryKinds (page : MeetingPage) (r : PeerRef) : List Kind :=
  let expected := (page.entry r).expectedKinds
  if expected = [] then ["cam"] else expected

def retryExistingPeerPulls (s : PeerTiles) : PeerTiles :=
  s.page.peers.entries.reverse.foldl (fun s e =>
    (retryKinds s.page e.2).foldl (fun s kind =>
      s.startPullingPeerStream e.1 (s.nickname e.2) kind true true) s) s

def step (s : PeerTiles) : TileEvent → PeerTiles
  | .message m => s.onMessage m
  | .track pc stream => s.track pc stream
  | .connectionFailed pc => s.connectionFailed pc
  | .retryExistingPeerPulls => s.retryExistingPeerPulls
  | .played id => s.setPage (s.page.played id)
  | .playFailed id => s.setPage (s.page.playFailed id)
  | .slept id => s.setPage (s.page.slept id)
  | .settled id => s.setPage (s.page.settled id)

end PeerTiles

def peerTiles : Machine PeerTiles TileEvent where
  init := {}
  step := PeerTiles.step

/-- What a tile event is to the pulls of the page. -/
def TileEvent.label : TileEvent → Option MeetingLabel
  | .message (.joined p) =>
    some (.joined (p.peers.map fun peer => (peer.userID, peer.streams.map (·.kind))))
  | .message (.peerJoined p) => some (.peerJoined p.userID)
  | .message (.peerLeft userId) => some (.peerLeft userId)
  | .message (.peerState p) => some (.peerState p.userID)
  | .message (.peerStreamStarted p) => some (.peerStreamStarted p.userID p.kind)
  | .message (.peerStreamStopped p) => some (.peerStreamStopped p.userID p.kind)
  | .message _ => none
  | .track _ _ => none
  | .connectionFailed pc => some (.connectionFailed pc)
  | .retryExistingPeerPulls => some .retryExistingPeerPulls
  | .played id => some (.played id)
  | .playFailed id => some (.playFailed id)
  | .slept id => some (.slept id)
  | .settled id => some (.settled id)

end Meetkit
