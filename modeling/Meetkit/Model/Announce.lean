import Meetkit.Model.Server

/-! The writes of an operation in the order the handlers make them, with the calls of
`notifyStatsChanged` between them, and what the statistics snapshot says once the
order of its lists is set aside. -/

namespace Meetkit

/-- A write to the hub, or a call of the stats hook. -/
inductive Deed
  | write (f : Hub → Hub)
  | notify

namespace Hub

def perform (h : Hub) : Deed → Hub
  | .write f => f h
  | .notify => h

def performAll (h : Hub) (ds : List Deed) : Hub := ds.foldl perform h

def setRoomOf (h : Hub) (c : UserID) (room : Option RoomRef) : Hub :=
  h.setClient c fun x => { x with room := room }

/-! ### Entering and leaving -/

/-- `handleJoin`. -/
def joinDeeds (h : Hub) (c : UserID) (p : Decoded JoinPayload) : List Deed :=
  match h.checkJoin c p with
  | .error _ => []
  | .ok (q, mode) =>
    let solo := if mode = .solo then [Deed.write fun h => (h.joinSolo c q).1] else []
    if mode = .solo ∧ (h.joinSolo c q).2.isSome then solo
    else
      let fields := solo ++ [.write fun h => h.joinFields c q]
      let r := ((h.performAll fields).getOrCreateRoom q.room mode).2
      let created := fields ++ [.write fun h => (h.getOrCreateRoom q.room mode).1]
      match (h.performAll created).admission r c mode with
      | some _ => created ++ [.write fun h => h.removeRoomIfEmpty r]
      | none =>
        created ++ [.write fun h => h.addTo r c, .notify, .write fun h => h.setRoomOf c (some r)]

/-- `handleObserveJoin`, from the allocation of the observer's client. -/
def observeJoinDeeds (r : RoomRef) (u : UserID) (adminUser : String) : List Deed :=
  [.write fun h => h.allocate u (observerClient u adminUser), .write fun h => h.addTo r u,
    .write fun h => h.setRoomOf u (some r), .notify, .write fun h => h.setRoomOf u (some r)]

/-- `removeClient` for an observer. -/
def removeObserverDeeds (h : Hub) (r : RoomRef) (c : UserID) : List Deed :=
  if c ∉ (h.room r).clients then []
  else [.write fun h => h.removeFrom r c, .write fun h => h.removeRoomIfEmpty r, .notify]

def observerLeaveDeeds (h : Hub) (c : UserID) : List Deed :=
  match (h.client c).room with
  | none => []
  | some r => .write (fun h => h.setRoomOf c none) :: (h.setRoomOf c none).removeObserverDeeds r c

/-- The loop of `dismissObservers`. -/
def dismissDeeds : Hub → List UserID → List Deed
  | _, [] => []
  | h, c :: cs =>
    h.observerLeaveDeeds c ++ dismissDeeds (h.performAll (h.observerLeaveDeeds c)) cs

def removeDeeds (h : Hub) (ord : MapOrder) (r : RoomRef) (c : UserID) : List Deed :=
  if h.isObserver c then h.removeObserverDeeds r c
  else if c ∉ (h.room r).clients then []
  else
    let out := [Deed.write fun h => h.removeFrom r c,
      .write fun h => h.setClient c fun x => { x with streams := ∅, recordings := ∅ }]
    let left := h.performAll out
    let dismissed :=
      if left.isBusinessActive r then []
      else left.dismissDeeds ((left.clientsOf ord r).filter fun c => left.isObserver c)
    out ++ dismissed ++ [.write fun h => h.removeRoomIfEmpty r, .notify]

def leaveDeeds (h : Hub) (ord : MapOrder) (c : UserID) : List Deed :=
  match (h.client c).room with
  | none => []
  | some r => .write (fun h => h.setRoomOf c none) :: (h.setRoomOf c none).removeDeeds ord r c

def cleanupDeeds (h : Hub) (ord : MapOrder) (c : UserID) : List Deed :=
  if (h.client c).closed then []
  else
    let close (h : Hub) : Hub := h.setClient c fun x => { x with closed := true }
    .write close :: match (h.client c).room with
      | none => []
      | some r => (close h).removeDeeds ord r c

/-! ### Administration -/

def kickDeeds (h : Hub) (ord : MapOrder) (c : UserID) : List Deed :=
  if (h.client c).hasConn then [] else h.leaveDeeds ord c

/-- `KickMember`. -/
def kickMemberDeeds (h : Hub) (ord : MapOrder) (roomID : RoomID) (c : UserID) : List Deed :=
  match h.getRoom roomID with
  | none => []
  | some r => if c ∉ (h.room r).clients ∨ h.isObserver c then [] else h.kickDeeds ord c

/-- The loop of `DissolveRoom`. -/
def kickAllDeeds (ord : MapOrder) : Hub → List UserID → List Deed
  | _, [] => []
  | h, c :: cs => h.kickDeeds ord c ++ kickAllDeeds ord (h.performAll (h.kickDeeds ord c)) cs

def dissolveDeeds (h : Hub) (ord : MapOrder) (roomID : RoomID) : List Deed :=
  match h.getRoom roomID with
  | none => []
  | some r => kickAllDeeds ord h ((h.clientsOf ord r).filter fun c => !h.isObserver c)

end Hub

namespace World

/-! ### In a room -/

def mediaDeeds (w : World) (c : UserID) (p : Decoded MediaStatePayload) : List Deed :=
  match w.requireRoom c, p with
  | .ok _, .ok p =>
    if w.hub.isObserver c then []
    else [.write fun h => h.setClient c fun x => { x with micOn := p.micOn, camOn := p.camOn }]
  | _, _ => []

/-- `c.streams[kind] = streamID`. -/
def writeStream (c : UserID) (kind : Kind) (streamID : StreamID) : Deed :=
  .write fun h => h.setClient c fun x => { x with streams := x.streams.insert kind streamID }

def writePull (c : UserID) (streamID : StreamID) (kind : Kind) (targetUserID : UserID) : Deed :=
  .write fun h => h.setClient c fun x =>
    { x with pulling := x.pulling.insert (pullKey streamID kind) ⟨streamID, kind, targetUserID⟩ }

/-- The writes that follow a successful exchange. -/
def registerDeeds (c : UserID) (p : WebRTCOfferPayload) (streamID : StreamID) : List Deed :=
  if p.mode = "publish" then [writeStream c p.kind streamID, .notify]
  else if p.mode = "publish-solo" then [writeStream c "solo" streamID, .notify]
  else if p.mode = "play" then [writePull c streamID p.kind p.targetUserID, .notify]
  else [writePull c streamID "solo" "", .notify]

def offerDeeds (env : Env) (w : World) (c : UserID) (p : Decoded WebRTCOfferPayload) : List Deed :=
  match w.requireRoom c, p with
  | .ok r, .ok p =>
    if p.sdp = "" ∨ w.hub.isObserver c ∧ p.mode ≠ "play" ∧ p.mode ≠ "play-solo" then []
    else match w.resolveOffer r c p, env.sdp with
      | .ok (streamID, _), .ok _ => registerDeeds c p streamID
      | _, _ => []
  | _, _ => []

def startedDeeds (w : World) (c : UserID) (p : Decoded StreamStartedPayload) : List Deed :=
  match w.requireRoom c, p with
  | .ok _, .ok p =>
    if w.hub.isObserver c ∨ p.kind = "" ∨ p.streamID = "" then []
    else [writeStream c p.kind p.streamID]
  | _, _ => []

def stoppedDeeds (w : World) (c : UserID) (p : Decoded StreamStoppedPayload) : List Deed :=
  match w.requireRoom c, p with
  | .ok _, .ok p =>
    if w.hub.isObserver c ∨ p.kind = "" then []
    else
      .write (fun h => h.setClient c fun x => { x with streams := x.streams.erase p.kind }) ::
        if ((w.hub.client c).streams.lookup p.kind).getD "" = "" then [] else [.notify]
  | _, _ => []

def recordDeeds (env : Env) (w : World) (c : UserID) (start : Bool)
    (p : Decoded RecordControlPayload) : List Deed :=
  match w.requireRoom c, p, env.record with
  | .ok _, .ok p, .ok () =>
    if w.hub.isObserver c ∨ (w.recordTarget env.order c p).2 = "" then []
    else
      [.write fun h => h.setClient c fun x =>
        { x with recordings := x.recordings.insert (w.recordTarget env.order c p).1 start }, .notify]
  | _, _, _ => []

def messageDeeds (env : Env) (w : World) (c : UserID) : Body → List Deed
  | .join p => w.hub.joinDeeds c p
  | .mediaState p => w.mediaDeeds c p
  | .webrtcOffer p => offerDeeds env w c p
  | .streamStarted p => w.startedDeeds c p
  | .streamStopped p => w.stoppedDeeds c p
  | .recordControl start p => recordDeeds env w c start p
  | .leave | .chat _ | .unknown _ => []

/-- An observe-join that is let in. -/
def observeJoinDeeds (env : Env) (w : World) (k : ConnID) (u : UserID) :
    Decoded ObserveJoinPayload → List Deed
  | .error _ => []
  | .ok p =>
    match w.hub.getRoom (Text.trimSpace p.room) with
    | none => []
    | some r =>
      if (w.conn k).client.isSome ∨ Text.trimSpace p.room = "" ∨
        (w.hub.observeGate env.order r p.mode).isSome then []
      else Hub.observeJoinDeeds r u (w.conn k).username

def observeLeaveDeeds (w : World) (k : ConnID) : List Deed :=
  match (w.conn k).client with
  | none => []
  | some u => w.hub.observerLeaveDeeds u

def observeDeeds (env : Env) (w : World) (k : ConnID) : ObserveBody → List Deed
  | .join u p => observeJoinDeeds env w k u p
  | .leave => w.observeLeaveDeeds k
  | .webrtcOffer p =>
    match (w.conn k).client with
    | none => []
    | some u => offerDeeds env w u p
  | .watchStop _ | .unknown _ => []

/-- The writes of one step of the server. -/
def deeds (w : World) (i : Input) : List Deed :=
  match i.op with
  | .connect c => if c ∈ w.hub.used then [] else [.write fun h => h.allocate c newClient]
  | .receive c e => if w.serving c then messageDeeds i.env w c e.body else []
  | .disconnect c => if w.serving c then w.hub.cleanupDeeds i.env.order c else []
  | .kick roomID userID _ => w.hub.kickMemberDeeds i.env.order roomID userID
  | .dissolve roomID _ => w.hub.dissolveDeeds i.env.order roomID
  | .observe k _ body =>
    if (w.conn k).opened && !(w.conn k).closed && w.observeFresh body then
      observeDeeds i.env w k body
    else []
  | .observeClose k =>
    if (w.conn k).opened && !(w.conn k).closed then w.observeLeaveDeeds k else []
  | .badEnvelope .. | .goroutine _ | .observeOpen .. => []

end World

/-! ### What the snapshot says -/

/-- A client of the snapshot, its streams in no order. -/
structure BriefContent where
  nickname : String
  soloRole : Option SoloRole
  plannedStreamID : StreamID
  micOn : Bool
  camOn : Bool
  streams : Kind → Option StreamID
  recording : Bool
  isObserver : Bool
  clientPlatform : String

/-- A room of the snapshot, its clients in no order. -/
structure RoomContent where
  mode : RoomMode
  members : ℕ
  realMembers : ℕ
  observers : ℕ
  clients : UserID → Option BriefContent

def ClientBrief.content (b : ClientBrief) : BriefContent where
  nickname := b.nickname
  soloRole := b.soloRole
  plannedStreamID := b.plannedStreamID
  micOn := b.micOn
  camOn := b.camOn
  streams := fun kind => (b.streams.find? fun s => s.kind = kind).map (·.streamID)
  recording := b.recording
  isObserver := b.isObserver
  clientPlatform := b.clientPlatform

def RoomStats.content (rs : RoomStats) : RoomContent where
  mode := rs.mode
  members := rs.members
  realMembers := rs.realMembers
  observers := rs.observers
  clients := fun u => (rs.clients.find? fun b => b.userID = u).map (·.content)

/-- The snapshot with its rooms in no order; the totals are sums over these. -/
def HubStats.content (s : HubStats) (id : RoomID) : Option RoomContent :=
  (s.rooms.find? fun rs => rs.id = id).map (·.content)

end Meetkit
