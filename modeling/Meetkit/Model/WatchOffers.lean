import Meetkit.Model.AdminPage
import Meetkit.Model.Observe

/-! What the admin page offers to watch and what it sends when it is clicked: the room
table with its member picker, and the two messages that follow, an observe-join and an
offer to play. -/

namespace Meetkit

structure MonitorClient extends ClientJSON where
  userId : UserID
  nickname : String
  camOn : Bool
  streams : List StreamInfo
  deriving DecidableEq, Repr

structure MonitorRoom where
  id : RoomID
  mode : String
  members : ℕ
  realMembers : Option ℕ
  /-- A slice nothing was appended to is `null`. -/
  clients : Option (List MonitorClient)
  deriving DecidableEq, Repr

def ClientBrief.toMonitor (b : ClientBrief) : MonitorClient where
  toClientJSON := b.toJSON
  userId := b.userID
  nickname := b.nickname
  camOn := b.camOn
  streams := b.streams

def RoomStats.toMonitor (rs : RoomStats) : MonitorRoom where
  id := rs.id
  mode := rs.mode.text
  members := rs.members
  realMembers := some rs.realMembers
  clients := if rs.clients = [] then none else some (rs.clients.map (·.toMonitor))

/-- `latestHub.rooms`. -/
def HubStats.monitorRooms (hub : HubStats) : List MonitorRoom := hub.rooms.map (·.toMonitor)

/-- What a tile plays: the third argument of `startTile`. -/
inductive PlayTarget
  | member (userId : UserID) (kind : Kind)
  | solo (streamId : StreamID)
  deriving DecidableEq, Repr

/-- The payload of `playStream`. -/
def PlayTarget.offer (sdp : String) : PlayTarget → WebRTCOfferPayload
  | .member userId kind => { mode := "play", kind, targetUserID := userId, sdp }
  | .solo streamId => { mode := "play-solo", streamID := streamId, sdp }

structure MemberOption where
  userId : UserID
  nickname : String
  kind : Kind
  label : String
  deriving DecidableEq, Repr

/-- What a click comes to. -/
inductive WatchClick
  | toast (message : String)
  | pick (options : List MemberOption)
  | start (target : PlayTarget) (auditDetail : String)
  deriving DecidableEq, Repr

namespace MonitorRoom

def toJSON (room : MonitorRoom) : RoomJSON where
  mode := room.mode
  members := room.members
  realMembers := room.realMembers
  clients := room.clients.map fun cs => cs.map (·.toClientJSON)

def biz (room : MonitorRoom) : Option String := room.toJSON.roomBizType

/-- `room.clients || []` -/
def clientList (room : MonitorRoom) : List MonitorClient := room.clients.getD []

def memberOptions (c : MonitorClient) : List MemberOption :=
  if c.isObserver.getD false then []
  else
    let hasCam := (c.streams.any fun s => s.kind = "cam") || c.camOn
    let hasScreen := c.streams.any fun s => s.kind = "screen"
    (if hasCam then [⟨c.userId, c.nickname, "cam", "摄像头"⟩] else []) ++
      if hasScreen then [⟨c.userId, c.nickname, "screen", "屏幕共享"⟩] else []

def buildMemberOptions (room : MonitorRoom) : List MemberOption :=
  room.clientList.flatMap memberOptions

def openMemberPicker (room : MonitorRoom) : WatchClick :=
  if room.buildMemberOptions = [] then .toast "暂无可观看的成员画面"
  else .pick room.buildMemberOptions

/-- `nickname || streamId` -/
def orElse (s t : String) : String := if s = "" then t else s

def startPushTile (streamId : StreamID) (nickname : String) : WatchClick :=
  .start (.solo streamId) (orElse nickname streamId)

/-- `startMemberTile`, where the key is not yet in use. -/
def startMemberTile (room : MonitorRoom) (userId : UserID) (kind : Kind) : WatchClick :=
  let nickname := ((room.clientList.find? fun c => c.userId = userId).map (·.nickname)).getD ""
  .start (.member userId kind) (orElse nickname userId)

def maxTiles : ℕ := 16

def onWatchRoom (room : MonitorRoom) (tiles : ℕ) : WatchClick :=
  if maxTiles ≤ tiles then .toast "已达 16 路上限，请先停止观看某路画面"
  else if room.biz = some "push" then
    match room.clientList.find? fun c => RoomJSON.isPusher c.toClientJSON with
    | none => .toast "当前没有可观看的推流"
    | some pusher =>
      match pusher.streams.find? fun s => s.kind = "solo" with
      | none => .toast "当前没有可观看的推流"
      | some stream => startPushTile stream.streamID pusher.nickname
  else room.openMemberPicker

/-- What the room's watch button can lead to. -/
def watches (room : MonitorRoom) (tiles : ℕ) : List (PlayTarget × String) :=
  let started : WatchClick → List (PlayTarget × String)
    | .start target auditDetail => [(target, auditDetail)]
    | _ => []
  match room.onWatchRoom tiles with
  | .pick options => options.flatMap fun opt => started (room.startMemberTile opt.userId opt.kind)
  | click => started click

end MonitorRoom

/-- The messages of `startTile` on a connection of its own, `k` with the observer id `o`:
the join of `ensureRoomSession`, and the offer once the join was let through. -/
def World.watch (w : World) (env env' : Env) (k : ConnID) (o : UserID) (room : MonitorRoom)
    (reqID sdp : String) (target : PlayTarget) : World :=
  let w := World.observeReceive env w k "" (.join o (.ok ⟨room.id, room.mode⟩))
  if (w.conn k).client = some o then
    World.observeReceive env' w k reqID (.webrtcOffer (.ok (target.offer sdp)))
  else w

end Meetkit
