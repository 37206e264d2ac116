import Meetkit.Model.TileSessions

/-! The tiles of the admin page by whom they show. A tile is started for a member of a
room or for a stream pushed in one; its key is made of these, joined by colons, and
`syncTilesWithHub` reads the member off the key again. -/

namespace Meetkit

/-- What `uuid.NewString` returns. -/
def isUuid (s : String) : Bool :=
  s.toList.length = 36 && s.toList.zipIdx.all fun c =>
    if c.2 ∈ [8, 13, 18, 23] then c.1 = '-'
    else ('0' ≤ c.1 && c.1 ≤ '9') || ('a' ≤ c.1 && c.1 ≤ 'f')

structure Uuid where
  text : UserID
  valid : isUuid text = true

/-- The callers of `startMemberTile` pass no other kinds. -/
inductive MemberKind
  | cam | screen
  deriving DecidableEq

def MemberKind.text : MemberKind → Kind
  | cam => "cam"
  | screen => "screen"

def tileKeyMember (roomId : RoomID) (userId : UserID) (kind : Kind) : TileKey :=
  roomId ++ ":" ++ userId ++ ":" ++ kind

def tileKeyPush (roomId : RoomID) (streamId : StreamID) : TileKey := roomId ++ ":push:" ++ streamId

namespace TileSessions

/-- `clients` are the user ids and nicknames of `room.clients`. -/
def startMemberTile (s : TileSessions) (room : RoomID) (clients : List (UserID × String))
    (userId : UserID) (kind : Kind) : TileSessions :=
  let nickname := ((clients.find? fun c => c.1 = userId).map (·.2)).getD ""
  let auditDetail := if nickname = "" then userId else nickname
  s.startTile (tileKeyMember room userId kind) room auditDetail

def startPushTile (s : TileSessions) (room : RoomID) (streamId : StreamID) (nickname : String) :
    TileSessions :=
  s.startTile (tileKeyPush room streamId) room (if nickname = "" then streamId else nickname)

end TileSessions

inductive TileLabel
  | startMemberTile (room : RoomID) (clients : List (UserID × String)) (userId : Uuid)
    (kind : MemberKind)
  | startPushTile (room : RoomID) (streamId : StreamID) (nickname : String)
  /-- Whatever else happens on the page; nobody else starts tiles. -/
  | other (l : WatchLabel)

/-- The observe sessions with the two callers of `startTile`. -/
def memberTiles : Machine TileSessions TileLabel where
  init := {}
  step s
    | .startMemberTile room clients userId kind =>
      s.startMemberTile room clients userId.text kind.text
    | .startPushTile room streamId nickname => s.startPushTile room streamId nickname
    | .other (.startTile ..) => s
    | .other l => s.step l

end Meetkit
