import Meetkit.Model.Room

/-! The home page's check of a form, made before the page opens its connection. -/

namespace Meetkit

def errMemberNameRequired := "成员名称不能为空"
def errStreamIDInUse := "流id已经被使用"

/-- The signaling room mode of a front-end business key. -/
def bizToMode : String → RoomMode
  | "call" => .call
  | "push" | "play" => .solo
  | _ => .meeting

namespace Hub

/-- The observers count. -/
def size (h : Hub) (r : RoomRef) : ℕ := (h.room r).clients.length

def hasNickname (h : Hub) (r : RoomRef) (nickname : String) : Bool :=
  (h.room r).clients.any fun c => (h.client c).nickname = nickname

/-- The branch of `CheckEntry` for those who may open a room. -/
def checkEntrant (h : Hub) (biz : String) (room : Option RoomRef) (nickname : String)
    (streamID : StreamID) : Option Err :=
  match room with
  | none => none
  | some r =>
    if 0 < h.size r ∧ (h.room r).mode ≠ bizToMode biz then some (.text errRoomInUse)
    else if 0 < h.size r ∧ biz = "push" ∧ h.hasPushMember r then some (.text errRoomInUse)
    else if 0 < h.size r ∧ nickname ≠ "" ∧ h.hasNickname r nickname then some (.text errUserInUse)
    else if biz = "push" ∧ streamID ≠ "" ∧ h.hasStreamID r streamID then
      some (.text errStreamIDInUse)
    else none

/-- The branch of `CheckEntry` for a player. -/
def checkPlayer (h : Hub) (room : Option RoomRef) (nickname : String) (streamID : StreamID) :
    Option Err :=
  match room with
  | none => some (.text errStreamNotFound)
  | some r =>
    if h.size r = 0 ∨ (h.room r).mode ≠ .solo then some (.text errStreamNotFound)
    else if streamID = "" ∨ !h.hasStreamID r streamID then some (.text errStreamNotFound)
    else if nickname = "" then some (.text errMemberNameRequired)
    else if h.hasNickname r nickname then some (.text errMemberNameInUse)
    else none

/-- `CheckEntry`. -/
def checkEntry (h : Hub) (biz room nickname streamID token : String) : Option Err :=
  match h.validateToken token with
  | some e => some e
  | none =>
    let biz := Text.trimSpace biz
    let room := Text.trimSpace room
    let nickname := Text.trimSpace nickname
    let streamID := Text.trimSpace streamID
    if room = "" then some (.text "room is required")
    else if biz = "meeting" ∨ biz = "call" ∨ biz = "push" then
      h.checkEntrant biz (h.getRoom room) nickname streamID
    else if biz = "play" then h.checkPlayer (h.getRoom room) nickname streamID
    else some (.text "invalid biz")

end Hub

end Meetkit
