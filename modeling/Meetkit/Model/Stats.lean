import Mathlib.Algebra.GroupWithZero.Nat
import Meetkit.Model.World

/-! What the admin pages are shown of the hub: the statistics snapshot and the
member list. -/

namespace Meetkit

structure ClientBrief where
  userID : UserID
  nickname : String
  soloRole : Option SoloRole
  plannedStreamID : StreamID
  micOn : Bool
  camOn : Bool
  streams : List StreamInfo
  recording : Bool
  isObserver : Bool
  clientPlatform : String
  deriving DecidableEq, Repr

structure RoomStats where
  id : RoomID
  mode : RoomMode
  members : ℕ
  realMembers : ℕ
  observers : ℕ
  clients : List ClientBrief
  deriving DecidableEq, Repr

structure HubStats where
  totalRooms : ℕ
  totalClients : ℕ
  totalObservers : ℕ
  roomsByMode : RoomMode → ℕ
  clientsByMode : RoomMode → ℕ
  rooms : List RoomStats

structure PullBrief where
  kind : Kind
  streamID : StreamID
  targetUserID : UserID
  deriving DecidableEq, Repr

structure MemberRow where
  biz : String
  roomID : RoomID
  roomDisplay : String
  userID : UserID
  nickname : String
  streamKind : Kind := ""
  streamID : StreamID := ""
  streamLabel : String
  streamOnline : Bool := false
  recording : Bool := false
  clientPlatform : String
  deriving DecidableEq, Repr

namespace Hub

def clientBrief (h : Hub) (ord : MapOrder) (c : UserID) : ClientBrief where
  userID := c
  nickname := (h.client c).nickname
  soloRole := (h.client c).soloRole
  plannedStreamID := (h.client c).plannedStreamID
  micOn := (h.client c).micOn
  camOn := (h.client c).camOn
  streams := ((h.client c).streams.range (ord.streams c)).map fun e => ⟨e.1, e.2⟩
  recording := (h.client c).recordings.entries.any fun e => e.2
  isObserver := h.isObserver c
  clientPlatform := (h.client c).clientPlatform

def roomStats (h : Hub) (ord : MapOrder) (r : RoomRef) : RoomStats where
  id := (h.room r).id
  mode := (h.room r).mode
  members := (h.room r).clients.length
  realMembers := (h.members r).length
  observers := ((h.room r).clients.filter h.isObserver).length
  clients := (h.clientsOf ord r).map (h.clientBrief ord)

/-- The rooms of the table in the order of a loop over it. -/
def roomRefs (h : Hub) (ord : MapOrder) : List RoomRef := (h.rooms.range ord.rooms).map Prod.snd

def statsSnapshot (h : Hub) (ord : MapOrder) : HubStats :=
  let rooms := (h.roomRefs ord).map (h.roomStats ord)
  { totalRooms := rooms.length
    totalClients := (rooms.map (·.realMembers)).sum
    totalObservers := (rooms.map (·.observers)).sum
    roomsByMode := fun m => (rooms.filter (·.mode = m)).length
    clientsByMode := fun m => ((rooms.filter (·.mode = m)).map (·.realMembers)).sum
    rooms }

/-! ### The member list -/

def memberRoomVisible (h : Hub) (r : RoomRef) : Bool :=
  if h.members r = [] then false
  else if (h.room r).mode = .solo then (h.members r).any fun c => (h.client c).soloRole.isSome
  else true

def publishKindLabel (kind : Kind) : String :=
  if kind = "cam" then "摄像头"
  else if kind = "screen" then "屏幕共享"
  else if kind = "solo" then "推流"
  else kind

def pullStreamLabel (p : PullBrief) : String :=
  if p.kind = "solo" then if p.streamID = "" then "拉流" else "拉流 · " ++ p.streamID
  else if p.streamID ≠ "" then publishKindLabel p.kind ++ " · " ++ p.streamID
  else publishKindLabel p.kind

def soloPublishStreamID (streams : List StreamInfo) (planned : StreamID) : StreamID :=
  match streams.find? fun s => s.kind = "solo" && s.streamID ≠ "" with
  | some s => s.streamID
  | none => planned

/-- There is at most one stream of the kind. -/
theorem soloPublishStreamID_eq (rank : Kind → ℕ) (streams : GoMap Kind StreamID)
    (planned : StreamID) :
    soloPublishStreamID ((streams.range rank).map fun e => ⟨e.1, e.2⟩) planned =
      ((streams.lookup "solo").filter (· ≠ "")).getD planned := by
  unfold soloPublishStreamID
  split
  · rename_i s hs
    obtain ⟨⟨kind, x⟩, he, rfl⟩ := List.mem_map.1 (List.mem_of_find?_eq_some hs)
    have hp := List.find?_some hs
    simp only [Bool.and_eq_true, decide_eq_true_eq] at hp
    rw [← hp.1, GoMap.mem_range.1 he, Option.filter_some, if_pos (by simpa using hp.2)]
    rfl
  · rename_i hnone
    rw [List.find?_eq_none] at hnone
    cases hx : streams.lookup "solo" with
    | none => rfl
    | some x =>
      have hempty := hnone ⟨"solo", x⟩ (List.mem_map.2 ⟨("solo", x), GoMap.mem_range.2 hx, rfl⟩)
      rw [Option.filter_some, if_neg (by simpa using hempty)]
      rfl

def pushRoomDisplay (roomID : RoomID) (streamID : StreamID) : String :=
  if streamID = "" then roomID else roomID ++ "/" ++ streamID

/-- `online` holds the keys `app/stream` of ZLM's media list. -/
def streamOnline (online : List String) (roomID : RoomID) (streamID : StreamID) : Bool :=
  streamID ≠ "" && online.contains (roomID ++ "/" ++ streamID)

def isRecording (h : Hub) (c : UserID) (kind : Kind) : Bool :=
  ((h.client c).recordings.lookup kind).getD false

/-- The rows of one non-observer client. -/
def memberRows (h : Hub) (ord : MapOrder) (online : List String) (r : RoomRef) (c : UserID) :
    List MemberRow :=
  let x := h.client c
  let id := (h.room r).id
  let streams : List StreamInfo := (x.streams.range (ord.streams c)).map fun e => ⟨e.1, e.2⟩
  let pulls : List PullBrief := (x.pulling.range (ord.pulls c)).map fun e =>
    ⟨e.2.kind, e.2.streamID, e.2.targetUserID⟩
  if (h.room r).mode ≠ .solo then
    streams.map fun s =>
      { biz := (h.room r).mode.text, roomID := id, roomDisplay := id, userID := c
        nickname := x.nickname, streamKind := s.kind, streamID := s.streamID
        streamLabel := publishKindLabel s.kind, streamOnline := streamOnline online id s.streamID
        recording := h.isRecording c s.kind, clientPlatform := x.clientPlatform }
  else match x.soloRole with
    | some .push =>
      let streamID := soloPublishStreamID streams x.plannedStreamID
      [{ biz := "push", roomID := id, roomDisplay := pushRoomDisplay id streamID, userID := c
         nickname := x.nickname, streamKind := "solo", streamID, streamLabel := "推流"
         streamOnline := streamOnline online id streamID, recording := h.isRecording c "solo"
         clientPlatform := x.clientPlatform }]
    | none => []
    | some .play =>
      if pulls = [] then
        [{ biz := "pull", roomID := id, roomDisplay := id, userID := c, nickname := x.nickname
           streamLabel := "尚未拉流", clientPlatform := x.clientPlatform }]
      else pulls.map fun p =>
        { biz := "pull", roomID := id, roomDisplay := id, userID := c, nickname := x.nickname
          streamKind := p.kind, streamID := p.streamID, streamLabel := pullStreamLabel p
          streamOnline := streamOnline online id p.streamID, clientPlatform := x.clientPlatform }

def roomMemberRows (h : Hub) (ord : MapOrder) (online : List String) (r : RoomRef) :
    List MemberRow :=
  ((h.clientsOf ord r).filter fun c => !h.isObserver c).flatMap (h.memberRows ord online r)

/-- `MemberSnapshot`, given the outcome of ZLM's media list. -/
def memberSnapshot (h : Hub) (ord : MapOrder) (media : Except String (List (RoomID × StreamID))) :
    List MemberRow × String :=
  let online := match media with
    | .ok media => media.map fun m => m.1 ++ "/" ++ m.2
    | .error _ => []
  let zlmError := match media with
    | .ok _ => ""
    | .error e => e
  (((h.roomRefs ord).filter h.memberRoomVisible).flatMap (h.roomMemberRows ord online), zlmError)

end Hub

end Meetkit
