import Mathlib.Data.List.Basic

/-! The messages on the wire: payloads of both directions, the errors handlers
return, and the envelope of one incoming message. Decoding a payload is Go's
`encoding/json`; a message carries its outcome, the decoded payload or the
decoder's error. -/

namespace Meetkit

abbrev UserID := String
abbrev RoomID := String
abbrev StreamID := String
abbrev Kind := String

inductive RoomMode
  | meeting | call | solo
  deriving DecidableEq, Repr

namespace RoomMode

def text : RoomMode → String
  | meeting => "meeting"
  | call => "call"
  | solo => "solo"

def ofText? : String → Option RoomMode
  | "meeting" => some meeting
  | "call" => some call
  | "solo" => some solo
  | _ => none

end RoomMode

inductive SoloRole
  | push | play
  deriving DecidableEq, Repr

/-- An error value: a fixed text, a format ending in `%q`, or a wrapped cause. -/
inductive Err
  | text (s : String)
  | quoted (label arg : String)
  | wrapped (label : String) (cause : String)
  deriving DecidableEq, Repr

def errRoomInUse := "房间已经被使用"
def errUserInUse := "用户已经被使用"
def errMemberNameInUse := "成员名称已被使用"
def errStreamNotFound := "流不存在"
def errTokenInvalid := "令牌输入错误"

/-- The outcome of `decodePayload`. -/
abbrev Decoded (α : Type) := Except String α

/-! ### Client to server -/

structure JoinPayload where
  room : RoomID := ""
  nickname : String := ""
  mode : String := ""
  soloRole : String := ""
  streamID : StreamID := ""
  token : String := ""
  micOn : Option Bool := none
  camOn : Option Bool := none
  clientPlatform : String := ""
  deriving DecidableEq, Repr

structure MediaStatePayload where
  micOn : Bool := false
  camOn : Bool := false
  deriving DecidableEq, Repr

structure WebRTCOfferPayload where
  mode : String := ""
  kind : Kind := ""
  targetUserID : UserID := ""
  streamID : StreamID := ""
  sdp : String := ""
  deriving DecidableEq, Repr

structure StreamStartedPayload where
  kind : Kind := ""
  streamID : StreamID := ""
  deriving DecidableEq, Repr

structure StreamStoppedPayload where
  kind : Kind := ""
  streamID : StreamID := ""
  deriving DecidableEq, Repr

structure RecordControlPayload where
  kind : Kind := ""
  streamID : StreamID := ""
  deriving DecidableEq, Repr

structure ObserveJoinPayload where
  room : RoomID := ""
  mode : String := ""
  deriving DecidableEq, Repr

/-- The body of an envelope, by the message type `dispatch` switches on. -/
inductive Body
  | join (p : Decoded JoinPayload)
  | leave
  | chat (text : Decoded String)
  | mediaState (p : Decoded MediaStatePayload)
  | webrtcOffer (p : Decoded WebRTCOfferPayload)
  | streamStarted (p : Decoded StreamStartedPayload)
  | streamStopped (p : Decoded StreamStoppedPayload)
  | recordControl (start : Bool) (p : Decoded RecordControlPayload)
  | unknown (type : String)
  deriving DecidableEq

structure Envelope where
  reqID : String := ""
  body : Body

/-! ### Server to client -/

structure StreamInfo where
  kind : Kind
  streamID : StreamID
  deriving DecidableEq, Repr

structure PeerInfo where
  userID : UserID
  nickname : String
  micOn : Bool
  camOn : Bool
  clientPlatform : String
  streams : List StreamInfo
  deriving DecidableEq, Repr

structure JoinedPayload where
  userID : UserID
  room : RoomID
  peers : List PeerInfo
  deriving DecidableEq, Repr

structure PeerJoinedPayload where
  userID : UserID
  nickname : String
  micOn : Bool
  camOn : Bool
  clientPlatform : String
  deriving DecidableEq, Repr

structure PeerStatePayload where
  userID : UserID
  micOn : Bool
  camOn : Bool
  deriving DecidableEq, Repr

structure PeerStreamPayload where
  userID : UserID
  kind : Kind
  streamID : StreamID
  deriving DecidableEq, Repr

structure ChatPayload where
  sender : UserID
  nickname : String
  text : String
  ts : Int
  deriving DecidableEq, Repr

structure WebRTCAnswerPayload where
  mode : String
  kind : Kind
  targetUserID : UserID
  streamID : StreamID
  sdp : String
  deriving DecidableEq, Repr

structure RecordStatePayload where
  userID : UserID
  kind : Kind
  streamID : StreamID
  recording : Bool
  recordFileURL : String := ""
  deriving DecidableEq, Repr

inductive ServerMsg
  | joined (p : JoinedPayload)
  | peerJoined (p : PeerJoinedPayload)
  | peerLeft (userID : UserID)
  | peerState (p : PeerStatePayload)
  | webrtcAnswer (p : WebRTCAnswerPayload)
  | peerStreamStarted (p : PeerStreamPayload)
  | peerStreamStopped (p : PeerStreamPayload)
  | recordState (p : RecordStatePayload)
  | observeJoined (p : JoinedPayload)
  | observeEnded (message : String)
  | adminKicked (message : String)
  | chat (p : ChatPayload)
  | error (e : Err)
  deriving DecidableEq, Repr

end Meetkit
