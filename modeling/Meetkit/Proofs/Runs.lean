import Meetkit.Model.Server

/-! Inputs of short runs, for the examples beside the theorems. -/

namespace Meetkit

namespace Input

def connect (c : UserID) : Input := { op := .connect c }

def disconnect (c : UserID) : Input := { op := .disconnect c }

def goroutine (n : ℕ) : Input := { op := .goroutine n }

def message (c : UserID) (body : Body) : Input := { op := .receive c { body } }

def join (c : UserID) (room : RoomID) : Input := message c (.join (.ok { room, nickname := c }))

def joinCall (c : UserID) (room : RoomID) : Input :=
  message c (.join (.ok { room, nickname := c, mode := "call" }))

def joinSolo (c : UserID) (room : RoomID) (soloRole : String) (streamID : StreamID) : Input :=
  message c (.join (.ok { room, nickname := c, mode := "solo", soloRole, streamID }))

def publish (c : UserID) (kind : Kind) : Input :=
  message c (.webrtcOffer (.ok { mode := "publish", kind, sdp := "v=0" }))

def publishSolo (c : UserID) (streamID : StreamID) : Input :=
  message c (.webrtcOffer (.ok { mode := "publish-solo", streamID, sdp := "v=0" }))

def streamStarted (c : UserID) (kind : Kind) (streamID : StreamID) : Input :=
  message c (.streamStarted (.ok { kind, streamID }))

def streamStopped (c : UserID) (kind : Kind) : Input := message c (.streamStopped (.ok { kind }))

def record (c : UserID) (start : Bool) (kind : Kind) : Input :=
  message c (.recordControl start (.ok { kind }))

def observeOpen (k : ConnID) (username : String) : Input := { op := .observeOpen k username }

def observeJoin (k : ConnID) (u : UserID) (room : RoomID) : Input :=
  { op := .observe k "" (.join u (.ok { room })) }

def observePlay (k : ConnID) (targetUserID : UserID) (kind : Kind) : Input :=
  { op := .observe k "" (.webrtcOffer (.ok { mode := "play", kind, targetUserID, sdp := "v=0" })) }

def observeLeave (k : ConnID) : Input := { op := .observe k "" .leave }

end Input

end Meetkit
