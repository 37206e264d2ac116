import Meetkit.Model.Stats

/-! A room of the statistics snapshot as JSON, and what the admin page makes of it.
A field that is left out of the JSON is `none`. -/

namespace Meetkit

def SoloRole.text : SoloRole → String
  | push => "push"
  | play => "play"

structure ClientJSON where
  soloRole : Option String
  isObserver : Option Bool
  deriving DecidableEq, Repr

structure RoomJSON where
  mode : String
  members : ℕ
  realMembers : Option ℕ
  /-- A slice nothing was appended to is `null`. -/
  clients : Option (List ClientJSON)
  deriving DecidableEq, Repr

def ClientBrief.toJSON (b : ClientBrief) : ClientJSON where
  soloRole := b.soloRole.map SoloRole.text
  isObserver := if b.isObserver then some true else none

def RoomStats.toJSON (rs : RoomStats) : RoomJSON where
  mode := rs.mode.text
  members := rs.members
  realMembers := some rs.realMembers
  clients := if rs.clients = [] then none else some (rs.clients.map (·.toJSON))

namespace RoomJSON

def isPusher (c : ClientJSON) : Bool := !c.isObserver.getD false && c.soloRole = some "push"

def roomBizType (room : RoomJSON) : Option String :=
  if room.realMembers.getD room.members < 1 then none
  else if room.mode = "meeting" then some "meeting"
  else if room.mode = "call" then some "call"
  else if room.mode = "solo" then
    if (room.clients.getD []).any isPusher then some "push" else none
  else none

end RoomJSON

end Meetkit
