import Meetkit.Lib.Tally
import Meetkit.Model.AdminPage

/-! The statistics snapshot as its loop fills it in, as the admin page receives it,
and the counters the page makes of it. -/

namespace Meetkit

/-- `HubStats` as `StatsSnapshot` has filled it in so far. -/
structure StatsOut where
  totalRooms : ℕ := 0
  totalClients : ℕ := 0
  totalObservers : ℕ := 0
  roomsByMode : GoMap String ℕ := ∅
  clientsByMode : GoMap String ℕ := ∅
  rooms : List RoomStats := []

namespace StatsOut

/-- One client of the room that `rs` is filled in for. -/
def countClient (acc : StatsOut × RoomStats) (brief : ClientBrief) : StatsOut × RoomStats :=
  let (out, rs) := acc
  let rs := { rs with clients := rs.clients ++ [brief] }
  if brief.isObserver then
    ({ out with totalObservers := out.totalObservers + 1 },
      { rs with observers := rs.observers + 1 })
  else
    ({ out with
        totalClients := out.totalClients + 1
        clientsByMode := out.clientsByMode.incr rs.mode.text },
      { rs with realMembers := rs.realMembers + 1 })

def countRoom (h : Hub) (ord : MapOrder) (out : StatsOut) (r : RoomRef) : StatsOut :=
  let out := { out with
    totalRooms := out.totalRooms + 1
    roomsByMode := out.roomsByMode.incr (h.room r).mode.text }
  let rs : RoomStats :=
    { id := (h.room r).id
      mode := (h.room r).mode
      members := (h.room r).clients.length
      realMembers := 0
      observers := 0
      clients := [] }
  let (out, rs) := ((h.clientsOf ord r).map (h.clientBrief ord)).foldl countClient (out, rs)
  { out with rooms := out.rooms ++ [rs] }

end StatsOut

/-- `StatsSnapshot`, counter by counter. -/
def Hub.statsLoop (h : Hub) (ord : MapOrder) : StatsOut :=
  (h.roomRefs ord).foldl (StatsOut.countRoom h ord) {}

structure HubJSON where
  totalClients : ℕ
  /-- A mode that was not counted has no entry. -/
  clientsByMode : GoMap String ℕ
  rooms : Option (List RoomJSON)

def StatsOut.toJSON (out : StatsOut) : HubJSON where
  totalClients := out.totalClients
  clientsByMode := out.clientsByMode
  rooms := if out.rooms = [] then none else some (out.rooms.map (·.toJSON))

/-! ### The push and pull counters -/

structure PushPull where
  push : ℕ := 0
  pull : ℕ := 0
  deriving DecidableEq, Repr

namespace PushPull

def countClient (n : PushPull) (client : ClientJSON) : PushPull :=
  if client.soloRole = some "play" then { n with pull := n.pull + 1 }
  else { n with push := n.push + 1 }

def countRoom (n : PushPull) (room : RoomJSON) : PushPull :=
  if room.mode ≠ "solo" then n
  else (room.clients.getD []).foldl countClient n

end PushPull

def HubJSON.soloPushPullCounts (hub : HubJSON) : PushPull :=
  (hub.rooms.getD []).foldl PushPull.countRoom {}

end Meetkit
