import Meetkit.Lib.GoMap
import Meetkit.Lib.Text
import Meetkit.Model.Message
import Mathlib.Data.List.Nodup
import Mathlib.Logic.Function.Basic

/-! The hub, its rooms and its clients. A `*Client` is named by its user id and a
`*Room` by a reference that is never reused, so that two rooms of one id, the one
in the table and an orphan, stay apart. -/

namespace Meetkit

abbrev RoomRef := Nat

structure PullEntry where
  streamID : StreamID
  kind : Kind
  targetUserID : UserID
  deriving DecidableEq, Repr

structure Client where
  nickname : String := ""
  soloRole : Option SoloRole := none
  plannedStreamID : StreamID := ""
  clientPlatform : String := ""
  room : Option RoomRef := none
  /-- `c.conn != nil`: a business client; an observer has a deliver callback instead. -/
  hasConn : Bool := false
  micOn : Bool := false
  camOn : Bool := false
  streams : GoMap Kind StreamID := ∅
  pulling : GoMap String PullEntry := ∅
  recordings : GoMap Kind Bool := ∅
  isObserver : Bool := false
  adminUser : String := ""
  closed : Bool := false

def newClient : Client := { hasConn := true, micOn := true, camOn := true }

def newObserveClient : Client := {}

structure Room where
  id : RoomID := ""
  mode : RoomMode := .meeting
  /-- The keys of `r.clients`; every client is stored under its own user id. -/
  clients : List UserID := []
  nodup : clients.Nodup := by exact List.nodup_nil

namespace Room

def add (x : Room) (c : UserID) : Room :=
  { x with clients := x.clients.insert c, nodup := x.nodup.insert }

def remove (x : Room) (c : UserID) : Room :=
  { x with clients := x.clients.erase c, nodup := x.nodup.erase c }

/-- The most clients the room takes; 0 means unlimited. -/
def capacity (x : Room) : ℕ := if x.mode = .call then 2 else 0

def isBroadcast (x : Room) : Bool := x.mode ≠ .solo

@[simp] theorem add_id (x : Room) (c : UserID) : (x.add c).id = x.id := rfl
@[simp] theorem add_mode (x : Room) (c : UserID) : (x.add c).mode = x.mode := rfl
@[simp] theorem remove_id (x : Room) (c : UserID) : (x.remove c).id = x.id := rfl
@[simp] theorem remove_mode (x : Room) (c : UserID) : (x.remove c).mode = x.mode := rfl

@[simp] theorem mem_add {x : Room} {c d : UserID} :
    d ∈ (x.add c).clients ↔ d = c ∨ d ∈ x.clients := List.mem_insert_iff

@[simp] theorem mem_remove {x : Room} {c d : UserID} :
    d ∈ (x.remove c).clients ↔ d ≠ c ∧ d ∈ x.clients := x.nodup.mem_erase_iff

end Room

/-- The order in which one operation's loops visit the maps. -/
structure MapOrder where
  rooms : RoomID → ℕ := fun _ => 0
  clients : UserID → ℕ := fun _ => 0
  streams : UserID → Kind → ℕ := fun _ _ => 0
  pulls : UserID → String → ℕ := fun _ _ => 0

structure Hub where
  token : String := ""
  rooms : GoMap RoomID RoomRef := ∅
  room : RoomRef → Room := fun _ => {}
  nextRoom : RoomRef := 0
  client : UserID → Client := fun _ => {}
  /-- The ids `uuid.NewString` has returned. -/
  used : List UserID := []

namespace Hub

def setClient (h : Hub) (c : UserID) (f : Client → Client) : Hub :=
  { h with client := Function.update h.client c (f (h.client c)) }

def setRoom (h : Hub) (r : RoomRef) (f : Room → Room) : Hub :=
  { h with room := Function.update h.room r (f (h.room r)) }

section Updates

variable (h : Hub) (c d : UserID) (f : Client → Client) (r s : RoomRef) (g : Room → Room)

theorem setClient_client :
    (h.setClient c f).client d = if d = c then f (h.client c) else h.client d := by
  simp only [setClient, Function.update_apply]

@[simp] theorem setClient_same : (h.setClient c f).client c = f (h.client c) := by
  rw [setClient_client, if_pos rfl]

theorem setClient_ne (hd : d ≠ c) : (h.setClient c f).client d = h.client d := by
  rw [setClient_client, if_neg hd]

theorem setClient_id : h.setClient c id = h := by
  rw [setClient, id, Function.update_eq_self]

@[simp] theorem setClient_room : (h.setClient c f).room = h.room := rfl
@[simp] theorem setClient_rooms : (h.setClient c f).rooms = h.rooms := rfl
@[simp] theorem setClient_nextRoom : (h.setClient c f).nextRoom = h.nextRoom := rfl
@[simp] theorem setClient_used : (h.setClient c f).used = h.used := rfl
@[simp] theorem setClient_token : (h.setClient c f).token = h.token := rfl

theorem setRoom_room : (h.setRoom r g).room s = if s = r then g (h.room r) else h.room s := by
  simp only [setRoom, Function.update_apply]

@[simp] theorem setRoom_same : (h.setRoom r g).room r = g (h.room r) := by
  rw [setRoom_room, if_pos rfl]

theorem setRoom_ne (hs : s ≠ r) : (h.setRoom r g).room s = h.room s := by
  rw [setRoom_room, if_neg hs]

@[simp] theorem setRoom_client : (h.setRoom r g).client = h.client := rfl
@[simp] theorem setRoom_rooms : (h.setRoom r g).rooms = h.rooms := rfl
@[simp] theorem setRoom_nextRoom : (h.setRoom r g).nextRoom = h.nextRoom := rfl
@[simp] theorem setRoom_used : (h.setRoom r g).used = h.used := rfl
@[simp] theorem setRoom_token : (h.setRoom r g).token = h.token := rfl

end Updates

def isObserver (h : Hub) (c : UserID) : Bool := (h.client c).isObserver

/-- The clients of a room in the order a loop over `r.clients` visits them. -/
def clientsOf (h : Hub) (ord : MapOrder) (r : RoomRef) : List UserID :=
  rangeBy ord.clients (h.room r).clients

@[simp] theorem mem_clientsOf {h : Hub} {ord : MapOrder} {r : RoomRef} {c : UserID} :
    c ∈ h.clientsOf ord r ↔ c ∈ (h.room r).clients := mem_rangeBy

theorem clientsOf_nodup (h : Hub) (ord : MapOrder) (r : RoomRef) : (h.clientsOf ord r).Nodup :=
  rangeBy_nodup.2 (h.room r).nodup

/-- The non-observer clients of a room. -/
def members (h : Hub) (r : RoomRef) : List UserID :=
  (h.room r).clients.filter fun c => !h.isObserver c

@[simp] theorem mem_members {h : Hub} {r : RoomRef} {c : UserID} :
    c ∈ h.members r ↔ c ∈ (h.room r).clients ∧ h.isObserver c = false := by
  simp [members]

theorem members_nodup (h : Hub) (r : RoomRef) : (h.members r).Nodup :=
  (h.room r).nodup.filter _

def validateToken (h : Hub) (token : String) : Option Err :=
  if h.token = "" then none
  else if Text.trimSpace token ≠ h.token then some (.text errTokenInvalid)
  else none

/-- The room of the id, created with the requested mode when there is none. An
existing room is returned unchanged, whatever its mode. -/
def getOrCreateRoom (h : Hub) (id : RoomID) (mode : RoomMode) : Hub × RoomRef :=
  match h.rooms.lookup id with
  | some r => (h, r)
  | none =>
    ({ h with
        rooms := h.rooms.insert id h.nextRoom
        room := Function.update h.room h.nextRoom { id, mode }
        nextRoom := h.nextRoom + 1 }, h.nextRoom)

@[simp] theorem getOrCreateRoom_client (h : Hub) (id : RoomID) (mode : RoomMode) :
    (h.getOrCreateRoom id mode).1.client = h.client := by
  unfold getOrCreateRoom
  split <;> rfl

@[simp] theorem getOrCreateRoom_used (h : Hub) (id : RoomID) (mode : RoomMode) :
    (h.getOrCreateRoom id mode).1.used = h.used := by
  unfold getOrCreateRoom
  split <;> rfl

/-- Deletes the table entry under the room's id when the room has no clients
left, without comparing the entry with the room. -/
def removeRoomIfEmpty (h : Hub) (r : RoomRef) : Hub :=
  if (h.room r).clients = [] then { h with rooms := h.rooms.erase (h.room r).id } else h

section Removal

variable (h : Hub) (r : RoomRef)

@[simp] theorem removeRoomIfEmpty_room : (h.removeRoomIfEmpty r).room = h.room := by
  unfold removeRoomIfEmpty; split_ifs <;> rfl

@[simp] theorem removeRoomIfEmpty_client : (h.removeRoomIfEmpty r).client = h.client := by
  unfold removeRoomIfEmpty; split_ifs <;> rfl

@[simp] theorem removeRoomIfEmpty_nextRoom : (h.removeRoomIfEmpty r).nextRoom = h.nextRoom := by
  unfold removeRoomIfEmpty; split_ifs <;> rfl

@[simp] theorem removeRoomIfEmpty_used : (h.removeRoomIfEmpty r).used = h.used := by
  unfold removeRoomIfEmpty; split_ifs <;> rfl

@[simp] theorem removeRoomIfEmpty_token : (h.removeRoomIfEmpty r).token = h.token := by
  unfold removeRoomIfEmpty; split_ifs <;> rfl

variable {h r}

theorem lookup_of_removeRoomIfEmpty {id : RoomID} {t : RoomRef}
    (hl : (h.removeRoomIfEmpty r).rooms.lookup id = some t) : h.rooms.lookup id = some t := by
  unfold removeRoomIfEmpty at hl
  split_ifs at hl
  · exact (GoMap.lookup_erase_eq_some.1 hl).2
  · exact hl

end Removal

def getRoom (h : Hub) (id : RoomID) : Option RoomRef := h.rooms.lookup id

/-- Allocates the client object of a connection under a new user id. -/
def allocate (h : Hub) (c : UserID) (x : Client) : Hub :=
  { h with client := Function.update h.client c x, used := c :: h.used }

end Hub

end Meetkit
