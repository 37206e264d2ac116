import Meetkit.Lib.Reader
import Meetkit.Model.World

/-! What a participant knows of its room from the messages it got: the streams and
the peers it would show. The snapshot of a join starts the picture, the messages
after it are changes. -/

namespace Meetkit

structure Card where
  nickname : String
  micOn : Bool
  camOn : Bool
  clientPlatform : String
  deriving DecidableEq

def PeerInfo.card (p : PeerInfo) : Card := ⟨p.nickname, p.micOn, p.camOn, p.clientPlatform⟩

structure View where
  streams : UserID → Kind → Option StreamID := fun _ _ => none
  peers : UserID → Option Card := fun _ => none

namespace View

def setStream (v : View) (u : UserID) (kind : Kind) (stream : Option StreamID) : View :=
  { v with streams := Function.update v.streams u (Function.update (v.streams u) kind stream) }

def setPeer (v : View) (u : UserID) (card : Option Card) : View :=
  { v with peers := Function.update v.peers u card }

def snapshot (peers : List PeerInfo) : View where
  streams u kind := (peers.find? fun p => p.userID = u).bind fun p =>
    (p.streams.find? fun s => s.kind = kind).map (·.streamID)
  peers u := (peers.find? fun p => p.userID = u).map PeerInfo.card

def next (v : View) : ServerMsg → View
  | .joined p | .observeJoined p => snapshot p.peers
  | .peerJoined p => v.setPeer p.userID (some ⟨p.nickname, p.micOn, p.camOn, p.clientPlatform⟩)
  | .peerLeft u => v.setPeer u none
  | .peerState p => v.setPeer p.userID
      ((v.peers p.userID).map fun x => { x with micOn := p.micOn, camOn := p.camOn })
  | .peerStreamStarted p => v.setStream p.userID p.kind (some p.streamID)
  | .peerStreamStopped p => v.setStream p.userID p.kind none
  | _ => v

section Updates

variable (v : View) (u w : UserID) (k l : Kind) (s : Option StreamID) (x : Option Card)

@[simp] theorem setStream_peers : (v.setStream u k s).peers = v.peers := rfl
@[simp] theorem setPeer_streams : (v.setPeer u x).streams = v.streams := rfl

theorem setStream_streams :
    (v.setStream u k s).streams w l = if w = u ∧ l = k then s else v.streams w l := by
  simp only [setStream, Function.update_apply]
  by_cases hw : w = u
  · subst hw; simp [Function.update_apply]
  · simp [hw]

theorem setPeer_peers : (v.setPeer u x).peers w = if w = u then x else v.peers w :=
  Function.update_apply _ _ _ _

end Updates

end View

def viewReader : Reader (String × ServerMsg) View where
  start := {}
  next v m := v.next m.2

namespace World

def view (w : World) (c : UserID) : View := viewReader.read (inbox c w.log)

variable {w : World} {c d : UserID}

theorem inbox_send (q : String) (m : ServerMsg) : inbox c (w.send d q m).log =
    inbox c w.log ++ if d = c ∧ (w.hub.client d).closed = false then [(q, m)] else [] := by
  unfold send
  cases hd : (w.hub.client d).closed with
  | true => simp
  | false =>
    rw [if_neg (by simp), emit_log, inbox_append]
    by_cases hdc : d = c <;> simp [inbox, hdc]

theorem inbox_sendAll {ids : List UserID} (hids : ids.Nodup) (m : ServerMsg) :
    inbox c (w.sendAll ids m).log =
      inbox c w.log ++ if c ∈ ids ∧ (w.hub.client c).closed = false then [("", m)] else [] := by
  have hone : ∀ l : List UserID, l.Nodup →
      inbox c (l.map fun d => .sent d "" m) = if c ∈ l then [("", m)] else [] := by
    intro l
    induction l with
    | nil => intro _; rfl
    | cons d l ih =>
      intro hl
      rw [List.nodup_cons] at hl
      have hcons : inbox c ((d :: l).map fun d => .sent d "" m) =
          (if d = c then [("", m)] else []) ++ inbox c (l.map fun d => .sent d "" m) := by
        by_cases hd : d = c <;> simp [inbox, hd]
      rw [hcons, ih hl.2]
      by_cases hd : d = c
      · subst hd; simp [hl.1]
      · simp [hd, Ne.symm hd]
  rw [sendAll, emit_log, inbox_append, hone _ (hids.filter _)]
  simp

/-- A member of the audience of a message gets it, the others do not. -/
theorem view_sendAll {ids : List UserID} (hids : ids.Nodup) (m : ServerMsg) :
    (w.sendAll ids m).view c =
      if c ∈ ids ∧ (w.hub.client c).closed = false then (w.view c).next m else w.view c := by
  unfold view
  rw [inbox_sendAll hids]
  split_ifs
  · exact viewReader.read_snoc _ _
  · rw [List.append_nil]

theorem view_send (q : String) (m : ServerMsg) : (w.send d q m).view c =
    if d = c ∧ (w.hub.client d).closed = false then (w.view c).next m else w.view c := by
  unfold view
  rw [inbox_send]
  split_ifs
  · exact viewReader.read_snoc _ _
  · rw [List.append_nil]

end World

end Meetkit
