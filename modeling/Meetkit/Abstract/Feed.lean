import Meetkit.Abstract.View

/-! What a page may count on in the messages it gets: it is let in once and before it
hears of anybody, and it hears only of peers and streams that it was told of. -/

namespace Meetkit

/-- What the messages have said, and whether they have let one in. -/
structure Feed where
  view : View := {}
  joined : Bool := false

namespace Feed

def next (f : Feed) (m : ServerMsg) : Feed where
  view := f.view.next m
  joined := match m with
    | .joined _ => true
    | _ => f.joined

/-- The message fits what `self` was told before. -/
def Fits (self : UserID) (f : Feed) : ServerMsg → Prop
  | .joined p => f.joined = false ∧ p.userID = self ∧ (p.peers.map (·.userID)).Nodup ∧
      ∀ peer ∈ p.peers, (peer.streams.map (·.kind)).Nodup
  | .peerJoined p => f.joined = true ∧ f.view.peers p.userID = none
  | .peerLeft u => f.joined = true ∧ ∀ kind, f.view.streams u kind = none
  | .peerState p => f.joined = true ∧ f.view.peers p.userID ≠ none
  | .peerStreamStarted p | .peerStreamStopped p =>
      f.joined = true ∧ f.view.peers p.userID ≠ none
  | .observeJoined _ => False
  | _ => True

end Feed

def feedReader : Reader (String × ServerMsg) Feed where
  start := {}
  next f m := f.next m.2

namespace World

def feed (w : World) (c : UserID) : Feed := feedReader.read (inbox c w.log)

/-- Every message that `c` got fitted what it was told before. -/
def Fed (w : World) (c : UserID) : Prop :=
  feedReader.Checked (fun f m => f.Fits c m.2) (inbox c w.log)

variable {w w' : World} {c : UserID}

theorem feed_view (w : World) (c : UserID) : (w.feed c).view = w.view c := by
  unfold feed view
  generalize inbox c w.log = log
  induction log using List.reverseRecOn with
  | nil => rfl
  | append_singleton log m ih => rw [Reader.read_snoc, Reader.read_snoc, ← ih]; rfl

end World

end Meetkit
