import Meetkit.Lib.Machine
import Meetkit.Model.Observe

/-! The signaling server as a machine whose steps are complete operations: one
message through a readLoop, one disconnect with its cleanup, one admin request,
one ZLM call of a goroutine. An operation its connection cannot perform, because
it is not open or its user id was already given out, leaves the world as it is. -/

namespace Meetkit

inductive Op
  /-- `ServeWS`: a business connection gets user id `c`. -/
  | connect (c : UserID)
  | receive (c : UserID) (e : Envelope)
  | badEnvelope (c : UserID) (cause : String)
  /-- The connection is gone: the readLoop exits and cleans up. -/
  | disconnect (c : UserID)
  | kick (roomID : RoomID) (userID : UserID) (reason : String)
  | dissolve (roomID : RoomID) (reason : String)
  /-- The `n`-th goroutine makes its next ZLM call. -/
  | goroutine (n : ℕ)
  | observeOpen (k : ConnID) (username : String)
  | observe (k : ConnID) (reqID : String) (body : ObserveBody)
  | observeClose (k : ConnID)

structure Input where
  op : Op
  env : Env := {}

namespace World

/-- `c` is a business connection whose readLoop runs. -/
def serving (w : World) (c : UserID) : Bool :=
  (w.hub.client c).hasConn && !(w.hub.client c).closed

def runGoroutine (w : World) (n : ℕ) : World :=
  match w.goroutines[n]? with
  | some ⟨c, call :: calls⟩ =>
    { w with goroutines := w.goroutines.set n ⟨c, calls⟩ }.emit [.called c call]
  | _ => w

/-- Whether the message needs no new user id, or one that was not given out. -/
def observeFresh (w : World) : ObserveBody → Bool
  | .join u _ => u ∉ w.hub.used
  | _ => true

def step (w : World) (i : Input) : World :=
  match i.op with
  | .connect c => if c ∈ w.hub.used then w else w.setHub (w.hub.allocate c newClient)
  | .receive c e => if w.serving c then receive i.env w c e else w
  | .badEnvelope c cause =>
    if w.serving c then w.send c "" (.error (.wrapped "bad envelope" cause)) else w
  | .disconnect c => if w.serving c then w.cleanup i.env.order c else w
  | .kick roomID userID reason => (w.kickMember i.env.order roomID userID reason).1
  | .dissolve roomID reason => (w.dissolveRoom i.env.order roomID reason).1
  | .goroutine n => w.runGoroutine n
  | .observeOpen k username =>
    if (w.conn k).opened then w else w.setConn k fun oc => { oc with opened := true, username }
  | .observe k reqID body =>
    if (w.conn k).opened && !(w.conn k).closed && w.observeFresh body then
      observeReceive i.env w k reqID body
    else w
  | .observeClose k => if (w.conn k).opened then w.observeClose k else w

/-- The events of one step of the server. -/
def news (w : World) (i : Input) : List Event := (w.step i).log.drop w.log.length

end World

/-- The server with a business token, `""` for none. -/
def server (token : String) : Machine World Input where
  init := { hub := { token } }
  step := World.step

end Meetkit
