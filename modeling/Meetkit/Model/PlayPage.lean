import Mathlib.Logic.Function.Basic
import Meetkit.Lib.Machine
import Meetkit.Model.Message

/-! The pulls of the player page. Every call of `startPull` that gets past the guard is
numbered, and so is the connection its `playStream` returns. A step is an event handler,
or what runs when an await resumes. -/

namespace Meetkit

/-- The `playStream` of a call of `startPull`. -/
inductive PlayStatus
  | idle
  | inFlight
  | resolved
  | rejected
  deriving DecidableEq

structure PlayPage where
  streamId : StreamID := ""
  /-- The connection in `state.pull`. -/
  pull : Option ℕ := none
  pulling : Bool := false
  pullGen : ℕ := 0
  pullErrorShown : Bool := false
  /-- The alerts of `showPullError` that are open. -/
  alerts : ℕ := 0
  /-- The `gen` of each call. -/
  gen : ℕ → ℕ := fun _ => 0
  status : ℕ → PlayStatus := fun _ => .idle
  /-- Whether `playStream` has returned the connection and it is not closed. -/
  pcOpen : ℕ → Bool := fun _ => false
  newPull : ℕ := 0

inductive PlayLabel
  | toggleStream
  | peerStreamStarted (streamId : StreamID)
  | peerStreamStopped (streamId : StreamID)
  | peerLeft
  /-- The connection of a pull is `failed` or `disconnected`. -/
  | connectionFailed (id : ℕ)
  /-- `playStream` resolves. -/
  | played (id : ℕ)
  | playFailed (id : ℕ)
  /-- The user closes an alert of `showPullError`. -/
  | alertClosed
  | leave

namespace PlayPage

def closePC (s : PlayPage) (id : ℕ) : PlayPage :=
  { s with pcOpen := Function.update s.pcOpen id false }

def tearDownPull (s : PlayPage) : PlayPage :=
  match s.pull with
  | some id => { s.closePC id with pull := none }
  | none => s

def invalidatePull (s : PlayPage) : PlayPage :=
  { { s with pullGen := s.pullGen + 1 }.tearDownPull with pulling := false }

/-- `startPull` up to its await. -/
def startPull (s : PlayPage) : PlayPage :=
  if s.pulling then s
  else
    { s with
      pullErrorShown := false
      pullGen := s.pullGen + 1
      pulling := true
      gen := Function.update s.gen s.newPull (s.pullGen + 1)
      status := Function.update s.status s.newPull .inFlight
      newPull := s.newPull + 1 }

def restartPull (s : PlayPage) : PlayPage := if s.pulling then s else s.invalidatePull.startPull

/-- `showPullError` up to its await. -/
def showPullError (s : PlayPage) : PlayPage :=
  if s.pullErrorShown then s
  else
    let s := { s with pullErrorShown := true }.invalidatePull
    { s with alerts := s.alerts + 1 }

def toggleStream (s : PlayPage) : PlayPage :=
  if s.pull.isSome then s.invalidatePull else s.startPull

/-- `onPullDisconnected` -/
def connectionFailed (s : PlayPage) (id : ℕ) : PlayPage :=
  if s.gen id ≠ s.pullGen ∨ s.pull = none then s else s.showPullError

/-- The `finally` of `startPull`. -/
def finish (s : PlayPage) (id : ℕ) : PlayPage :=
  if s.gen id = s.pullGen then { s with pulling := false } else s

def played (s : PlayPage) (id : ℕ) : PlayPage :=
  let s := { s with
    status := Function.update s.status id .resolved
    pcOpen := Function.update s.pcOpen id true
    pull := some id }
  if s.gen id ≠ s.pullGen then { s.closePC id with pull := none } else s.finish id

/-- The `catch` of `startPull`. -/
def playFailed (s : PlayPage) (id : ℕ) : PlayPage :=
  let s := { s with status := Function.update s.status id .rejected }
  if s.gen id ≠ s.pullGen then s else s.showPullError.finish id

def alertClosed (s : PlayPage) : PlayPage :=
  if s.alerts = 0 then s else { s with pullErrorShown := false, alerts := s.alerts - 1 }

def step (s : PlayPage) : PlayLabel → PlayPage
  | .toggleStream => s.toggleStream
  | .peerStreamStarted streamId =>
    if streamId = s.streamId ∧ (s.pull.isSome ∨ s.pulling) then s.restartPull else s
  | .peerStreamStopped streamId =>
    if streamId = s.streamId ∧ s.pull.isSome then s.invalidatePull else s
  | .peerLeft => if s.pull.isSome ∨ s.pulling then s.invalidatePull else s
  | .connectionFailed id => if id < s.newPull then s.connectionFailed id else s
  | .played id => if s.status id = .inFlight then s.played id else s
  | .playFailed id => if s.status id = .inFlight then s.playFailed id else s
  | .alertClosed => s.alertClosed
  | .leave => s.invalidatePull

end PlayPage

def playPage (streamId : StreamID) : Machine PlayPage PlayLabel where
  init := { streamId }
  step := PlayPage.step

end Meetkit
