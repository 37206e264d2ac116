import Mathlib.Logic.Function.Basic
import Meetkit.Lib.Machine
import Meetkit.Model.Message

/-! The microphone and camera toggles of the meeting page, from the moment `main` has
sent its `media-state`. Tracks and connections are numbered. A step is a click, or what
runs when an await of a toggle resumes or the publish of `main` is over. -/

namespace Meetkit

inductive TrackKind
  | audio
  | video
  deriving DecidableEq, Repr

structure LocalTrack where
  id : ℕ
  kind : TrackKind
  enabled : Bool := true
  deriving DecidableEq, Repr

/-- A sender and the track it has. -/
structure TrackSender where
  track : ℕ
  kind : TrackKind
  deriving DecidableEq, Repr

structure PublishPC where
  senders : List TrackSender := []
  closed : Bool := false
  deriving DecidableEq, Repr

namespace PublishPC

/-- A closed connection lists no senders. -/
def getSenders (pc : PublishPC) : List TrackSender := if pc.closed then [] else pc.senders

def setTrack (t : LocalTrack) : List TrackSender → List TrackSender
  | [] => []
  | sender :: rest =>
    if sender.kind = t.kind then { sender with track := t.id } :: rest
    else sender :: setTrack t rest

/-- `sender.replaceTrack` on the first sender of the track's kind. -/
def replaceTrack (pc : PublishPC) (t : LocalTrack) : PublishPC :=
  { pc with senders := setTrack t pc.senders }

end PublishPC

/-- The `streamId` of the answer to a publish offer, which is never empty. -/
abbrev AnsweredID := {s : StreamID // s ≠ ""}

/-- `{ pc, streamId }` -/
structure CamPub where
  pc : ℕ
  streamId : AnsweredID
  deriving DecidableEq

inductive MediaMsg
  | mediaState (micOn camOn : Bool)
  | streamStarted (kind : Kind) (streamId : StreamID)
  | streamStopped (kind : Kind) (streamId : StreamID)
  /-- `webrtc-offer` with the mode `publish` -/
  | publishOffer (kind : Kind)
  deriving DecidableEq, Repr

/-- Where a toggle is suspended. -/
inductive ToggleAwait
  | getUserMedia
  /-- `publishStream` of this connection before its request is sent. -/
  | offer (pc : ℕ)
  | reply (pc : ℕ)
  /-- `setRemoteDescription` -/
  | answer (pc : ℕ) (streamId : AnsweredID)
  /-- `publishOrUpdateStream` in its loop, at a track. -/
  | replaceTrack (pub : CamPub) (track : LocalTrack) (rest : List LocalTrack)

structure MediaPage where
  micOn : Bool
  camOn : Bool
  localCamStream : Option (List LocalTrack)
  camPub : Option CamPub := none
  mediaToggleBusy : Bool := false
  pc : ℕ → PublishPC := fun _ => {}
  newPC : ℕ := 0
  newTrack : ℕ := 0
  socketOpen : Bool := true
  sent : List MediaMsg := []
  /-- The toggle that is in progress. -/
  toggle : Option (TrackKind × ToggleAwait) := none
  /-- The connection of `main`'s own publish until that is over. -/
  mainPC : Option ℕ := none

inductive MediaLabel
  | click (k : TrackKind)
  /-- `getUserMedia` resolves, with a track or with none. -/
  | gotMedia (hasTrack : Bool)
  /-- The reply to a publish offer. -/
  | replied (streamId : AnsweredID)
  /-- Any other promise resolves. -/
  | fulfilled
  | rejected
  | socketClosed
  | mainPublished (streamId : AnsweredID)
  | mainFailed
  deriving DecidableEq

/-- What a function has come to: its end, an await or an exception. -/
inductive Progress
  | returns (s : MediaPage)
  | awaits (s : MediaPage) (a : ToggleAwait)
  | throws (s : MediaPage)

namespace MediaPage

def flag (s : MediaPage) : TrackKind → Bool
  | .audio => s.micOn
  | .video => s.camOn

def setFlag (s : MediaPage) (k : TrackKind) (on : Bool) : MediaPage :=
  match k with
  | .audio => { s with micOn := on }
  | .video => { s with camOn := on }

def ensureLocalCamStream (s : MediaPage) : MediaPage :=
  { s with localCamStream := some (s.localCamStream.getD []) }

/-- `getAudioTracks` and `getVideoTracks` -/
def getTracks (s : MediaPage) (k : TrackKind) : List LocalTrack :=
  (s.localCamStream.getD []).filter (·.kind = k)

/-- `signaling.send`, which throws when the socket is not open. -/
def send? (s : MediaPage) (m : MediaMsg) : Option MediaPage :=
  if s.socketOpen then some { s with sent := s.sent ++ [m] } else none

/-- A `send` whose exception is caught on the spot. -/
def trySend (s : MediaPage) (m : MediaMsg) : MediaPage := (s.send? m).getD s

/-! ### Publishing -/

/-- The tracks of the stream and those that are sent are not of the same kinds. -/
def needsRepublish (stream : List LocalTrack) (senders : List TrackSender) : Bool :=
  (stream.any fun t => !senders.any fun sender => sender.kind = t.kind) ||
    senders.any fun sender => !stream.any fun t => t.kind = sender.kind

def closePublishPC (s : MediaPage) (pc : ℕ) : MediaPage :=
  { s with pc := Function.update s.pc pc { s.pc pc with closed := true } }

/-- `publishStream` up to its first await. -/
def publishStream (s : MediaPage) (stream : List LocalTrack) : Progress :=
  if stream = [] then .throws s
  else .awaits { s with
    pc := Function.update s.pc s.newPC { senders := stream.map fun t => ⟨t.id, t.kind⟩ }
    newPC := s.newPC + 1 } (.offer s.newPC)

def notifyCamStreamStarted (s : MediaPage) : MediaPage :=
  match s.camPub with
  | none => s
  | some pub => s.trySend (.streamStarted "cam" pub.streamId)

/-- `ensureCamPublish` from the return of `publishOrUpdateStream` on. -/
def camPublished (s : MediaPage) (pub : CamPub) : MediaPage :=
  { s with camPub := some pub }.notifyCamStreamStarted

/-- The loop of `publishOrUpdateStream` over the tracks. -/
def replaceTracks (s : MediaPage) (pub : CamPub) : List LocalTrack → Progress
  | [] => .returns (s.camPublished pub)
  | track :: rest =>
    match (s.pc pub.pc).getSenders.find? (·.kind = track.kind) with
    | none => s.replaceTracks pub rest
    | some sender =>
      if sender.track ≠ track.id then .awaits s (.replaceTrack pub track rest)
      else s.replaceTracks pub rest

def publishOrUpdateStream (s : MediaPage) (existingPub : Option CamPub) (stream : List LocalTrack) :
    Progress :=
  if stream = [] then .throws s
  else match existingPub with
    | none => s.publishStream stream
    | some pub =>
      if needsRepublish stream (s.pc pub.pc).getSenders then
        (s.closePublishPC pub.pc).publishStream stream
      else s.replaceTracks pub stream

def ensureCamPublish (s : MediaPage) : Progress :=
  match s.localCamStream with
  | none => .returns s
  | some stream =>
    if stream = [] then .returns s
    else
      let s := match s.camPub with
        | none => s
        | some prevPub =>
          if needsRepublish stream (s.pc prevPub.pc).getSenders then
            s.trySend (.streamStopped "cam" prevPub.streamId)
          else s
      s.publishOrUpdateStream s.camPub stream

/-! ### The toggles -/

/-- The `catch` and the `finally` of a toggle. -/
def failed (s : MediaPage) : MediaPage := { s with mediaToggleBusy := false, toggle := none }

/-- A toggle from its `setButtonState` on. -/
def announce (s : MediaPage) : MediaPage :=
  match s.send? (.mediaState s.micOn s.camOn) with
  | none => s.failed
  | some s => { s with mediaToggleBusy := false, toggle := none }

def suspend (s : MediaPage) (k : TrackKind) (a : ToggleAwait) : MediaPage :=
  { s with toggle := some (k, a) }

def proceed (k : TrackKind) : Progress → MediaPage
  | .returns s => s.announce
  | .awaits s a => s.suspend k a
  | .throws s => s.failed

/-- The loop over the tracks of `k` that enables or disables them. -/
def setEnabled (s : MediaPage) (k : TrackKind) : MediaPage :=
  { s with
    localCamStream := s.localCamStream.map fun (stream : List LocalTrack) =>
      stream.map fun t => if t.kind = k then { t with enabled := s.flag k } else t }

def setBusy (s : MediaPage) : MediaPage := { s with mediaToggleBusy := true }

/-- `toggleMic` and `toggleCam` up to their first await. -/
def click (s : MediaPage) (k : TrackKind) : MediaPage :=
  if s.mediaToggleBusy then s
  else
    let targetOn := !s.flag k
    let s := s.setBusy
    let s := if targetOn then s.ensureLocalCamStream else s
    if targetOn && (s.getTracks k).isEmpty then
      (s.setFlag k true).ensureLocalCamStream.suspend k .getUserMedia
    else
      let s := (s.setFlag k targetOn).setEnabled k
      if targetOn && !(s.getTracks k).isEmpty && s.camPub.isNone then
        proceed k s.ensureCamPublish
      else s.announce

/-- `acquireLocalTrack` once it has a track. -/
def addTrack (s : MediaPage) (k : TrackKind) : MediaPage :=
  { s with
    localCamStream := s.localCamStream.map fun (stream : List LocalTrack) =>
      stream.filter (·.kind ≠ k) ++ [⟨s.newTrack, k, s.flag k⟩]
    newTrack := s.newTrack + 1 }

/-- The toggle of `k`, suspended at `a`, resumes. -/
def resume (s : MediaPage) (k : TrackKind) (a : ToggleAwait) (l : MediaLabel) : MediaPage :=
  match a, l with
  | .getUserMedia, .gotMedia hasTrack =>
    if hasTrack then proceed k (s.addTrack k).ensureCamPublish else s.failed
  | .offer pc, .fulfilled =>
    match s.send? (.publishOffer "cam") with
    | none => s.failed
    | some s => s.suspend k (.reply pc)
  | .reply pc, .replied streamId => s.suspend k (.answer pc streamId)
  | .answer pc streamId, .fulfilled => proceed k (.returns (s.camPublished ⟨pc, streamId⟩))
  | .replaceTrack pub track rest, .fulfilled =>
    let s := { s with pc := Function.update s.pc pub.pc ((s.pc pub.pc).replaceTrack track) }
    proceed k (s.replaceTracks pub rest)
  | _, .rejected => s.failed
  | _, _ => s

def step (s : MediaPage) : MediaLabel → MediaPage
  | .click k => s.click k
  | .socketClosed => { s with socketOpen := false }
  | .mainPublished streamId =>
    match s.mainPC with
    | none => s
    | some pc => { s with camPub := some ⟨pc, streamId⟩, mainPC := none }
  | .mainFailed =>
    match s.mainPC with
    | none => s
    -- `handleServiceDisconnect` closes the signaling
    | some _ => { s with mainPC := none, socketOpen := false }
  | l =>
    match s.toggle with
    | none => s
    | some (k, a) => s.resume k a l

/-- `main` up to the `await` of its publish, given what was stored for the page and
whether `getUserMedia` is granted. -/
def main (micOn camOn granted : Bool) : MediaPage :=
  let micOn := micOn && granted
  let camOn := camOn && granted
  let stream : List LocalTrack :=
    (if micOn then [⟨0, .audio, micOn⟩] else []) ++ if camOn then [⟨1, .video, camOn⟩] else []
  { micOn, camOn
    localCamStream := some stream
    newTrack := 2
    pc := fun n => if n = 0 then { senders := stream.map fun t => ⟨t.id, t.kind⟩ } else {}
    newPC := 1
    mainPC := if stream = [] then none else some 0
    sent := [.mediaState micOn camOn] }

/-- `main` when its publish, if there is one, is over. -/
def afterMain (micOn camOn granted : Bool) (streamId : Option AnsweredID) : MediaPage :=
  (main micOn camOn granted).step (streamId.elim .mainFailed .mainPublished)

end MediaPage

def mediaPage (init : MediaPage) : Machine MediaPage MediaLabel where
  init
  step := MediaPage.step

end Meetkit
