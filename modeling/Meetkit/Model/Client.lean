import Meetkit.Model.Room

/-! A connection's message handlers. A handler returns the world it leaves behind
and the error that goes back to the client, if any; an early return keeps what
was written before it. -/

namespace Meetkit

/-- `isSafeStreamName`: the length is that of a string of ASCII characters, any
other string is rejected by the loop. -/
def isSafeStreamName (s : StreamID) : Bool :=
  s ≠ "" && s.length ≤ 128 && s.toList.all fun c =>
    ('a' ≤ c && c ≤ 'z') || ('A' ≤ c && c ≤ 'Z') || ('0' ≤ c && c ≤ '9') ||
      c = '_' || c = '-' || c = '.'

/-- `user_<userId>_<kind>`. -/
def buildStreamID (userID : UserID) (kind : Kind) : StreamID := "user_" ++ userID ++ "_" ++ kind

def normalizeClientPlatform (raw : String) : String :=
  match Text.toLower (Text.trimSpace raw) with
  | "ios" | "iphone" | "ipad" | "ipod" => "ios"
  | "android" => "android"
  | _ => "desktop"

/-- `"anon-" + c.UserID[:6]`; user ids are UUIDs, so the slice is in range. -/
def anonNickname (c : UserID) : String := "anon-" ++ String.ofList (c.toList.take 6)

/-! ### Joining -/

namespace Hub

/-- `handleJoin` up to its first write. -/
def checkJoin (h : Hub) (c : UserID) (p : Decoded JoinPayload) :
    Except Err (JoinPayload × RoomMode) :=
  if (h.client c).room.isSome then .error (.text "already joined a room")
  else match p with
    | .error e => .error (.wrapped "decode join" e)
    | .ok p =>
      match h.validateToken p.token with
      | some e => .error e
      | none =>
        if p.room = "" then .error (.text "room is required")
        else
          let p := if p.nickname = "" then { p with nickname := anonNickname c } else p
          let mode := if p.mode = "" then RoomMode.meeting.text else p.mode
          match RoomMode.ofText? mode with
          | none => .error (.quoted "invalid mode: " mode)
          | some mode => .ok (p, mode)

def soloRoleOf? : String → Option SoloRole
  | "push" | "" => some .push
  | "play" => some .play
  | _ => none

/-! The field writes of `handleJoin`, one definition each. -/

def writeSoloRole (h : Hub) (c : UserID) (role : SoloRole) : Hub :=
  h.setClient c fun x => { x with soloRole := some role }

def writePlannedStream (h : Hub) (c : UserID) (streamID : StreamID) : Hub :=
  h.setClient c fun x => { x with plannedStreamID := streamID }

def writeNickname (h : Hub) (c : UserID) (nickname : String) : Hub :=
  h.setClient c fun x => { x with nickname := nickname }

def writePlatform (h : Hub) (c : UserID) (raw : String) : Hub :=
  h.setClient c fun x => { x with clientPlatform := normalizeClientPlatform raw }

def writeMicOn (h : Hub) (c : UserID) (micOn : Option Bool) : Hub :=
  match micOn with
  | some b => h.setClient c fun x => { x with micOn := b }
  | none => h

def writeCamOn (h : Hub) (c : UserID) (camOn : Option Bool) : Hub :=
  match camOn with
  | some b => h.setClient c fun x => { x with camOn := b }
  | none => h

/-- The planned stream name of a solo publisher. -/
def checkPlannedStream (p : JoinPayload) : Except Err StreamID :=
  let streamID := Text.trimSpace p.streamID
  if streamID = "" then .error (.text "streamId is required")
  else if !isSafeStreamName streamID then
    .error (.text "streamId contains unsupported characters")
  else .ok streamID

/-- The block of `handleJoin` for solo rooms. -/
def joinSolo (h : Hub) (c : UserID) (p : JoinPayload) : Hub × Option Err :=
  match soloRoleOf? p.soloRole with
  | none => (h, some (.quoted "invalid soloRole: " p.soloRole))
  | some .play => (h.writeSoloRole c .play, none)
  | some .push =>
    let h := h.writeSoloRole c .push
    match checkPlannedStream p with
    | .error e => (h, some e)
    | .ok streamID => (h.writePlannedStream c streamID, none)

def joinFields (h : Hub) (c : UserID) (p : JoinPayload) : Hub :=
  ((((h.writeNickname c p.nickname).writePlatform c p.clientPlatform).writeMicOn c p.micOn).writeCamOn
    c p.camOn)

end Hub

namespace World

def handleJoin (env : Env) (w : World) (c : UserID) (p : Decoded JoinPayload) :
    World × Option Err :=
  match w.hub.checkJoin c p with
  | .error e => (w, some e)
  | .ok (p, mode) =>
    match if mode = .solo then w.hub.joinSolo c p else (w.hub, none) with
    | (h, some e) => (w.setHub h, some e)
    | (h, none) =>
      let w := w.setHub (h.joinFields c p)
      let (w, room) := w.getOrCreateRoom p.room mode
      match w.addClient env.order room c mode with
      -- drop the empty room we may have just created
      | (w, some e) => (w.removeRoomIfEmpty room, some e)
      | (w, none) => (w.setClient c fun x => { x with room := some room }, none)

/-! ### In a room -/

/-- `requireRoom`. -/
def requireRoom (w : World) (c : UserID) : Except Err RoomRef :=
  match (w.hub.client c).room with
  | none => .error (.text "not joined to a room")
  | some r => .ok r

def handleChat (env : Env) (w : World) (c : UserID) (text : Decoded String) : World × Option Err :=
  if w.hub.isObserver c then (w, some (.text "observers cannot send chat"))
  else match w.requireRoom c with
    | .error e => (w, some e)
    | .ok r =>
      match text with
      | .error e => (w, some (.wrapped "decode chat" e))
      | .ok text => if text = "" then (w, none) else (w.broadcastChat env r c text, none)

def handleMediaState (env : Env) (w : World) (c : UserID) (p : Decoded MediaStatePayload) :
    World × Option Err :=
  if w.hub.isObserver c then (w, some (.text "observers cannot change media state"))
  else match w.requireRoom c with
    | .error e => (w, some e)
    | .ok r =>
      match p with
      | .error e => (w, some (.wrapped "decode media-state" e))
      | .ok p =>
        let w := w.setClient c fun x => { x with micOn := p.micOn, camOn := p.camOn }
        (w.broadcastMediaState env.order r c, none)

/-- The map key of a pull: its kind, or the stream for a solo pull. -/
def pullKey (streamID : StreamID) (kind : Kind) : String :=
  if kind = "solo" then "solo:" ++ streamID else kind

def recordPull (w : World) (c : UserID) (streamID : StreamID) (kind : Kind)
    (targetUserID : UserID) : World :=
  w.setClient c fun x =>
    { x with pulling := x.pulling.insert (pullKey streamID kind) ⟨streamID, kind, targetUserID⟩ }

/-- The audit line of an observer that starts watching. -/
def recordObserveAudit (w : World) (c : UserID) (action detail : String) : World :=
  match (w.hub.client c).room with
  | none => w
  | some r =>
    if detail = "" then w
    else w.emit [.audited (w.hub.client c).adminUser action (w.hub.room r).id detail]

def observePlayDetail (w : World) (ord : MapOrder) (r : RoomRef) (p : WebRTCOfferPayload) : String :=
  if p.mode = "play" then w.hub.clientNickname r p.targetUserID
  else if p.mode = "play-solo" then
    let nick := w.hub.streamOwnerNickname ord r p.streamID
    if nick ≠ "" then nick else p.streamID
  else ""

/-- The stream and direction an offer asks for, after the checks of its mode. -/
def resolveOffer (w : World) (r : RoomRef) (c : UserID) (p : WebRTCOfferPayload) :
    Except Err (StreamID × WebRTCType) :=
  if p.mode = "publish" then
    if w.hub.isObserver c then .error (.text "observers cannot publish")
    else if p.kind ≠ "cam" ∧ p.kind ≠ "screen" then
      .error (.quoted "invalid kind for publish: " p.kind)
    else .ok (buildStreamID c p.kind, .push)
  else if p.mode = "play" then
    if p.targetUserID = "" then .error (.text "targetUserId is required for play")
    else if p.kind ≠ "cam" ∧ p.kind ≠ "screen" then
      .error (.quoted "invalid kind for play: " p.kind)
    else
      let streamID := w.hub.targetStreamID r p.targetUserID p.kind
      -- the publisher may still be negotiating its push
      .ok (if streamID = "" then buildStreamID p.targetUserID p.kind else streamID, .play)
  else if p.mode = "publish-solo" then
    if w.hub.isObserver c then .error (.text "observers cannot publish")
    else if p.streamID = "" then .error (.text "streamId is required for publish-solo")
    else if !isSafeStreamName p.streamID then
      .error (.text "streamId contains unsupported characters")
    else .ok (p.streamID, .push)
  else if p.mode = "play-solo" then
    if p.streamID = "" then .error (.text "streamId is required for play-solo")
    else if !isSafeStreamName p.streamID then
      .error (.text "streamId contains unsupported characters")
    else if !w.hub.hasStreamID r p.streamID then .error (.text errStreamNotFound)
    else .ok (p.streamID, .play)
  else .error (.quoted "invalid mode: " p.mode)

/-- `c.streams[kind] = streamID` and the broadcast that follows it. -/
def startStream (w : World) (ord : MapOrder) (r : RoomRef) (c : UserID) (kind : Kind)
    (streamID : StreamID) : World :=
  (w.setClient c fun x => { x with streams := x.streams.insert kind streamID }).broadcastStreamStarted
    ord r c kind streamID

/-- Registration of a negotiated stream, by the mode of the offer. -/
def registerOffer (w : World) (ord : MapOrder) (r : RoomRef) (c : UserID) (p : WebRTCOfferPayload)
    (streamID : StreamID) : World :=
  if p.mode = "publish" then
    let w := w.emit [.published c (w.hub.room r).id p.kind streamID]
    (w.startStream ord r c p.kind streamID).notifyStatsChanged
  else if p.mode = "publish-solo" then
    let w := w.emit [.published c (w.hub.room r).id "solo" streamID]
    (w.startStream ord r c "solo" streamID).notifyStatsChanged
  else
    let w :=
      if p.mode = "play" then w.recordPull c streamID p.kind p.targetUserID
      else w.recordPull c streamID "solo" ""
    let w := w.notifyStatsChanged
    if w.hub.isObserver c then
      w.recordObserveAudit c "observe_start" (w.observePlayDetail ord r p)
    else w

def handleWebRTCOffer (env : Env) (w : World) (c : UserID) (reqID : String)
    (p : Decoded WebRTCOfferPayload) : World × Option Err :=
  match w.requireRoom c with
  | .error e => (w, some e)
  | .ok r =>
    match p with
    | .error e => (w, some (.wrapped "decode webrtc-offer" e))
    | .ok p =>
      if p.sdp = "" then (w, some (.text "sdp is required"))
      else if w.hub.isObserver c ∧ p.mode ≠ "play" ∧ p.mode ≠ "play-solo" then
        (w, some (.text "observers can only play streams"))
      else
        match w.resolveOffer r c p with
        | .error e => (w, some e)
        | .ok (streamID, rtcType) =>
          match env.sdp with
          | .error e =>
            (w.emit [.exchangedSDP c rtcType (w.hub.room r).id streamID false],
              some (.wrapped "zlm sdp exchange" e))
          | .ok answerSDP =>
            let w := w.emit [.exchangedSDP c rtcType (w.hub.room r).id streamID true]
            let w := w.registerOffer env.order r c p streamID
            (w.send c reqID
              (.webrtcAnswer ⟨p.mode, p.kind, p.targetUserID, streamID, answerSDP⟩), none)

def handleStreamStarted (env : Env) (w : World) (c : UserID) (p : Decoded StreamStartedPayload) :
    World × Option Err :=
  if w.hub.isObserver c then (w, some (.text "observers cannot publish streams"))
  else match w.requireRoom c with
    | .error e => (w, some e)
    | .ok r =>
      match p with
      | .error e => (w, some (.wrapped "decode stream-started" e))
      | .ok p =>
        if p.kind = "" ∨ p.streamID = "" then
          (w, some (.text "kind and streamId are required"))
        else (w.startStream env.order r c p.kind p.streamID, none)

/-- Broadcast first, then close off the request path. -/
def stopStream (w : World) (ord : MapOrder) (r : RoomRef) (c : UserID) (kind : Kind)
    (streamID : StreamID) : World :=
  let w := (w.broadcastStreamStopped ord r c kind streamID).notifyStatsChanged
  w.spawn c [.closeStream (w.hub.room r).id streamID]

def handleStreamStopped (env : Env) (w : World) (c : UserID) (p : Decoded StreamStoppedPayload) :
    World × Option Err :=
  if w.hub.isObserver c then (w, some (.text "observers cannot stop streams"))
  else match w.requireRoom c with
    | .error e => (w, some e)
    | .ok r =>
      match p with
      | .error e => (w, some (.wrapped "decode stream-stopped" e))
      | .ok p =>
        if p.kind = "" then (w, some (.text "kind is required"))
        else
          let sid := ((w.hub.client c).streams.lookup p.kind).getD ""
          let w := w.setClient c fun x => { x with streams := x.streams.erase p.kind }
          (if sid ≠ "" then w.stopStream env.order r c p.kind sid else w, none)

/-- The stream a record message is about, as a kind and stream of the sender's
own map, or two empty strings. -/
def recordTarget (w : World) (ord : MapOrder) (c : UserID) (p : RecordControlPayload) :
    Kind × StreamID :=
  if p.kind ≠ "" then
    match (w.hub.client c).streams.lookup p.kind with
    | some sid => (p.kind, sid)
    | none => ("", "")
  else if p.streamID ≠ "" then
    (((w.hub.client c).streams.range (ord.streams c)).find? fun e => e.2 = p.streamID).getD ("", "")
  else ("", "")

/-- What follows a successful start or stop of a recording. -/
def recordControlled (env : Env) (w : World) (r : RoomRef) (c : UserID) (reqID : String)
    (start : Bool) (kind : Kind) (streamID : StreamID) : World :=
  let w := w.setClient c fun x => { x with recordings := x.recordings.insert kind start }
  let url := if start then "" else match env.recordURL with
    | .ok url => url
    | .error _ => ""
  let w := w.send c reqID (.recordState ⟨c, kind, streamID, start, url⟩)
  (w.broadcastRecordState env.order r c kind streamID start).notifyStatsChanged

def handleRecordControl (env : Env) (w : World) (c : UserID) (reqID : String) (start : Bool)
    (p : Decoded RecordControlPayload) : World × Option Err :=
  if w.hub.isObserver c then (w, some (.text "observers cannot control recording"))
  else match w.requireRoom c with
    | .error e => (w, some e)
    | .ok r =>
      match p with
      | .error e => (w, some (.wrapped "decode record-control" e))
      | .ok p =>
        let (kind, streamID) := w.recordTarget env.order c p
        if p.kind = "" ∧ p.streamID = "" then (w, some (.text "kind or streamId is required"))
        else if streamID = "" ∧ p.kind ≠ "" then
          (w, some (.quoted "you do not publish kind " p.kind))
        else if streamID = "" then (w, some (.text "stream not owned by this client"))
        else
          let app := (w.hub.room r).id
          match env.record with
          | .error e =>
            let w := w.emit [.recordCall start c app kind streamID false]
            (w, some (.wrapped "zlm record" e))
          | .ok () =>
            let w := w.emit [.recordCall start c app kind streamID true]
            (recordControlled env w r c reqID start kind streamID, none)

def dispatch (env : Env) (w : World) (c : UserID) (e : Envelope) : World × Option Err :=
  match e.body with
  | .join p => handleJoin env w c p
  -- the connection closes; the readLoop exits when it next reads
  | .leave => (w, none)
  | .chat text => handleChat env w c text
  | .mediaState p => handleMediaState env w c p
  | .webrtcOffer p => handleWebRTCOffer env w c e.reqID p
  | .streamStarted p => handleStreamStarted env w c p
  | .streamStopped p => handleStreamStopped env w c p
  | .recordControl start p => handleRecordControl env w c e.reqID start p
  | .unknown type => (w, some (.quoted "unknown message type " type))

/-- One envelope through a business client's readLoop: an error goes back with
the request id when there is one. -/
def receive (env : Env) (w : World) (c : UserID) (e : Envelope) : World :=
  let (w, result) := dispatch env (w.emit [.received c e.body]) c e
  let w := w.emit [.handled c result]
  match result with
  | none => w
  | some err => w.send c e.reqID (.error err)

/-- `cleanup`, when the readLoop exits. -/
def cleanup (w : World) (ord : MapOrder) (c : UserID) : World :=
  if (w.hub.client c).closed then w
  else
    let w := w.setClient c fun x => { x with closed := true }
    match (w.hub.client c).room with
    | none => w
    | some r => w.removeClient ord r c

/-- With a connection the victim is told and the connection closed, so its
readLoop will clean up; without one it is removed here. -/
def forceKick (w : World) (ord : MapOrder) (c : UserID) (reason : String) : World :=
  let reason := if reason = "" then "您已被管理员移出" else reason
  if (w.hub.client c).hasConn then w.send c "" (.adminKicked reason) else w.leaveRoom ord c

def kickMember (w : World) (ord : MapOrder) (roomID : RoomID) (userID : UserID) (reason : String) :
    World × Except Err String :=
  match w.hub.getRoom roomID with
  | none => (w, .error (.text "room not found"))
  | some r =>
    if userID ∉ (w.hub.room r).clients then (w, .error (.text "member not found"))
    else if w.hub.isObserver userID then (w, .error (.text "cannot kick observer"))
    else (w.forceKick ord userID reason, .ok (w.hub.client userID).nickname)

def dissolveRoom (w : World) (ord : MapOrder) (roomID : RoomID) (reason : String) :
    World × Option Err :=
  match w.hub.getRoom roomID with
  | none => (w, some (.text "room not found"))
  | some r =>
    let victims := (w.hub.clientsOf ord r).filter fun c => !w.hub.isObserver c
    if victims = [] then (w, some (.text "room has no members"))
    else
      let reason := if reason = "" then "房间已被管理员解散" else reason
      (victims.foldl (fun w c => w.forceKick ord c reason) w, none)

end World

end Meetkit
