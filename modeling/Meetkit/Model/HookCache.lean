import Meetkit.Lib.GoMap
import Meetkit.Lib.Machine
import Meetkit.Model.Message

/-! The files of recordings. ZLM tells of a finished one by a hook, whose URL is cached
under the recording's app and stream; a record-stop polls that cache for the URL its
acknowledgement carries. Time is in nanoseconds. A recording is named by its number,
and what the file of each is called is given. -/

namespace Meetkit

def second : ℕ := 1000000000

structure HookRecord where
  fullURL : String
  ts : ℕ

/-- The key of `hookCache.items`. -/
def hookKey (app : RoomID) (stream : StreamID) : String := app ++ "/" ++ stream

/-- A call of `StoreHookRecord`. -/
structure HookStore where
  app : RoomID
  stream : StreamID
  callURL : String
  /-- The clock when the record is made. -/
  ts : ℕ
  /-- The clock when the cache is pruned, and the order the loop over it takes. -/
  now : ℕ
  rank : String → ℕ

abbrev HookItems := GoMap String HookRecord

namespace HookItems

def storeHookRecord (items : HookItems) (c : HookStore) : HookItems :=
  let items : HookItems := items.insert (hookKey c.app c.stream) ⟨c.callURL, c.ts⟩
  if 128 < items.entries.length then
    GoMap.deleteWhere c.rank (fun _ r => 60 * second < c.now - r.ts) items
  else items

/-- `lookupHookRecord` at `now`. -/
def lookupHookRecord (items : HookItems) (app : RoomID) (stream : StreamID) (now : ℕ) :
    String × Bool :=
  match items.lookup (hookKey app stream) with
  | none => ("", false)
  | some r => if 30 * second < now - r.ts then ("", false) else (r.fullURL, true)

end HookItems

/-- The cache alone, with whatever stores come. -/
def hookCache : Machine HookItems HookStore where
  init := ∅
  step := HookItems.storeHookRecord

/-- A recording of ZLM's, from the start that began it to the stop that ended it. -/
structure ZlmRecording where
  app : RoomID
  stream : StreamID
  stopped : Bool := false

/-- A `StoreHookRecord` that was made for a recording. -/
structure Delivery where
  recording : ℕ
  key : String
  url : String
  ts : ℕ

/-- `ResolveLatestRecordURL` for a record-stop, and the recording that this ended. -/
structure Resolver where
  app : RoomID
  stream : StreamID
  ended : Option ℕ
  attempt : ℕ := 0
  /-- When it wakes up. -/
  due : ℕ

/-- The acknowledgement of a record-stop. -/
structure StopAck where
  app : RoomID
  stream : StreamID
  ended : Option ℕ
  recordFileURL : Option String
  deriving DecidableEq

structure Recorder where
  now : ℕ := 0
  items : HookItems := ∅
  recordings : List ZlmRecording := []
  hooks : List Delivery := []
  resolvers : List Resolver := []
  acks : List StopAck := []

inductive RecordLabel
  | tick (d : ℕ)
  /-- A record-start that ZLM accepts. -/
  | start (app : RoomID) (stream : StreamID)
  /-- A record-stop that ZLM accepts. -/
  | stop (app : RoomID) (stream : StreamID)
  /-- A recording ends without a record-stop. -/
  | cut (app : RoomID) (stream : StreamID)
  /-- The hook of recording `n`; the cache is pruned in the order of `rank`. -/
  | hook (n : ℕ) (rank : String → ℕ)
  /-- The `n`-th of the resolvers looks into the cache. -/
  | poll (n : ℕ)

namespace Recorder

def maxAttempts : ℕ := 10
def interval : ℕ := 500000000

def storeHookRecord (s : Recorder) (rank : String → ℕ) (app : RoomID) (stream : StreamID)
    (callURL : String) : HookItems :=
  s.items.storeHookRecord ⟨app, stream, callURL, s.now, s.now, rank⟩

def lookupHookRecord (s : Recorder) (app : RoomID) (stream : StreamID) : Option String :=
  let (u, ok) := s.items.lookupHookRecord app stream s.now
  if ok then some u else none

/-- The recording in progress. -/
def running (s : Recorder) (app : RoomID) (stream : StreamID) : Option ℕ :=
  s.recordings.findIdx? fun x => x.app = app && x.stream = stream && !x.stopped

def finish (s : Recorder) (n : ℕ) : Recorder :=
  { s with recordings := s.recordings.modify n fun x => { x with stopped := true } }

/-- One attempt of `ResolveLatestRecordURL`, and the acknowledgement after the last. -/
def poll (s : Recorder) (n : ℕ) : Recorder :=
  match s.resolvers[n]? with
  | none => s
  | some w =>
    if s.now < w.due then s
    else match s.lookupHookRecord w.app w.stream with
      | some u =>
        { s with
          resolvers := s.resolvers.eraseIdx n
          acks := s.acks ++ [⟨w.app, w.stream, w.ended, some u⟩] }
      | none =>
        if w.attempt < maxAttempts - 1 then
          { s with
            resolvers := s.resolvers.set n { w with attempt := w.attempt + 1, due := s.now + interval } }
        else
          { s with
            resolvers := s.resolvers.eraseIdx n
            acks := s.acks ++ [⟨w.app, w.stream, w.ended, none⟩] }

/-- The receiver of the hook, for the file of recording `n`. -/
def receiveHook (file : ℕ → String) (s : Recorder) (n : ℕ) (rank : String → ℕ) : Recorder :=
  match s.recordings[n]? with
  | none => s
  | some x =>
    -- a recording has a file when it is over
    if !x.stopped then s
    else if x.app = "" ∨ x.stream = "" then s
    else if file n = "" then s
    else
      { s with
        items := s.storeHookRecord rank x.app x.stream (file n)
        hooks := s.hooks ++ [⟨n, hookKey x.app x.stream, file n, s.now⟩] }

def step (file : ℕ → String) (s : Recorder) : RecordLabel → Recorder
  | .tick d => { s with now := s.now + d }
  | .start app stream =>
    if (s.running app stream).isSome then s
    else { s with recordings := s.recordings ++ [{ app, stream }] }
  | .stop app stream =>
    let ended := s.running app stream
    let s := (ended.map s.finish).getD s
    { s with resolvers := s.resolvers ++ [{ app, stream, ended, due := s.now }] }
  | .cut app stream => ((s.running app stream).map s.finish).getD s
  | .hook n rank => s.receiveHook file n rank
  | .poll n => s.poll n

end Recorder

/-- Recordings, given the URL of each one's file. -/
def recorder (file : ℕ → String) : Machine Recorder RecordLabel where
  init := {}
  step := Recorder.step file

end Meetkit
