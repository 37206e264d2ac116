import Meetkit.Lib.Query
import Meetkit.Lib.Text
import Meetkit.Model.Proxy
import Meetkit.Model.World

/-! The requests of the ZLM client as they go over the wire: a path of ZLM's HTTP API and
its parameters, `url.Values` encoded into the query. -/

namespace Meetkit

open Query Text Url

inductive RecordType
  | hls
  | mp4
  deriving DecidableEq, Repr

/-- `fmt.Sprintf("%d", recordType)`. -/
def RecordType.text : RecordType → List Char
  | hls => ['0']
  | mp4 => ['1']

def WebRTCType.text : WebRTCType → List Char
  | push => "push".toList
  | play => "play".toList

def defaultVhost : List Char := "__defaultVhost__".toList

/-- A call of a method of the ZLM client. -/
inductive ZlmRequest
  | exchangeSDP (rtcType : WebRTCType) (app stream : Bytes)
  | startRecord (app stream : Bytes) (recordType : RecordType)
  | stopRecord (app stream : Bytes) (recordType : RecordType)
  | isRecording (app stream : Bytes) (recordType : RecordType)
  | closeStream (app stream : Bytes)
  | getMediaList
  | getThreadsLoad
  | getWorkThreadsLoad
  | getStatistic
  | getVersion
  deriving DecidableEq

def recordQuery (secret app stream : Bytes) (recordType : RecordType) : Values :=
  [("secret".toList, secret), ("type".toList, recordType.text), ("vhost".toList, defaultVhost),
    ("app".toList, app), ("stream".toList, stream)]

/-- The query of `getSecretJSON`. -/
def secretQuery (secret : Bytes) : Values := [("secret".toList, secret)]

namespace ZlmRequest

def path : ZlmRequest → List Char
  | exchangeSDP .. => "/index/api/webrtc".toList
  | startRecord .. => "/index/api/startRecord".toList
  | stopRecord .. => "/index/api/stopRecord".toList
  | isRecording .. => "/index/api/isRecording".toList
  | closeStream .. => "/index/api/close_streams".toList
  | getMediaList => "/index/api/getMediaList".toList
  | getThreadsLoad => "/index/api/getThreadsLoad".toList
  | getWorkThreadsLoad => "/index/api/getWorkThreadsLoad".toList
  | getStatistic => "/index/api/getStatistic".toList
  | getVersion => "/index/api/version".toList

/-- The parameters, in the order they are set. -/
def query (secret : Bytes) : ZlmRequest → Values
  | exchangeSDP rtcType app stream =>
    [("app".toList, app), ("stream".toList, stream), ("type".toList, rtcType.text),
      ("vhost".toList, defaultVhost)]
  | startRecord app stream recordType => recordQuery secret app stream recordType
  | stopRecord app stream recordType => recordQuery secret app stream recordType
  | isRecording app stream recordType => recordQuery secret app stream recordType
  | closeStream app stream =>
    [("secret".toList, secret), ("vhost".toList, defaultVhost), ("app".toList, app),
      ("stream".toList, stream), ("force".toList, ['1'])]
  | getMediaList => [("secret".toList, secret), ("vhost".toList, defaultVhost)]
  | getThreadsLoad => secretQuery secret
  | getWorkThreadsLoad => secretQuery secret
  | getStatistic => secretQuery secret
  | getVersion => secretQuery secret

def endpoint (apiBase : List Char) (secret : Bytes) (r : ZlmRequest) : List Char :=
  trimRight '/' apiBase ++ r.path ++ '?' :: (r.query secret).encode

end ZlmRequest

/-! ### What the receiver reads -/

def asBytes (s : List Char) : Option Bytes := if h : IsBytes s then some ⟨s, h⟩ else none

def readType (s : List Char) : Option WebRTCType :=
  if s = WebRTCType.push.text then some .push
  else if s = WebRTCType.play.text then some .play
  else none

def readRecordType (s : List Char) : Option RecordType :=
  if s = RecordType.hls.text then some .hls
  else if s = RecordType.mp4.text then some .mp4
  else none

/-- The request that a server of ZLM's API finds in a path and a query decoded as a form. -/
def readRequest (path : List Char) (q : Values) : Option ZlmRequest :=
  let app := asBytes (q.get "app".toList)
  let stream := asBytes (q.get "stream".toList)
  let recordType := readRecordType (q.get "type".toList)
  if path = "/index/api/webrtc".toList then do
    return .exchangeSDP (← readType (q.get "type".toList)) (← app) (← stream)
  else if path = "/index/api/startRecord".toList then do
    return .startRecord (← app) (← stream) (← recordType)
  else if path = "/index/api/stopRecord".toList then do
    return .stopRecord (← app) (← stream) (← recordType)
  else if path = "/index/api/isRecording".toList then do
    return .isRecording (← app) (← stream) (← recordType)
  else if path = "/index/api/close_streams".toList then do
    return .closeStream (← app) (← stream)
  else if path = "/index/api/getMediaList".toList then some .getMediaList
  else if path = "/index/api/getThreadsLoad".toList then some .getThreadsLoad
  else if path = "/index/api/getWorkThreadsLoad".toList then some .getWorkThreadsLoad
  else if path = "/index/api/getStatistic".toList then some .getStatistic
  else if path = "/index/api/version".toList then some .getVersion
  else none

/-- The same from a whole endpoint below a base. -/
def readEndpoint (base endpoint : List Char) : Option ZlmRequest :=
  if base.isPrefixOf endpoint then
    let (path, query) := cut '?' (endpoint.drop base.length)
    readRequest path (parseQuery query)
  else none

end Meetkit
