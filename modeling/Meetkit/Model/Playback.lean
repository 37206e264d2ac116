import Meetkit.Lib.Query
import Meetkit.Model.Proxy
import Meetkit.Model.RecordURL

/-! The file of a recording on its way back to the page: the URLs that `showPreview` and
`downloadPreview` of app.js and push.js ask the server for, and how `/api/record-file`
reads them. A string is its list of bytes, the fields of the hook too: ZLM puts no white
space around its `url`, and it ends in the name of a file, not in a byte 0x85 or 0xa0. -/

namespace Meetkit

open Query Url

/-- What the pages put in front of every URL. -/
def recordFilePath : List Char := "/api/record-file?url=".toList

/-- `showPreview`. -/
def previewURL (url : List Char) : List Char :=
  recordFilePath ++ encodeURIComponent url ++ "&mode=preview".toList

/-- `downloadPreview`. -/
def downloadURL (url filename : List Char) : List Char :=
  recordFilePath ++ encodeURIComponent url ++ "&mode=download&filename=".toList ++
    encodeURIComponent filename

/-- What `/api/record-file` does for one request: the request it makes of ZLM, and the name
in the `Content-Disposition` of its answer. -/
structure RecordFileReply where
  request : ProxyRequest
  attachment : Option (List Char)
  deriving DecidableEq

def attachment (q : Values) : Option (List Char) :=
  if q.get "mode".toList = "download".toList then
    let filename := q.get "filename".toList
    some (if filename = [] then "record.mp4".toList else filename)
  else none

/-- The handler, from the target of the request. -/
def serveRecordFile (apiBase : APIBase) (target : List Char) (rangeHeader : String) :
    Except ProxyError RecordFileReply := do
  let q := parseQuery (cut '?' target).2
  let request ← recordFile apiBase (q.get "url".toList) rangeHeader
  return ⟨request, attachment q⟩

end Meetkit
