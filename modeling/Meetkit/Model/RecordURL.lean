import Meetkit.Lib.Text
import Meetkit.Lib.Url

/-! The URL of a recorded file, from what ZLM's `on_record_mp4` hook says of it. A Go string
is a list of characters here. All that is looked for is ASCII, so on a list of bytes the same
is done, but for the white space around `url`: beyond ASCII that is a character, and no byte. -/

namespace Meetkit

open Text Url

/-- The fields of the hook's body that a URL is made of. -/
structure RecordMp4HookPayload where
  fileName : List Char := []
  filePath : List Char := []
  folder : List Char := []
  /-- The HTTP path below ZLM's `www/` directory. -/
  url : List Char := []

def www : List Char := ['w', 'w', 'w', '/']

/-- The part of ZLM's `rootPath` below its `www/` directory. -/
def buildRecordURLPrefix (rootPath : List Char) : List Char :=
  match index www rootPath with
  | none => ['/']
  | some idx =>
    let pre := rootPath.drop (idx + 4)
    let pre := if ['/'].isSuffixOf pre then pre else pre ++ ['/']
    if ['/'].isPrefixOf pre then pre else '/' :: pre

def filePathToHTTP (abs : List Char) : List Char :=
  -- the second search is for the same text
  match (index www abs).or (index www abs) with
  | none => []
  | some idx =>
    let rel := abs.drop (idx + 4)
    if ['/'].isPrefixOf rel then rel else '/' :: rel

/-- The last resort of `BuildRecordURLFromHook`: the folder, the directory of the date and
the name of the file. -/
def relFromFolder (h : RecordMp4HookPayload) : List Char :=
  if '/' ∈ h.filePath then
    let parent := beforeLast '/' h.filePath
    if '/' ∈ parent then
      trim '/' (buildRecordURLPrefix h.folder) ++ '/' :: afterLast '/' parent ++ '/' :: h.fileName
    else []
  else []

def buildRecordURLFromHook (apiBase : List Char) (h : RecordMp4HookPayload) : List Char :=
  let base := trimRight '/' apiBase
  let rel := trimSpaceList h.url
  let rel := if rel = [] then filePathToHTTP h.filePath else rel
  let rel := if rel = [] ∧ h.fileName ≠ [] ∧ h.filePath ≠ [] then relFromFolder h else rel
  if rel = [] then [] else base ++ '/' :: trimLeft '/' rel

end Meetkit
