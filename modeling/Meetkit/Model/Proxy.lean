import Meetkit.Lib.Url

/-! `/api/record-file`: the proxy in front of ZLM's HTTP server. -/

namespace Meetkit

open Url

/-- `zlm.api_base`: `scheme://host` or `scheme://host:port`. -/
structure APIBase where
  scheme : List Char
  host : List Char
  port : Option (List Char)
  /-- The host as `net/url` reads it. -/
  hostname : List Char
  scheme_head : scheme.head?.any isAlpha
  scheme_chars : scheme.all isSchemeChar
  host_ne : host ≠ []
  host_reads : parseHost host = some hostname
  host_alone : splitHostPort hostname = (hostname, [])
  port_ne : port ≠ some []
  port_digits : (port.getD []).all isDigit

namespace APIBase

def colonPort (b : APIBase) : List Char :=
  match b.port with
  | none => []
  | some port => ':' :: port

def authority (b : APIBase) : List Char := b.host ++ b.colonPort

def text (b : APIBase) : List Char := b.scheme ++ ':' :: '/' :: '/' :: b.authority

/-- The host and port as `net/url` reads them. -/
def hostport (b : APIBase) : List Char := b.hostname ++ b.colonPort

def origin (b : APIBase) : Origin := ⟨b.scheme.map Char.toLower, b.hostname, b.port.getD []⟩

end APIBase

/-- What `config.Load` sets when the file has no `api_base`. -/
def defaultAPIBase : APIBase where
  scheme := "http".toList
  host := "127.0.0.1".toList
  port := some "80".toList
  hostname := "127.0.0.1".toList
  scheme_head := by decide
  scheme_chars := by decide
  host_ne := by decide
  host_reads := by decide +kernel
  host_alone := by decide +kernel
  port_ne := by decide
  port_digits := by decide

inductive ProxyError where
  | missingURL
  | invalidURL
  | badRequest
  deriving DecidableEq

def ProxyError.status : ProxyError → ℕ
  | missingURL => 400
  | invalidURL => 403
  | badRequest => 500

structure ProxyRequest where
  url : URL
  range : Option String
  deriving DecidableEq

/-- The request to ZLM's server. `fileURL` is the `url` parameter, `rangeHeader` the
header of the incoming request. -/
def recordFile (apiBase : APIBase) (fileURL : List Char) (rangeHeader : String) :
    Except ProxyError ProxyRequest :=
  if fileURL = [] then .error .missingURL
  else if !apiBase.text.isPrefixOf fileURL then .error .invalidURL
  else match parse fileURL with
    | none => .error .badRequest
    | some url => .ok ⟨url, if rangeHeader = "" then none else some rangeHeader⟩

end Meetkit
