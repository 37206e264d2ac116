import Meetkit.Lib.GoMap
import Meetkit.Model.Server

/-! The `Signaling` of a page and its connection to the server: what the page sent and
the server has yet to read, and what the server queued and the page has yet to read.
Promises are numbered by the calls of `request` that made them, and the timer of a
promise has its number. -/

namespace Meetkit

/-- `WebSocket.readyState`. -/
inductive ReadyState
  | connecting | opened | closing | closed
  deriving DecidableEq, Repr

/-- What the promise of a request is settled with. -/
inductive Outcome
  /-- The payload of a message that is not an error. -/
  | resolved (m : ServerMsg)
  | refused (e : Err)
  | timedOut
  | connectionClosed
  | notOpen
  deriving DecidableEq

/-- A call of `resolve` or `reject`. -/
structure Settlement where
  promise : ℕ
  outcome : Outcome
  deriving DecidableEq

structure Signaling where
  ws : ReadyState := .connecting
  /-- The promises of the requests in flight, by their ids. -/
  pending : GoMap String ℕ := ∅
  reqSeq : ℕ := 0
  closedByUser : Bool := false
  promises : ℕ := 0
  /-- The request ids of the timers that are set. -/
  timers : GoMap ℕ String := ∅
  settlements : List Settlement := []
  /-- The messages that went to the listeners. -/
  emitted : List ServerMsg := []

/-- What a reply does to its promise. -/
def Outcome.reply : ServerMsg → Outcome
  | .error e => .refused e
  | m => .resolved m

/-- Whether a message settled the promise. -/
def Outcome.isReply : Outcome → Bool
  | .resolved _ | .refused _ => true
  | _ => false

/-- `r${n}`. -/
def reqID (n : ℕ) : String := "r" ++ toString n

namespace Signaling

/-- Deletes the entry of a request and its timer, and settles its promise. -/
def settle (s : Signaling) (q : String) (n : ℕ) (o : Outcome) : Signaling :=
  { s with
    pending := s.pending.erase q
    timers := s.timers.erase n
    settlements := s.settlements ++ [⟨n, o⟩] }

/-- `request`, and what it sends. -/
def request (s : Signaling) (body : Body) : Signaling × Option Envelope :=
  let n := s.promises
  if s.ws ≠ .opened then
    ({ s with promises := n + 1, settlements := s.settlements ++ [⟨n, .notOpen⟩] }, none)
  else
    let q := reqID (s.reqSeq + 1)
    ({ s with
        promises := n + 1
        reqSeq := s.reqSeq + 1
        timers := s.timers.insert n q
        pending := s.pending.insert q n }, some ⟨q, body⟩)

/-- `send`, which throws unless the socket is open. -/
def send (s : Signaling) (body : Body) : Option Envelope :=
  if s.ws ≠ .opened then none else some ⟨"", body⟩

/-- The callback of a timer, which is set no longer. -/
def timeout (s : Signaling) (n : ℕ) : Signaling :=
  match s.timers.lookup n with
  | none => s
  | some q => s.settle q n .timedOut

/-- `_onMessage`. A socket that is closing has no more message events. -/
def onMessage (s : Signaling) (q : String) (m : ServerMsg) : Signaling :=
  if s.ws ≠ .opened then s
  else match if q ≠ "" then s.pending.lookup q else none with
    | some n => s.settle q n (.reply m)
    | none => { s with emitted := s.emitted ++ [m] }

/-- The listener of the close event, over the entries in the order of their insertion. -/
def onClose (s : Signaling) : Signaling :=
  s.pending.entries.reverse.foldl (fun s e => s.settle e.1 e.2 .connectionClosed)
    { s with ws := .closed }

def close (s : Signaling) : Signaling :=
  { s with closedByUser := true, ws := if s.ws = .closed then .closed else .closing }

end Signaling

structure Link where
  world : World
  page : Signaling := {}
  up : List Envelope := []
  down : List (String × ServerMsg) := []
  /-- The requests that were sent, under their promises. -/
  asked : List (ℕ × Envelope) := []
  /-- What the server read from the page, each with what it queued for the page when
  it handled that. -/
  served : List (Envelope × List (String × ServerMsg)) := []

inductive LinkLabel
  /-- The server takes a step that reads nothing from the page. -/
  | server (i : Input)
  /-- The server reads the next message of the page. -/
  | serve (env : Env)
  /-- A message that was to be queued `n`-th is dropped. -/
  | drop (n : ℕ)
  | opened
  | request (body : Body)
  | send (body : Body)
  | message
  | timeout (n : ℕ)
  | close
  | closed

/-- The input neither comes from the connection of `c` nor gives its id to an observer. -/
def Input.spares (c : UserID) (i : Input) : Bool :=
  match i.op with
  | .receive d _ => d ≠ c
  | .badEnvelope d _ => d ≠ c
  | .observe _ _ (.join u _) => u ≠ c
  | _ => true

namespace Link

/-- What the server queues for `c` in one step. -/
def queued (s : Link) (c : UserID) (i : Input) : List (String × ServerMsg) :=
  inbox c (s.world.news i)

def step (c : UserID) (s : Link) : LinkLabel → Link
  | .server i =>
    if i.spares c then { s with world := s.world.step i, down := s.down ++ s.queued c i } else s
  | .serve env =>
    match s.up with
    | [] => s
    | e :: up =>
      let i : Input := { op := .receive c e, env }
      if s.world.serving c then
        { s with
          world := s.world.step i
          up
          down := s.down ++ s.queued c i
          served := s.served ++ [(e, s.queued c i)] }
      else s
  | .drop n => { s with down := s.down.eraseIdx n }
  | .opened =>
    if s.page.ws = .connecting ∧ c ∈ s.world.hub.used then
      { s with page := { s.page with ws := .opened } }
    else s
  | .request body =>
    match s.page.request body with
    | (page, none) => { s with page }
    | (page, some e) =>
      { s with page, up := s.up ++ [e], asked := s.asked ++ [(s.page.promises, e)] }
  | .send body =>
    match s.page.send body with
    | none => s
    | some e => { s with up := s.up ++ [e] }
  | .message =>
    match s.down with
    | [] => s
    | (q, m) :: down =>
      if s.page.ws = .connecting then s else { s with page := s.page.onMessage q m, down }
  | .timeout n => { s with page := s.page.timeout n }
  | .close => { s with page := s.page.close }
  | .closed => if s.page.ws = .closed then s else { s with page := s.page.onClose }

end Link

/-- A page to whose connection the server gives the user id `c`. -/
def link (token : String) (c : UserID) : Machine Link LinkLabel where
  init := { world := { hub := { token } } }
  step := Link.step c

end Meetkit
