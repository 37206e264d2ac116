import Meetkit.Lib.Machine
import Meetkit.Model.World

/-! What the server has to account for towards ZLM: the app each member is in, the
streams registered under its kinds, the kinds it records, and the calls that are
still to be made. Messages, rooms, observers and everything that is only shown to
people are left out. An act is one accepted message, judged by the state before
it; `history` keeps the events that concern ZLM. -/

namespace Meetkit

def ZlmCall.app : ZlmCall → RoomID
  | .stopRecord app _ => app
  | .closeStream app _ => app

def ZlmCall.stream : ZlmCall → StreamID
  | .stopRecord _ stream => stream
  | .closeStream _ stream => stream

inductive Act
  | rest
  | join (c : UserID) (app : RoomID)
  /-- A push that ZLM answered, registered under its kind. -/
  | publish (c : UserID) (kind : Kind) (stream : StreamID)
  /-- A stream-started, registered without a push. -/
  | start (c : UserID) (kind : Kind) (stream : StreamID)
  | stop (c : UserID) (p : StreamStoppedPayload)
  | record (c : UserID) (start : Bool) (kind : Kind) (stream : StreamID) (ok : Bool)
  | depart (c : UserID) (entries : List (Kind × StreamID))
  | call (n : ℕ)
  deriving DecidableEq

/-- A stream-stopped is on record even when it is refused. -/
def Act.heard : Act → List Event
  | .stop c p => [.received c (.streamStopped (.ok p))]
  | _ => []

/-- The events that concern ZLM, and the messages that end a publication. -/
def Event.onBooks : Event → Bool
  | .received _ (.streamStopped (.ok _)) => true
  | .exchangedSDP _ .push _ _ true => true
  | .published .. | .startedRecord .. | .stoppedRecord .. => true
  | .spawned .. | .called .. | .departed .. => true
  | _ => false

@[ext]
structure Books where
  app : UserID → Option RoomID := fun _ => none
  streams : UserID → GoMap Kind StreamID := fun _ => ∅
  recordings : UserID → GoMap Kind Bool := fun _ => ∅
  pending : List Goroutine := []
  history : List Event := []

namespace Books

def note (b : Books) (es : List Event) : Books := { b with history := b.history ++ es }

def spawn (b : Books) (c : UserID) (calls : List ZlmCall) : Books :=
  { b with
    pending := b.pending ++ [⟨c, calls⟩]
    history := b.history ++ [.spawned c calls] }

def setStreams (b : Books) (c : UserID) (m : GoMap Kind StreamID) : Books :=
  { b with streams := Function.update b.streams c m }

def setRecordings (b : Books) (c : UserID) (m : GoMap Kind Bool) : Books :=
  { b with recordings := Function.update b.recordings c m }

section Updates

variable (b : Books) (c d : UserID) (es : List Event) (calls : List ZlmCall)
  (m : GoMap Kind StreamID) (n : GoMap Kind Bool)

@[simp] theorem note_app : (b.note es).app = b.app := rfl
@[simp] theorem note_streams : (b.note es).streams = b.streams := rfl
@[simp] theorem note_recordings : (b.note es).recordings = b.recordings := rfl
@[simp] theorem note_pending : (b.note es).pending = b.pending := rfl
@[simp] theorem note_history : (b.note es).history = b.history ++ es := rfl
@[simp] theorem spawn_app : (b.spawn c calls).app = b.app := rfl
@[simp] theorem spawn_streams : (b.spawn c calls).streams = b.streams := rfl
@[simp] theorem spawn_recordings : (b.spawn c calls).recordings = b.recordings := rfl
@[simp] theorem spawn_pending : (b.spawn c calls).pending = b.pending ++ [⟨c, calls⟩] := rfl
@[simp] theorem spawn_history : (b.spawn c calls).history = b.history ++ [.spawned c calls] := rfl
@[simp] theorem setStreams_app : (b.setStreams c m).app = b.app := rfl
@[simp] theorem setStreams_recordings : (b.setStreams c m).recordings = b.recordings := rfl
@[simp] theorem setStreams_pending : (b.setStreams c m).pending = b.pending := rfl
@[simp] theorem setStreams_history : (b.setStreams c m).history = b.history := rfl
@[simp] theorem setRecordings_app : (b.setRecordings c n).app = b.app := rfl
@[simp] theorem setRecordings_streams : (b.setRecordings c n).streams = b.streams := rfl
@[simp] theorem setRecordings_pending : (b.setRecordings c n).pending = b.pending := rfl
@[simp] theorem setRecordings_history : (b.setRecordings c n).history = b.history := rfl

@[simp] theorem setStreams_streams :
    (b.setStreams c m).streams d = if d = c then m else b.streams d := Function.update_apply _ _ _ _

@[simp] theorem setRecordings_recordings :
    (b.setRecordings c n).recordings d = if d = c then n else b.recordings d :=
  Function.update_apply _ _ _ _

theorem note_nil : b.note [] = b := by
  simp [note]

theorem note_note (fs : List Event) : (b.note es).note fs = b.note (es ++ fs) := by
  simp [note, List.append_assoc]

end Updates

/-- The kinds of `c` that carry a recording. -/
def recorded (b : Books) (c : UserID) (entries : List (Kind × StreamID)) : List (Kind × StreamID) :=
  entries.filter fun e => (b.recordings c).lookup e.1 = some true

/-- What a departure asks of ZLM. -/
def departureCalls (b : Books) (c : UserID) (app : RoomID) (entries : List (Kind × StreamID)) :
    List ZlmCall :=
  (b.recorded c entries).map (fun e => .stopRecord app e.2) ++
    entries.map fun e => .closeStream app e.2

def publish (b : Books) (c : UserID) (kind : Kind) (stream : StreamID) : Books :=
  match b.app c with
  | none => b
  | some app =>
    (b.setStreams c ((b.streams c).insert kind stream)).note
      [.exchangedSDP c .push app stream true, .published c app kind stream]

def start (b : Books) (c : UserID) (kind : Kind) (stream : StreamID) : Books :=
  match b.app c with
  | none => b
  | some _ => b.setStreams c ((b.streams c).insert kind stream)

def unregister (b : Books) (c : UserID) (kind : Kind) : Books :=
  match b.app c with
  | none => b
  | some app =>
    if kind = "" then b
    else
      let stream := ((b.streams c).lookup kind).getD ""
      let b := b.setStreams c ((b.streams c).erase kind)
      if stream ≠ "" then b.spawn c [.closeStream app stream] else b

def record (b : Books) (c : UserID) (start : Bool) (kind : Kind) (stream : StreamID) (ok : Bool) :
    Books :=
  match b.app c with
  | none => b
  | some app =>
    let b := b.note [.recordCall start c app kind stream ok]
    if ok then b.setRecordings c ((b.recordings c).insert kind start) else b

def depart (b : Books) (c : UserID) (entries : List (Kind × StreamID)) : Books :=
  match b.app c with
  | none => b
  | some app =>
    let calls := b.departureCalls c app entries
    let b := { b with app := Function.update b.app c none }
    (((b.setStreams c ∅).setRecordings c ∅).spawn c calls).note [.departed c app]

def call (b : Books) (n : ℕ) : Books :=
  match b.pending[n]? with
  | some ⟨c, call :: calls⟩ => { b with pending := b.pending.set n ⟨c, calls⟩ }.note [.called c call]
  | _ => b

def perform (b : Books) : Act → Books
  | .rest => b
  | .join c app => { b with app := Function.update b.app c (some app) }
  | .publish c kind stream => b.publish c kind stream
  | .start c kind stream => b.start c kind stream
  | .stop c p => b.unregister c p.kind
  | .record c start kind stream ok => b.record c start kind stream ok
  | .depart c entries => b.depart c entries
  | .call n => b.call n

def step (b : Books) (a : Act) : Books := (b.note a.heard).perform a

/-- What performing an act comes to, by whether its client is in an app. -/
inductive Effect (b : Books) : Act → Books → Prop
  | nothing {a : Act} : Effect b a b
  | joined {c : UserID} {app : RoomID} :
      Effect b (.join c app) { b with app := Function.update b.app c (some app) }
  | published {c : UserID} {app : RoomID} {kind : Kind} {stream : StreamID}
      (happ : b.app c = some app) :
      Effect b (.publish c kind stream) ((b.setStreams c ((b.streams c).insert kind stream)).note
        [.exchangedSDP c .push app stream true, .published c app kind stream])
  | started {c : UserID} {app : RoomID} {kind : Kind} {stream : StreamID}
      (happ : b.app c = some app) :
      Effect b (.start c kind stream) (b.setStreams c ((b.streams c).insert kind stream))
  /-- The kind carries no stream, or a nameless one. -/
  | unnamed {c : UserID} {p : StreamStoppedPayload}
      (hs : ∀ stream, (b.streams c).lookup p.kind = some stream → stream = "") :
      Effect b (.stop c p) (b.setStreams c ((b.streams c).erase p.kind))
  | stopped {c : UserID} {app : RoomID} {p : StreamStoppedPayload} {stream : StreamID}
      (happ : b.app c = some app) (hk : p.kind ≠ "")
      (hs : (b.streams c).lookup p.kind = some stream) :
      Effect b (.stop c p)
        ((b.setStreams c ((b.streams c).erase p.kind)).spawn c [.closeStream app stream])
  | recordFailed {c : UserID} {app : RoomID} {start : Bool} {kind : Kind} {stream : StreamID}
      (happ : b.app c = some app) : Effect b (.record c start kind stream false)
        (b.note [.recordCall start c app kind stream false])
  | recorded {c : UserID} {app : RoomID} {start : Bool} {kind : Kind} {stream : StreamID}
      (happ : b.app c = some app) :
      Effect b (.record c start kind stream true)
        ((b.note [.recordCall start c app kind stream true]).setRecordings c
            ((b.recordings c).insert kind start))
  | departed {c : UserID} {app : RoomID} {entries : List (Kind × StreamID)}
      (happ : b.app c = some app) :
      Effect b (.depart c entries)
        ((((({ b with app := Function.update b.app c none } : Books).setStreams c ∅).setRecordings c
          ∅).spawn c (b.departureCalls c app entries)).note [.departed c app])
  | called {n : ℕ} {c : UserID} {call : ZlmCall} {calls : List ZlmCall}
      (hn : b.pending[n]? = some ⟨c, call :: calls⟩) :
      Effect b (.call n) (({ b with pending := b.pending.set n ⟨c, calls⟩ } : Books).note
        [.called c call])

theorem perform_effect (b : Books) (a : Act) : b.Effect a (b.perform a) := by
  cases a with
  | rest => exact .nothing
  | join c app => exact .joined
  | publish c kind stream =>
    simp only [perform, publish]
    cases happ : b.app c with
    | none => exact .nothing
    | some app => exact .published happ
  | start c kind stream =>
    simp only [perform, start]
    cases happ : b.app c with
    | none => exact .nothing
    | some app => exact .started happ
  | stop c p =>
    simp only [perform, unregister]
    cases happ : b.app c with
    | none => exact .nothing
    | some app =>
      dsimp only
      split_ifs with hk hs
      · exact .nothing
      · cases hl : (b.streams c).lookup p.kind with
        | none => rw [hl] at hs; exact absurd rfl hs
        | some stream => exact .stopped happ hk hl
      · refine .unnamed fun stream hl => ?_
        rw [hl] at hs
        simpa using hs
  | record c start kind stream ok =>
    simp only [perform, record]
    cases happ : b.app c with
    | none => exact .nothing
    | some app =>
      cases ok with
      | false => exact .recordFailed happ
      | true => exact .recorded happ
  | depart c entries =>
    simp only [perform, depart]
    cases happ : b.app c with
    | none => exact .nothing
    | some app => exact .departed happ
  | call n =>
    simp only [perform, call]
    cases hn : b.pending[n]? with
    | none => exact .nothing
    | some g =>
      obtain ⟨c, _ | ⟨call, calls⟩⟩ := g
      · exact .nothing
      · exact .called hn

/-- What every act obeys: a client joins once it is out of its app, registers named
streams, records what is registered, and departs with all its streams. -/
def Lawful (b : Books) : Act → Prop
  | .join c _ => b.app c = none
  | .publish _ _ stream => stream ≠ ""
  | .start _ _ stream => stream ≠ ""
  | .record c _ kind stream _ => (b.streams c).lookup kind = some stream
  | .depart c entries => ∀ kind stream,
    (kind, stream) ∈ entries ↔ (b.streams c).lookup kind = some stream
  | _ => True

/-- A client outside every app holds nothing, and every registered stream is named. -/
structure Tidy (b : Books) : Prop where
  outside : ∀ c, b.app c = none → b.streams c = ∅ ∧ b.recordings c = ∅
  named : ∀ c kind stream, (b.streams c).lookup kind = some stream → stream ≠ ""

theorem Effect.history {b b' : Books} {a : Act} (h : b.Effect a b') :
    ∃ es, b'.history = b.history ++ es := by
  cases h with
  | departed happ => exact ⟨_, List.append_assoc _ _ _⟩
  | nothing => exact ⟨[], (List.append_nil _).symm⟩
  | joined => exact ⟨[], (List.append_nil _).symm⟩
  | started happ => exact ⟨[], (List.append_nil _).symm⟩
  | unnamed hs => exact ⟨[], (List.append_nil _).symm⟩
  | _ => exact ⟨_, rfl⟩

theorem heard_eq_nil {a : Act} (h : ∀ c p, a ≠ .stop c p) : a.heard = [] := by
  cases a with
  | stop c p => exact absurd rfl (h c p)
  | _ => rfl

theorem mem_heard {a : Act} {e : Event} (h : e ∈ a.heard) :
    ∃ c p, e = .received c (.streamStopped (.ok p)) := by
  cases a with
  | stop c p => exact ⟨c, p, List.mem_singleton.1 h⟩
  | _ => cases h

theorem Tidy.note {b : Books} (h : b.Tidy) (es : List Event) : (b.note es).Tidy :=
  ⟨h.outside, h.named⟩

theorem lawful_note {b : Books} {a : Act} {es : List Event} : (b.note es).Lawful a ↔ b.Lawful a := by
  cases a <;> rfl

end Books

def books : Machine Books Act where
  init := {}
  step := Books.step

end Meetkit
