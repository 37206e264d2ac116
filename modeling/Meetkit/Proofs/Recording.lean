import Meetkit.Lib.Reader
import Meetkit.Model.Stats
import Meetkit.Proofs.Log
import Meetkit.Proofs.Runs

/-! Recording flags and the recordings that run. A flag belongs to a kind and a
recording to a stream; the two stay in step as long as a flagged kind keeps its
stream and nothing ends a stream's recording but the record-stop of the flag
itself or the departure of its client. -/

namespace Meetkit

open World

structure Recording where
  client : UserID
  app : RoomID
  kind : Kind
  stream : StreamID
  deriving DecidableEq

/-- The call ends the recording. -/
def Recording.EndedBy (q : Recording) (call : ZlmCall) : Prop :=
  call.app = q.app ∧ call.stream = q.stream

instance (q : Recording) (call : ZlmCall) : Decidable (q.EndedBy call) := by
  unfold Recording.EndedBy; infer_instance

/-- The recordings that run: the latest successful StartRecord of a client for a
kind, with no StopRecord or CloseStream issued for the stream since. -/
def runningReader : Reader Event (List Recording) where
  start := []
  next l
    | .startedRecord c app kind stream true =>
      ⟨c, app, kind, stream⟩ :: l.filter fun q => ¬(q.client = c ∧ q.kind = kind)
    | .stoppedRecord _ app _ stream _ => l.filter fun q => ¬(app = q.app ∧ stream = q.stream)
    | .spawned _ calls => l.filter fun q => ∀ call ∈ calls, ¬q.EndedBy call
    | .called _ call => l.filter fun q => ¬q.EndedBy call
    | _ => l

def runningRecordings (log : List Event) : List Recording := runningReader.read log

theorem runningRecordings_onBooks (log : List Event) :
    runningRecordings (log.filter Event.onBooks) = runningRecordings log := by
  refine Reader.read_filter (fun e l he => ?_) log
  cases e with
  | startedRecord => cases he
  | stoppedRecord => cases he
  | spawned => cases he
  | called => cases he
  | _ => rfl

namespace Books

/-- A flagged kind keeps its stream. A recording is ended by the record-stop of its
own flag, which succeeds, or by its client's departure, and none is started on a
stream that a pending call is about to end. -/
def KeepsRecordings (b : Books) : Act → Prop
  | .publish c kind stream | .start c kind stream =>
    (b.recordings c).lookup kind = some true → (b.streams c).lookup kind = some stream
  | .stop c p => p.kind ≠ "" → ∀ app ∈ b.app c, ∀ stream ∈ (b.streams c).lookup p.kind,
    ∀ q ∈ runningRecordings b.history, ¬(q.app = app ∧ q.stream = stream)
  | .record c true _ stream ok => ok = true → ∀ app ∈ b.app c, ∀ g ∈ b.pending,
    ∀ call ∈ g.calls, ¬(call.app = app ∧ call.stream = stream)
  | .record c false kind stream ok => ∀ app ∈ b.app c, ∀ q ∈ runningRecordings b.history,
    q.app = app → q.stream = stream → ok = true ∧ q.client = c ∧ q.kind = kind
  | .depart c entries => ∀ app ∈ b.app c, ∀ e ∈ entries, ∀ q ∈ runningRecordings b.history,
    q.app = app → q.stream = e.2 → q.client = c
  | _ => True

instance (b : Books) : ∀ a : Act, Decidable (b.KeepsRecordings a)
  | .publish .. | .start .. | .stop .. | .record _ true .. | .record _ false .. | .depart .. => by
    dsimp only [KeepsRecordings]; infer_instance
  | .rest | .join .. | .call .. => .isTrue trivial

/-- Flags and running recordings agree, and no pending call ends a running one. -/
structure InStep (b : Books) : Prop where
  flag : ∀ q ∈ runningRecordings b.history, b.app q.client = some q.app ∧
    (b.streams q.client).lookup q.kind = some q.stream ∧
    (b.recordings q.client).lookup q.kind = some true
  running : ∀ c app kind, b.app c = some app → (b.recordings c).lookup kind = some true →
    ∃ stream, (b.streams c).lookup kind = some stream ∧
      ⟨c, app, kind, stream⟩ ∈ runningRecordings b.history
  pending : ∀ g ∈ b.pending, ∀ call ∈ g.calls, ∀ q ∈ runningRecordings b.history, ¬q.EndedBy call

namespace InStep

variable {b b' : Books} {c : UserID} {a : Act}

theorem note (h : b.InStep) {es : List Event}
    (hes : runningRecordings (b.history ++ es) = runningRecordings b.history) :
    (b.note es).InStep := by
  refine ⟨fun q hq => h.flag q ?_, fun c app kind happ hflag => ?_, fun g hg call hcall q hq =>
    h.pending g hg call hcall q ?_⟩
  · rwa [note_history, hes] at hq
  · rw [note_history, hes]; exact h.running c app kind happ hflag
  · rwa [note_history, hes] at hq

theorem insert (h : b.InStep) {kind : Kind} {stream : StreamID}
    (hkeep : (b.recordings c).lookup kind = some true → (b.streams c).lookup kind = some stream) :
    (b.setStreams c ((b.streams c).insert kind stream)).InStep := by
  have hsame : ∀ d k s, (b.recordings d).lookup k = some true → (b.streams d).lookup k = some s →
      ((b.setStreams c ((b.streams c).insert kind stream)).streams d).lookup k = some s := by
    intro d k s hflag hlook
    rw [setStreams_streams]
    split_ifs with hd
    · subst hd
      rw [GoMap.lookup_insert_iff]
      split_ifs with hk
      · subst hk
        exact (hkeep hflag).symm.trans hlook
      · exact hlook
    · exact hlook
  refine ⟨fun q hq => ?_, fun d app k happ hflag => ?_, h.pending⟩
  · obtain ⟨happ, hlook, hflag⟩ := h.flag q hq
    exact ⟨happ, hsame _ _ _ hflag hlook, hflag⟩
  · obtain ⟨s, hlook, hq⟩ := h.running d app k happ hflag
    exact ⟨s, hsame _ _ _ hflag hlook, hq⟩

theorem erase (h : b.InStep) {kind : Kind}
    (hflag : ∀ app, b.app c = some app → (b.recordings c).lookup kind ≠ some true) :
    (b.setStreams c ((b.streams c).erase kind)).InStep := by
  have hsame : ∀ d app k s, b.app d = some app → (b.recordings d).lookup k = some true →
      (b.streams d).lookup k = some s →
      ((b.setStreams c ((b.streams c).erase kind)).streams d).lookup k = some s := by
    intro d app k s happ hup hlook
    rw [setStreams_streams]
    split_ifs with hd
    · subst hd
      rw [GoMap.lookup_erase_iff, if_neg, hlook]
      rintro rfl
      exact hflag app happ hup
    · exact hlook
  refine ⟨fun q hq => ?_, fun d app k happ hup => ?_, h.pending⟩
  · obtain ⟨happ, hlook, hup⟩ := h.flag q hq
    exact ⟨happ, hsame _ _ _ _ happ hup hlook, hup⟩
  · obtain ⟨s, hlook, hq⟩ := h.running d app k happ hup
    exact ⟨s, hsame _ _ _ _ happ hup hlook, hq⟩

theorem spawn (h : b.InStep) {calls : List ZlmCall}
    (hcalls : ∀ call ∈ calls, ∀ q ∈ runningRecordings b.history, ¬q.EndedBy call) :
    (b.spawn c calls).InStep := by
  have hrun : runningRecordings (b.spawn c calls).history = runningRecordings b.history := by
    rw [spawn_history, runningRecordings, Reader.read_snoc]
    exact List.filter_eq_self.2 fun q hq => by simpa using fun call hcall => hcalls call hcall q hq
  refine ⟨fun q hq => h.flag q (hrun ▸ hq), fun d app kind happ hflag => ?_, fun g hg call hcall q hq => ?_⟩
  · rw [hrun]; exact h.running d app kind happ hflag
  · rw [hrun] at hq
    rw [spawn_pending, List.mem_append, List.mem_singleton] at hg
    rcases hg with hg | rfl
    · exact h.pending g hg call hcall q hq
    · exact hcalls call hcall q hq

/-- A successful StartRecord of a registered stream raises the flag. -/
theorem startRecord (h : b.InStep) {app : RoomID} {kind : Kind} {stream : StreamID}
    (happ : b.app c = some app) (hlook : (b.streams c).lookup kind = some stream)
    (hfree : ∀ g ∈ b.pending, ∀ call ∈ g.calls, ¬(call.app = app ∧ call.stream = stream)) :
    ((b.note [.startedRecord c app kind stream true]).setRecordings c
      ((b.recordings c).insert kind true)).InStep := by
  have hrun : runningRecordings (b.history ++ [.startedRecord c app kind stream true]) =
      ⟨c, app, kind, stream⟩ :: (runningRecordings b.history).filter fun q =>
        ¬(q.client = c ∧ q.kind = kind) := Reader.read_snoc _ _ _
  refine ⟨fun q hq => ?_, fun d app' k happ' hflag => ?_, fun g hg call hcall q hq => ?_⟩
  · rw [setRecordings_history, note_history, hrun] at hq
    rw [setRecordings_recordings]
    rcases List.mem_cons.1 hq with rfl | hq
    · exact ⟨happ, hlook, by rw [if_pos rfl, AList.lookup_insert]⟩
    · obtain ⟨h1, h2, h3⟩ := h.flag q (List.mem_filter.1 hq).1
      refine ⟨h1, h2, ?_⟩
      split_ifs with hd
      · rw [GoMap.lookup_insert_iff]
        split_ifs
        · rfl
        · rw [← hd]; exact h3
      · exact h3
  · rw [setRecordings_history, note_history, hrun]
    rw [setRecordings_recordings] at hflag
    by_cases hself : d = c ∧ k = kind
    · obtain ⟨rfl, rfl⟩ := hself
      obtain rfl := Option.some.inj (happ.symm.trans happ')
      exact ⟨stream, hlook, List.mem_cons_self⟩
    · have hold : (b.recordings d).lookup k = some true := by
        split_ifs at hflag with hd
        · rwa [GoMap.lookup_insert_iff, if_neg fun hk => hself ⟨hd, hk⟩, ← hd] at hflag
        · exact hflag
      obtain ⟨s, hs, hq⟩ := h.running d app' k happ' hold
      exact ⟨s, hs, List.mem_cons_of_mem _ (List.mem_filter.2 ⟨hq, decide_eq_true hself⟩)⟩
  · rw [setRecordings_history, note_history, hrun] at hq
    rcases List.mem_cons.1 hq with rfl | hq
    · exact hfree g hg call hcall
    · exact h.pending g hg call hcall q (List.mem_filter.1 hq).1

/-- A successful StopRecord that ends no other recording lowers the flag. -/
theorem stopRecord (h : b.InStep) {app : RoomID} {kind : Kind} {stream : StreamID}
    (happ : b.app c = some app) (hlook : (b.streams c).lookup kind = some stream)
    (hown : ∀ q ∈ runningRecordings b.history, q.app = app → q.stream = stream →
      q.client = c ∧ q.kind = kind) :
    ((b.note [.stoppedRecord c app kind stream true]).setRecordings c
      ((b.recordings c).insert kind false)).InStep := by
  have hrun : runningRecordings (b.history ++ [.stoppedRecord c app kind stream true]) =
      (runningRecordings b.history).filter fun q => ¬(app = q.app ∧ stream = q.stream) :=
    Reader.read_snoc _ _ _
  refine ⟨fun q hq => ?_, fun d app' k happ' hflag => ?_, fun g hg call hcall q hq => ?_⟩
  · rw [setRecordings_history, note_history, hrun] at hq
    obtain ⟨hq, hne⟩ := List.mem_filter.1 hq
    obtain ⟨h1, h2, h3⟩ := h.flag q hq
    refine ⟨h1, h2, ?_⟩
    rw [setRecordings_recordings]
    split_ifs with hd
    · rw [GoMap.lookup_insert_iff, if_neg, ← hd]
      · exact h3
      · -- the recording of this very flag was ended
        intro hk
        rw [hd] at h1 h2
        rw [hk] at h2
        have h1' := Option.some.inj (happ.symm.trans h1)
        have h2' := Option.some.inj (hlook.symm.trans h2)
        simp [h1', h2'] at hne
    · exact h3
  · rw [setRecordings_history, note_history, hrun]
    rw [setRecordings_recordings] at hflag
    have hself : ¬(d = c ∧ k = kind) := by
      rintro ⟨rfl, rfl⟩
      rw [if_pos rfl, AList.lookup_insert] at hflag
      cases hflag
    have hold : (b.recordings d).lookup k = some true := by
      split_ifs at hflag with hd
      · rwa [GoMap.lookup_insert_iff, if_neg fun hk => hself ⟨hd, hk⟩, ← hd] at hflag
      · exact hflag
    obtain ⟨s, hs, hq⟩ := h.running d app' k happ' hold
    refine ⟨s, hs, List.mem_filter.2 ⟨hq, decide_eq_true fun hend => hself ?_⟩⟩
    exact hown _ hq hend.1.symm hend.2.symm
  · rw [setRecordings_history, note_history, hrun] at hq
    exact h.pending g hg call hcall q (List.mem_filter.1 hq).1

theorem depart (h : b.InStep) {app : RoomID} {entries : List (Kind × StreamID)}
    (happ : b.app c = some app)
    (hent : ∀ kind stream, (kind, stream) ∈ entries ↔ (b.streams c).lookup kind = some stream)
    (hown : ∀ e ∈ entries, ∀ q ∈ runningRecordings b.history, q.app = app → q.stream = e.2 →
      q.client = c) :
    ((((({ b with app := Function.update b.app c none } : Books).setStreams c ∅).setRecordings c
      ∅).spawn c (b.departureCalls c app entries)).note [.departed c app]).InStep := by
  have hcalls : ∀ q ∈ runningRecordings b.history,
      (∀ call ∈ b.departureCalls c app entries, ¬q.EndedBy call) ↔ q.client ≠ c := by
    intro q hq
    obtain ⟨h1, h2, -⟩ := h.flag q hq
    constructor
    · rintro hnone hc
      rw [hc] at h1 h2
      have happ' := Option.some.inj (happ.symm.trans h1)
      refine hnone (.closeStream app q.stream) ?_ ⟨happ', rfl⟩
      rw [departureCalls, List.mem_append]
      exact Or.inr (List.mem_map.2 ⟨(q.kind, q.stream), (hent _ _).2 h2, rfl⟩)
    · intro hc call hcall hend
      rw [departureCalls, List.mem_append] at hcall
      rcases hcall with hcall | hcall
      · obtain ⟨e, he, rfl⟩ := List.mem_map.1 hcall
        exact hc (hown e (List.mem_filter.1 he).1 q hq hend.1.symm hend.2.symm)
      · obtain ⟨e, he, rfl⟩ := List.mem_map.1 hcall
        exact hc (hown e he q hq hend.1.symm hend.2.symm)
  have hrun : runningRecordings ((b.history ++ [.spawned c (b.departureCalls c app entries)]) ++
      [.departed c app]) = (runningRecordings b.history).filter fun q => q.client ≠ c := by
    rw [runningRecordings, Reader.read_snoc, Reader.read_snoc]
    exact List.filter_congr fun q hq => decide_eq_decide.2 (hcalls q hq)
  refine ⟨fun q hq => ?_, fun d app' k happ' hflag => ?_, fun g hg call hcall q hq => ?_⟩
  · rw [note_history, spawn_history, setRecordings_history, setStreams_history, hrun] at hq
    obtain ⟨hq, hc⟩ := List.mem_filter.1 hq
    replace hc : q.client ≠ c := of_decide_eq_true hc
    obtain ⟨h1, h2, h3⟩ := h.flag q hq
    simp only [note_app, spawn_app, setRecordings_app, setStreams_app, note_streams, spawn_streams,
      setRecordings_streams, setStreams_streams, note_recordings, spawn_recordings,
      setRecordings_recordings, setStreams_recordings, if_neg hc, Function.update_of_ne hc]
    exact ⟨h1, h2, h3⟩
  · rw [note_history, spawn_history, setRecordings_history, setStreams_history, hrun]
    simp only [note_app, spawn_app, setRecordings_app, setStreams_app, Function.update_apply] at happ'
    split_ifs at happ' with hd
    simp only [note_recordings, spawn_recordings, setRecordings_recordings, if_neg hd,
      setStreams_recordings] at hflag
    obtain ⟨s, hs, hq⟩ := h.running d app' k happ' hflag
    refine ⟨s, ?_, List.mem_filter.2 ⟨hq, decide_eq_true hd⟩⟩
    simpa [hd] using hs
  · rw [note_history, spawn_history, setRecordings_history, setStreams_history, hrun] at hq
    obtain ⟨hq, hc⟩ := List.mem_filter.1 hq
    rw [note_pending, spawn_pending, List.mem_append, List.mem_singleton] at hg
    rcases hg with hg | rfl
    · exact h.pending g hg call hcall q hq
    · exact (hcalls q hq).2 (of_decide_eq_true hc) call hcall

theorem effect (h : b.InStep) (ht : b.Tidy) (hl : b.Lawful a) (hg : b.KeepsRecordings a)
    (he : b.Effect a b') : b'.InStep := by
  cases he with
  | nothing => exact h
  | @joined c app =>
    have hout := ht.outside c hl
    have hne : ∀ q ∈ runningRecordings b.history, q.client ≠ c := by
      rintro q hq rfl
      have hnone : b.app q.client = none := hl
      have happ := (h.flag q hq).1
      rw [hnone] at happ
      cases happ
    refine ⟨fun q hq => ?_, fun d app' kind happ hflag => ?_, h.pending⟩
    · obtain ⟨h1, h2, h3⟩ := h.flag q hq
      exact ⟨by simp only [Function.update_of_ne (hne q hq)]; exact h1, h2, h3⟩
    · simp only [Function.update_apply] at happ
      split_ifs at happ with hd
      · -- a client that joins comes with no flags
        subst hd
        rw [hout.2] at hflag
        cases hflag
      · exact h.running d app' kind happ hflag
  | published happ => exact (h.insert hg).note (Reader.read_append_ignored (by simp [runningReader]))
  | started happ => exact h.insert hg
  | @unnamed c p hs =>
    refine h.erase fun app happ hflag => ?_
    obtain ⟨s, hlook, -⟩ := h.running c app p.kind happ hflag
    exact ht.named c p.kind s hlook (hs s hlook)
  | @stopped c app p stream happ hk hs =>
    have hfree := hg hk app happ stream hs
    refine (h.erase fun app' happ' hflag => ?_).spawn fun call hcall q hq hend => ?_
    · obtain ⟨s, hlook, hq⟩ := h.running c app' p.kind happ' hflag
      exact hfree _ hq ⟨Option.some.inj (happ'.symm.trans happ),
        Option.some.inj (hlook.symm.trans hs)⟩
    · rw [List.mem_singleton.1 hcall] at hend
      exact hfree q hq ⟨hend.1.symm, hend.2.symm⟩
  | @recordFailed c app start kind stream happ =>
    cases start with
    | true => exact h.note (Reader.read_snoc _ _ _)
    | false =>
      refine h.note ?_
      rw [runningRecordings, Reader.read_snoc]
      refine List.filter_eq_self.2 fun q hq => decide_eq_true fun hend => ?_
      have := (hg app happ q hq hend.1.symm hend.2.symm).1
      cases this
  | @recorded c app start kind stream happ =>
    cases start with
    | true => exact h.startRecord happ hl fun g hgm call hcall => hg rfl app happ g hgm call hcall
    | false => exact h.stopRecord happ hl fun q hq hqa hqs => (hg app happ q hq hqa hqs).2
  | @departed c app entries happ => exact h.depart happ hl fun e he => hg app happ e he
  | @called n c call calls hn =>
    have hmem := List.mem_of_getElem? hn
    have hset : ({ b with pending := b.pending.set n ⟨c, calls⟩ } : Books).InStep := by
      refine ⟨h.flag, h.running, fun g hgm call' hcall' => ?_⟩
      rcases List.mem_or_eq_of_mem_set hgm with hgm | rfl
      · exact h.pending g hgm call' hcall'
      · exact h.pending _ hmem call' (List.mem_cons_of_mem _ hcall')
    refine hset.note ?_
    rw [runningRecordings, Reader.read_snoc]
    exact List.filter_eq_self.2 fun q hq => decide_eq_true (h.pending _ hmem call List.mem_cons_self q hq)

end InStep

theorem inStep_of_guarded {acts : List Act}
    (hg : books.Guarded (fun b a => b.KeepsRecordings a ∧ b.Tidy ∧ b.Lawful a) acts) :
    (books.run acts).InStep := by
  refine Machine.guarded_invariant (P := InStep) ?_ (fun b a hba h => ?_) hg
  · exact ⟨fun q hq => absurd hq List.not_mem_nil, fun c app kind happ => (by cases happ),
      fun g hg => absurd hg List.not_mem_nil⟩
  · obtain ⟨hkeep, htidy, hlawful⟩ := hba
    -- what was heard starts and ends no recording
    have hrun : runningRecordings (b.history ++ a.heard) = runningRecordings b.history := by
      refine Reader.read_append_ignored fun e he l => ?_
      obtain ⟨c, p, rfl⟩ := mem_heard he
      rfl
    refine (h.note hrun).effect (htidy.note _) (lawful_note.2 hlawful) ?_ (perform_effect _ a)
    cases a with
    | stop c p =>
      intro hk app happ stream hlook q hq
      rw [note_history, hrun] at hq
      exact hkeep hk app happ stream hlook q hq
    | _ => rw [heard_eq_nil (by simp), note_nil]; exact hkeep

end Books

/-! ### The server -/

section Server

variable {token : String} {is : List Input}

theorem server_inStep
    (hg : (server token).Guarded (fun w i => w.books.KeepsRecordings (w.act i)) is) :
    ((server token).run is).books.InStep := by
  obtain ⟨hb, hg'⟩ := server_books hg
  rw [hb]
  exact Books.inStep_of_guarded hg'

/-- Flags, statistics, member rows and the calls of a departure all tell of the
recordings that run, and of no other. -/
structure World.ShowsRecordings (w : World) : Prop where
  flag : ∀ r c, c ∈ (w.hub.room r).clients → w.hub.isObserver c = false → ∀ kind,
    (w.hub.client c).recordings.lookup kind = some true →
      ∃ stream, (w.hub.client c).streams.lookup kind = some stream ∧
        ⟨c, (w.hub.room r).id, kind, stream⟩ ∈ runningRecordings w.log
  flagged : ∀ q ∈ runningRecordings w.log, ∃ r, q.client ∈ (w.hub.room r).clients ∧
    w.hub.isObserver q.client = false ∧ (w.hub.room r).id = q.app ∧
    (w.hub.client q.client).streams.lookup q.kind = some q.stream ∧
    (w.hub.client q.client).recordings.lookup q.kind = some true
  stats : ∀ ord, ∀ rs ∈ (w.hub.statsSnapshot ord).rooms, ∀ x ∈ rs.clients,
    (x.recording = true ↔ ∃ q ∈ runningRecordings w.log, q.client = x.userID)
  rows : ∀ ord media, ∀ row ∈ (w.hub.memberSnapshot ord media).1,
    (row.recording = true →
      ⟨row.userID, row.roomID, row.streamKind, row.streamID⟩ ∈ runningRecordings w.log) ∧
    (row.biz ≠ "pull" →
      ⟨row.userID, row.roomID, row.streamKind, row.streamID⟩ ∈ runningRecordings w.log →
        row.recording = true)
  departure : ∀ c app env, w.serving c = true → w.hub.appOf c = some app →
    ∀ calls, .spawned c calls ∈ w.news { op := .disconnect c, env } → ∀ app' stream,
      (.stopRecord app' stream ∈ calls ↔
        ∃ kind, ⟨c, app', kind, stream⟩ ∈ runningRecordings w.log)

/-- The stream a publisher's row names is the one registered under `solo`. -/
theorem soloPublishStreamID_of_lookup {m : GoMap Kind StreamID} {rank : Kind → ℕ}
    {planned stream : StreamID} (hs : m.lookup "solo" = some stream) (hne : stream ≠ "") :
    Hub.soloPublishStreamID ((m.range rank).map fun e => (⟨e.1, e.2⟩ : StreamInfo)) planned =
      stream := by
  rw [Hub.soloPublishStreamID_eq, hs, Option.filter_some, if_pos (by simpa using hne)]
  rfl

section Shown

variable {w : World}

theorem shown_flag (hw : w.Sound) (hb : w.books.InStep) {c : UserID} {r : RoomRef} (hc : c ∈ (w.hub.room r).clients)
    (hbiz : w.hub.isObserver c = false) (kind : Kind) :
    (w.hub.client c).recordings.lookup kind = some true ↔
      ∃ stream, (w.hub.client c).streams.lookup kind = some stream ∧
        ⟨c, (w.hub.room r).id, kind, stream⟩ ∈ runningRecordings w.log := by
  have happ : w.hub.appOf c = some (w.hub.room r).id :=
    Hub.appOf_eq_some.2 ⟨hbiz, r, (hw.hub.member r c hc).1, hc, rfl⟩
  rw [← runningRecordings_onBooks]
  constructor
  · intro hflag
    exact hb.running c _ kind happ hflag
  · rintro ⟨stream, -, hq⟩
    exact (hb.flag _ hq).2.2

theorem shown_running (hb : w.books.InStep) {q : Recording} (hq : q ∈ runningRecordings w.log) :
    ∃ r, q.client ∈ (w.hub.room r).clients ∧ w.hub.isObserver q.client = false ∧
      (w.hub.room r).id = q.app ∧ (w.hub.client q.client).streams.lookup q.kind = some q.stream ∧
      (w.hub.client q.client).recordings.lookup q.kind = some true := by
  rw [← runningRecordings_onBooks] at hq
  obtain ⟨happ, hlook, hflag⟩ := hb.flag q hq
  obtain ⟨hbiz, r, -, hmem, hid⟩ := Hub.appOf_eq_some.1 happ
  exact ⟨r, hmem, hbiz, hid, hlook, hflag⟩

theorem shown_brief (hw : w.Sound) (hb : w.books.InStep) {ord : MapOrder} {c : UserID} {r : RoomRef} (hc : c ∈ (w.hub.room r).clients) :
    (w.hub.clientBrief ord c).recording = true ↔
      ∃ q ∈ runningRecordings w.log, q.client = c := by
  have hany : (w.hub.clientBrief ord c).recording = true ↔
      ∃ kind, (w.hub.client c).recordings.lookup kind = some true := by
    simp only [Hub.clientBrief, List.any_eq_true]
    constructor
    · rintro ⟨⟨kind, v⟩, he, hv⟩
      exact ⟨kind, AList.mem_lookup_iff.2 (by rw [← hv]; exact he)⟩
    · rintro ⟨kind, hk⟩
      exact ⟨⟨kind, true⟩, AList.mem_lookup_iff.1 hk, rfl⟩
  rw [hany]
  constructor
  · rintro ⟨kind, hk⟩
    have hbiz : w.hub.isObserver c = false := by
      by_contra hob
      rw [(hw.hub.silent c (by simpa using hob)).2] at hk
      cases hk
    obtain ⟨stream, -, hq⟩ := (shown_flag hw hb hc hbiz kind).1 hk
    exact ⟨_, hq, rfl⟩
  · rintro ⟨q, hq, rfl⟩
    obtain ⟨-, -, -, -, -, hflag⟩ := shown_running hb hq
    exact ⟨q.kind, hflag⟩

theorem isRecording_iff {c : UserID} {kind : Kind} :
    w.hub.isRecording c kind = true ↔ (w.hub.client c).recordings.lookup kind = some true := by
  unfold Hub.isRecording
  cases (w.hub.client c).recordings.lookup kind with
  | none => simp
  | some b => simp

theorem shown_row (hw : w.Sound) (hb : w.books.InStep) {ord : MapOrder} {online : List String}
    {r : RoomRef} {c : UserID} (hc : c ∈ (w.hub.room r).clients)
    (hbiz : w.hub.isObserver c = false) {row : MemberRow}
    (hrow : row ∈ w.hub.memberRows ord online r c) :
    (row.recording = true →
      ⟨row.userID, row.roomID, row.streamKind, row.streamID⟩ ∈ runningRecordings w.log) ∧
    (row.biz ≠ "pull" →
      ⟨row.userID, row.roomID, row.streamKind, row.streamID⟩ ∈ runningRecordings w.log →
        row.recording = true) := by
  -- a row of a stream that is registered under its kind
  have hshown : ∀ kind stream, ((w.hub.client c).recordings.lookup kind = some true →
      (w.hub.client c).streams.lookup kind = some stream) →
      (w.hub.isRecording c kind = true ↔
        ⟨c, (w.hub.room r).id, kind, stream⟩ ∈ runningRecordings w.log) := by
    intro kind stream hkeep
    rw [isRecording_iff]
    constructor
    · intro hflag
      obtain ⟨s, hs, hq⟩ := (shown_flag hw hb hc hbiz kind).1 hflag
      rwa [Option.some.inj (hs.symm.trans (hkeep hflag))] at hq
    · intro hq
      obtain ⟨-, -, -, -, -, hflag⟩ := shown_running hb hq
      exact hflag
  unfold Hub.memberRows at hrow
  dsimp only at hrow
  by_cases hmode : (w.hub.room r).mode = .solo
  · rw [if_neg (not_not_intro hmode)] at hrow
    split at hrow
    · rw [List.mem_singleton.1 hrow]
      have h := hshown "solo" (Hub.soloPublishStreamID
        (((w.hub.client c).streams.range (ord.streams c)).map fun e => ⟨e.1, e.2⟩)
        (w.hub.client c).plannedStreamID) fun hflag => by
          obtain ⟨s, hs, -⟩ := (shown_flag hw hb hc hbiz "solo").1 hflag
          rw [soloPublishStreamID_of_lookup hs (hw.hub.streamID c _ _ hs), hs]
      exact ⟨h.1, fun _ => h.2⟩
    · cases hrow
    · split_ifs at hrow with hp
      · rw [List.mem_singleton.1 hrow]
        exact ⟨fun h => (by cases h), fun h => absurd rfl h⟩
      · obtain ⟨p, -, rfl⟩ := List.mem_map.1 hrow
        exact ⟨fun h => (by cases h), fun h => absurd rfl h⟩
  · rw [if_pos hmode] at hrow
    obtain ⟨s, hs, rfl⟩ := List.mem_map.1 hrow
    obtain ⟨e, he, rfl⟩ := List.mem_map.1 hs
    have h := hshown e.1 e.2 fun _ => GoMap.mem_range.1 he
    exact ⟨h.1, fun _ => h.2⟩

theorem shown_departure (hw : w.Sound) (hb : w.books.InStep) {c : UserID} {app : RoomID} {env : Env}
    (hc : w.serving c = true) (happ : w.hub.appOf c = some app) {calls : List ZlmCall}
    (hcalls : .spawned c calls ∈ w.news { op := .disconnect c, env }) (app' : RoomID)
    (stream : StreamID) : .stopRecord app' stream ∈ calls ↔
      ∃ kind, ⟨c, app', kind, stream⟩ ∈ runningRecordings w.log := by
  have hmem : Event.spawned c calls ∈ (w.news { op := .disconnect c, env }).filter Event.onBooks :=
    List.mem_filter.2 ⟨hcalls, rfl⟩
  rw [departure_news hw hc happ env] at hmem
  obtain rfl : calls = w.books.departureCalls c app (w.departingStreams env.order c) := by
    simpa using hmem
  simp only [Books.departureCalls, Books.recorded, List.mem_append, List.mem_map, List.mem_filter,
    decide_eq_true_eq, ZlmCall.stopRecord.injEq, reduceCtorEq, and_false, exists_false, or_false]
  rw [← runningRecordings_onBooks]
  constructor
  · rintro ⟨⟨kind, s⟩, ⟨he, hflag⟩, rfl, rfl⟩
    obtain ⟨s', hs', hq⟩ := hb.running c app kind happ hflag
    rw [Option.some.inj ((GoMap.mem_range.1 he).symm.trans hs')]
    exact ⟨kind, hq⟩
  · rintro ⟨kind, hq⟩
    obtain ⟨happ', hlook, hflag⟩ := hb.flag _ hq
    exact ⟨(kind, stream), ⟨GoMap.mem_range.2 hlook, hflag⟩,
      Option.some.inj (happ.symm.trans happ'), rfl⟩

theorem shows_of_inStep (hw : w.Sound) (hb : w.books.InStep) : w.ShowsRecordings where
  flag r c hc hbiz kind := (shown_flag hw hb hc hbiz kind).1
  flagged q hq := shown_running hb hq
  stats ord rs hrs x hx := by
    obtain ⟨r, -, rfl⟩ := List.mem_map.1 hrs
    obtain ⟨c, hc, rfl⟩ := List.mem_map.1 hx
    exact shown_brief hw hb (Hub.mem_clientsOf.1 hc)
  rows ord media row hrow := by
    obtain ⟨r, -, hrow⟩ := List.mem_flatMap.1 hrow
    obtain ⟨c, hc, hrow⟩ := List.mem_flatMap.1 hrow
    obtain ⟨hc, hbiz⟩ := List.mem_filter.1 hc
    exact shown_row hw hb (Hub.mem_clientsOf.1 hc) (by simpa using hbiz) hrow
  departure c app env hc happ calls hcalls := shown_departure hw hb hc happ hcalls

end Shown

theorem recordings_shown_truly
    (hg : (server token).Guarded (fun w i => w.books.KeepsRecordings (w.act i)) is) :
    ((server token).run is).ShowsRecordings :=
  shows_of_inStep (server_sound token is) (server_inStep hg)

end Server

theorem republished_recording_shown : ((server "").run
    [.connect "a", .join "a" "r", .publish "a" "cam", .record "a" true "cam",
      .publish "a" "cam"]).ShowsRecordings :=
  recordings_shown_truly (by decide)

/-- A stream-stopped leaves the flag of its kind up. -/
theorem stopped_stream_still_flagged : ¬∀ (token : String) (is : List Input),
    ((server token).run is).ShowsRecordings := by
  intro h
  obtain ⟨stream, hs, -⟩ := (h "" [.connect "a", .join "a" "r", .publish "a" "cam",
    .record "a" true "cam", .streamStopped "a" "cam"]).flag 0 "a" (by decide) (by decide) "cam"
    (by decide)
  revert hs
  decide +revert

end Meetkit
