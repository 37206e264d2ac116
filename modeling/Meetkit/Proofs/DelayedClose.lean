import Meetkit.Lib.Reader
import Meetkit.Proofs.Log
import Meetkit.Proofs.Runs

/-! A delayed close never kills a newer publication, as long as no stream is pushed
while a close of it is pending and none is closed that somebody else still publishes.
Stream names are reused, a close carries nothing but the name, and nothing orders it
after the request that spawned it. -/

namespace Meetkit

open World

/-- The streams ZLM has: a push that it answered adds one, a CloseStream removes it. -/
def liveReader : Reader Event (List (RoomID × StreamID)) where
  start := []
  next l
    | .exchangedSDP _ .push app stream true => (app, stream) :: l
    | .called _ (.closeStream app stream) => l.filter fun e => e ≠ (app, stream)
    | _ => l

def liveStreams (log : List Event) : List (RoomID × StreamID) := liveReader.read log

structure Publication where
  client : UserID
  app : RoomID
  kind : Kind
  stream : StreamID
  deriving DecidableEq

/-- The publications that were answered and not given up since, by a stream-stopped
of their kind or by leaving. -/
def activeReader : Reader Event (List Publication) where
  start := []
  next l
    | .published c app kind stream => ⟨c, app, kind, stream⟩ :: l
    | .received c (.streamStopped (.ok p)) => l.filter fun q => ¬(q.client = c ∧ q.kind = p.kind)
    | .departed c _ => l.filter fun q => q.client ≠ c
    | _ => l

def activePublications (log : List Event) : List Publication := activeReader.read log

theorem liveReader_recordCall (l : List (RoomID × StreamID)) (start : Bool) (c : UserID)
    (app : RoomID) (kind : Kind) (stream : StreamID) (ok : Bool) :
    liveReader.next l (.recordCall start c app kind stream ok) = l := by
  cases start <;> rfl

theorem activeReader_recordCall (l : List Publication) (start : Bool) (c : UserID) (app : RoomID)
    (kind : Kind) (stream : StreamID) (ok : Bool) :
    activeReader.next l (.recordCall start c app kind stream ok) = l := by
  cases start <;> rfl

theorem liveStreams_onBooks (log : List Event) :
    liveStreams (log.filter Event.onBooks) = liveStreams log := by
  refine Reader.read_filter (fun e l he => ?_) log
  cases e with
  | exchangedSDP c t app stream ok =>
    cases t with
    | play => rfl
    | push =>
      cases ok with
      | false => rfl
      | true => cases he
  | called c call => cases he
  | _ => rfl

theorem activePublications_onBooks (log : List Event) :
    activePublications (log.filter Event.onBooks) = activePublications log := by
  refine Reader.read_filter (fun e l he => ?_) log
  cases e with
  | published c app kind stream => cases he
  | received c body =>
    cases body with
    | streamStopped p =>
      cases p with
      | error e => rfl
      | ok p => cases he
    | _ => rfl
  | departed c app => cases he
  | _ => rfl

namespace Books

/-- No push meets a pending close of its stream, and nothing is closed that another
publication still needs. -/
def Undisturbed (b : Books) : Act → Prop
  | .publish c _ stream => ∀ app ∈ b.app c, ∀ g ∈ b.pending, .closeStream app stream ∉ g.calls
  | .stop c p => ∀ app ∈ b.app c, ∀ stream ∈ (b.streams c).lookup p.kind,
    ∀ q ∈ activePublications b.history, q.app = app → q.stream = stream →
      q.client = c ∧ q.kind = p.kind
  | .depart c entries => ∀ app ∈ b.app c, ∀ e ∈ entries, ∀ q ∈ activePublications b.history,
    q.app = app → q.stream = e.2 → q.client = c
  | _ => True

instance (b : Books) : ∀ a : Act, Decidable (b.Undisturbed a)
  | .publish .. | .stop .. | .depart .. => by dsimp only [Undisturbed]; infer_instance
  | .rest | .join .. | .start .. | .record .. | .call .. => .isTrue trivial

/-- Every active publication is live and no pending call closes it. -/
structure Calm (b : Books) : Prop where
  live : ∀ q ∈ activePublications b.history, (q.app, q.stream) ∈ liveStreams b.history
  pending : ∀ g ∈ b.pending, ∀ q ∈ activePublications b.history, .closeStream q.app q.stream ∉ g.calls

namespace Calm

variable {b b' : Books} {c : UserID} {a : Act}

/-- Fewer publications, the same streams. -/
theorem mono {es : List Event} (h : b.Calm)
    (hactive : ∀ q ∈ activePublications (b.history ++ es), q ∈ activePublications b.history)
    (hlive : liveStreams (b.history ++ es) = liveStreams b.history) : (b.note es).Calm where
  live q hq := by
    rw [note_history, hlive]
    exact h.live q (hactive q hq)
  pending g hg q hq := h.pending g hg q (hactive q hq)

theorem spawn (h : b.Calm) {calls : List ZlmCall}
    (hcalls : ∀ q ∈ activePublications b.history, .closeStream q.app q.stream ∉ calls) :
    (b.spawn c calls).Calm := by
  have hactive : activePublications (b.spawn c calls).history = activePublications b.history :=
    Reader.read_snoc _ _ _
  have hlive : liveStreams (b.spawn c calls).history = liveStreams b.history :=
    Reader.read_snoc _ _ _
  refine ⟨fun q hq => ?_, fun g hg q hq => ?_⟩
  · rw [hlive]
    exact h.live q (hactive ▸ hq)
  · rw [hactive] at hq
    rw [spawn_pending, List.mem_append, List.mem_singleton] at hg
    rcases hg with hg | rfl
    · exact h.pending g hg q hq
    · exact hcalls q hq

/-- What was heard can only end publications. -/
theorem heard (h : b.Calm) (a : Act) : (b.note a.heard).Calm := by
  refine h.mono (fun q hq => ?_) ?_
  · cases a with
    | stop c p =>
      rw [activePublications, Act.heard, Reader.read_snoc] at hq
      exact (List.mem_filter.1 hq).1
    | _ => rwa [heard_eq_nil (by simp), List.append_nil] at hq
  · refine Reader.read_append_ignored fun e he l => ?_
    obtain ⟨c, p, rfl⟩ := mem_heard he
    rfl

theorem recordCall (h : b.Calm) (start : Bool) (c : UserID) (app : RoomID) (kind : Kind)
    (stream : StreamID) (ok : Bool) : (b.note [.recordCall start c app kind stream ok]).Calm := by
  refine h.mono (fun q hq => ?_) ?_
  · rwa [activePublications, Reader.read_snoc, activeReader_recordCall] at hq
  · rw [liveStreams, Reader.read_snoc, liveReader_recordCall]; rfl

theorem effect (h : b.Calm)
    (hpublish : ∀ c kind stream, a = .publish c kind stream → b.Undisturbed a)
    (hstop : ∀ c p app stream, a = .stop c p → b.app c = some app →
      (b.streams c).lookup p.kind = some stream → ∀ q ∈ activePublications b.history,
        ¬(q.app = app ∧ q.stream = stream))
    (hdepart : ∀ c entries, a = .depart c entries → b.Undisturbed a)
    (he : b.Effect a b') : b'.Calm := by
  cases he with
  | nothing => exact h
  | joined => exact ⟨h.live, h.pending⟩
  | @published c app kind stream happ =>
    have hactive : activePublications (b.history ++ [.exchangedSDP c .push app stream true,
        .published c app kind stream]) = ⟨c, app, kind, stream⟩ :: activePublications b.history :=
      Reader.read_append _ _ _
    have hlive : liveStreams (b.history ++ [.exchangedSDP c .push app stream true,
        .published c app kind stream]) = (app, stream) :: liveStreams b.history :=
      Reader.read_append _ _ _
    refine ⟨fun q hq => ?_, fun g hg q hq => ?_⟩
    · rw [note_history, setStreams_history, hactive] at hq
      rw [note_history, setStreams_history, hlive]
      rcases List.mem_cons.1 hq with rfl | hq
      · exact List.mem_cons_self
      · exact List.mem_cons_of_mem _ (h.live q hq)
    · rw [note_history, setStreams_history, hactive] at hq
      rcases List.mem_cons.1 hq with rfl | hq
      · exact hpublish c kind stream rfl app happ g hg
      · exact h.pending g hg q hq
  | started happ => exact ⟨h.live, h.pending⟩
  | unnamed hs => exact ⟨h.live, h.pending⟩
  | @stopped c app p stream happ hk hs =>
    have h' : (b.setStreams c ((b.streams c).erase p.kind)).Calm := ⟨h.live, h.pending⟩
    refine h'.spawn fun q hq hcall => ?_
    have heq : q.app = app ∧ q.stream = stream := by simpa using hcall
    exact hstop c p app stream rfl happ hs q hq heq
  | @recordFailed c app start kind stream happ => exact h.recordCall start c app kind stream false
  | @recorded c app start kind stream happ =>
    have h' := h.recordCall start c app kind stream true
    exact ⟨h'.live, h'.pending⟩
  | @departed c app entries happ =>
    have hactive : activePublications ((b.history ++ [.spawned c (b.departureCalls c app entries)]) ++
        [.departed c app]) = (activePublications b.history).filter fun q => q.client ≠ c := by
      rw [activePublications, Reader.read_snoc, Reader.read_snoc]; rfl
    have hlive : liveStreams ((b.history ++ [.spawned c (b.departureCalls c app entries)]) ++
        [.departed c app]) = liveStreams b.history := by
      rw [liveStreams, Reader.read_snoc, Reader.read_snoc]; rfl
    refine ⟨fun q hq => ?_, fun g hg q hq => ?_⟩
    · rw [note_history, spawn_history, setRecordings_history, setStreams_history, hactive] at hq
      rw [note_history, spawn_history, setRecordings_history, setStreams_history, hlive]
      exact h.live q (List.mem_filter.1 hq).1
    · rw [note_history, spawn_history, setRecordings_history, setStreams_history, hactive] at hq
      obtain ⟨hq, hc⟩ := List.mem_filter.1 hq
      rw [note_pending, spawn_pending, List.mem_append, List.mem_singleton] at hg
      rcases hg with hg | rfl
      · exact h.pending g hg q hq
      · -- a stream of the departing client that another publication uses
        intro hcall
        rw [departureCalls, List.mem_append] at hcall
        rcases hcall with hcall | hcall
        · obtain ⟨e, -, he⟩ := List.mem_map.1 hcall
          cases he
        · obtain ⟨e, hmem, he⟩ := List.mem_map.1 hcall
          simp only [ZlmCall.closeStream.injEq] at he
          have := hdepart c entries rfl app happ e hmem q hq he.1.symm he.2.symm
          simp [this] at hc
  | @called n c call calls hn =>
    have hmem := List.mem_of_getElem? hn
    have hactive : activePublications (b.history ++ [.called c call]) =
        activePublications b.history := Reader.read_snoc _ _ _
    refine ⟨fun q hq => ?_, fun g hg q hq => ?_⟩
    · rw [note_history, hactive] at hq
      rw [note_history, liveStreams, Reader.read_snoc]
      have hlive := h.live q hq
      cases call with
      | stopRecord app stream => exact hlive
      | closeStream app stream =>
        refine List.mem_filter.2 ⟨hlive, ?_⟩
        have hne : (q.app, q.stream) ≠ (app, stream) := by
          intro heq
          rw [Prod.mk.injEq] at heq
          exact h.pending _ hmem q hq (by simp [heq.1, heq.2])
        exact decide_eq_true hne
    · rw [note_history, hactive] at hq
      rcases List.mem_or_eq_of_mem_set hg with hg | rfl
      · exact h.pending g hg q hq
      · exact fun hcall => h.pending _ hmem q hq (List.mem_cons_of_mem _ hcall)

end Calm

theorem calm_of_guarded {acts : List Act}
    (hg : books.Guarded (fun b a => b.Undisturbed a ∧ b.Tidy ∧ b.Lawful a) acts) :
    (books.run acts).Calm := by
  refine Machine.guarded_invariant (P := Calm) ?_ (fun b a hba h => ?_) hg
  · exact ⟨fun q hq => absurd hq List.not_mem_nil, fun g hg => absurd hg List.not_mem_nil⟩
  · obtain ⟨hfree, -, -⟩ := hba
    refine (h.heard a).effect ?_ ?_ ?_ (perform_effect _ a)
    · rintro c kind stream rfl
      rw [heard_eq_nil (by simp), note_nil]
      exact hfree
    · rintro c p app stream rfl happ hlook q hq ⟨hqa, hqs⟩
      rw [note_history, activePublications, Act.heard, Reader.read_snoc] at hq
      obtain ⟨hq, hne⟩ := List.mem_filter.1 hq
      have := hfree app happ stream hlook q hq hqa hqs
      simp [this.1, this.2] at hne
    · rintro c entries rfl
      rw [heard_eq_nil (by simp), note_nil]
      exact hfree

end Books

/-! ### The server -/

section Server

variable {token : String} {is : List Input}

theorem server_calm
    (hg : (server token).Guarded (fun w i => w.books.Undisturbed (w.act i)) is) :
    ((server token).run is).books.Calm := by
  obtain ⟨hb, hg'⟩ := server_books hg
  rw [hb]
  exact Books.calm_of_guarded hg'

/-- Every publication that was answered and not given up is live in ZLM. -/
def World.PublicationsLive (w : World) : Prop :=
  ∀ q ∈ activePublications w.log, (q.app, q.stream) ∈ liveStreams w.log

instance (w : World) : Decidable w.PublicationsLive := by
  unfold World.PublicationsLive; infer_instance

theorem publications_stay_live
    (hg : (server token).Guarded (fun w i => w.books.Undisturbed (w.act i)) is) :
    ((server token).run is).PublicationsLive := by
  intro q hq
  have h := (server_calm hg).live q
  simp only [World.books, activePublications_onBooks, liveStreams_onBooks] at h
  exact h hq

/-- `a` stops its camera and publishes it again once the close has run. -/
theorem republished_camera_stays_live :
    ((server "").run [.connect "a", .join "a" "r", .publish "a" "cam", .streamStopped "a" "cam",
      .goroutine 0, .publish "a" "cam"]).PublicationsLive :=
  publications_stay_live (by decide)

/-- `a` stops its camera and publishes it again before the close has run. -/
theorem delayed_close_kills_republished_camera :
    ¬ ∀ (token : String) (is : List Input), ((server token).run is).PublicationsLive := by
  intro h
  have hcam := h "" [.connect "a", .join "a" "r", .publish "a" "cam", .streamStopped "a" "cam",
    .publish "a" "cam", .goroutine 0]
  exact absurd hcam (by decide)

end Server

end Meetkit
