import Meetkit.Lib.Reader
import Meetkit.Proofs.Log
import Meetkit.Proofs.Runs

/-! A departure closes what the client published, as long as no stream that is
still open was replaced under its kind. The map keeps one stream a kind, so a
replaced one is forgotten and stays open on ZLM. -/

namespace Meetkit

open World

structure OpenStream where
  client : UserID
  app : RoomID
  stream : StreamID
  deriving DecidableEq

/-- The streams pushed and not closed since: a push opens a stream, a CloseStream
issued on behalf of the client ends it. -/
def openReader : Reader Event (List OpenStream) where
  start := []
  next l
    | .exchangedSDP c .push app stream true => ⟨c, app, stream⟩ :: l
    | .spawned c calls => l.filter fun o => ¬(o.client = c ∧ .closeStream o.app o.stream ∈ calls)
    | _ => l

/-- The event issues a CloseStream for the stream on behalf of its client. -/
def Event.Closes (e : Event) (o : OpenStream) : Prop :=
  match e with
  | .spawned c calls => c = o.client ∧ .closeStream o.app o.stream ∈ calls
  | _ => False

instance (o : OpenStream) : ∀ e : Event, Decidable (e.Closes o)
  | .spawned .. => by dsimp only [Event.Closes]; infer_instance
  | .received .. | .handled .. | .sent .. | .joined .. | .departed .. | .exchangedSDP ..
  | .published .. | .startedRecord .. | .stoppedRecord .. | .called .. | .statsChanged
  | .audited .. | .pushed .. => .isFalse id

def openStreams (log : List Event) : List OpenStream := openReader.read log

theorem openReader_recordCall (l : List OpenStream) (start : Bool) (c : UserID) (app : RoomID)
    (kind : Kind) (stream : StreamID) (ok : Bool) :
    openReader.next l (.recordCall start c app kind stream ok) = l := by
  cases start <;> rfl

theorem openStreams_onBooks (log : List Event) :
    openStreams (log.filter Event.onBooks) = openStreams log := by
  refine Reader.read_filter (fun e l he => ?_) log
  cases e with
  | exchangedSDP c t app stream ok =>
    cases t with
    | play => rfl
    | push =>
      cases ok with
      | false => rfl
      | true => cases he
  | spawned c calls => cases he
  | _ => rfl

namespace Books

/-- A registration replaces no open stream, unless another kind still carries it. -/
def KeepsOpen (b : Books) : Act → Prop
  | .publish c kind stream | .start c kind stream =>
    ∀ app ∈ b.app c, ∀ old ∈ (b.streams c).lookup kind, old ≠ stream →
      ⟨c, app, old⟩ ∈ openStreams b.history → ∃ e ∈ (b.streams c).entries, e.1 ≠ kind ∧ e.2 = old
  | _ => True

instance (b : Books) : ∀ a : Act, Decidable (b.KeepsOpen a)
  | .publish .. | .start .. => by dsimp only [KeepsOpen]; infer_instance
  | .rest | .join .. | .stop .. | .record .. | .depart .. | .call .. => .isTrue trivial

/-- Every open stream is registered by a client that is still in its app. -/
def Covered (b : Books) : Prop :=
  ∀ o ∈ openStreams b.history, b.app o.client = some o.app ∧
    ∃ kind, (b.streams o.client).lookup kind = some o.stream

namespace Covered

variable {b b' : Books} {c : UserID} {app : RoomID} {a : Act}

/-- After a registration the streams that were covered still are. -/
theorem insert {kind : Kind} {stream : StreamID} (h : b.Covered) (happ : b.app c = some app)
    (hkeep : ∀ old ∈ (b.streams c).lookup kind, old ≠ stream →
      ⟨c, app, old⟩ ∈ openStreams b.history → ∃ e ∈ (b.streams c).entries, e.1 ≠ kind ∧ e.2 = old) :
    (b.setStreams c ((b.streams c).insert kind stream)).Covered := by
  intro o ho
  obtain ⟨happ', k, hk⟩ := h o ho
  refine ⟨happ', ?_⟩
  rw [setStreams_streams]
  split_ifs with hc
  · obtain ⟨d, app', old⟩ := o
    dsimp only at hc happ' hk
    subst hc
    obtain rfl := Option.some.inj (happ.symm.trans happ')
    by_cases hkk : k = kind
    · subst hkk
      by_cases hold : old = stream
      · exact ⟨k, by rw [hold, AList.lookup_insert]⟩
      · obtain ⟨e, he, hne, rfl⟩ := hkeep old hk hold ho
        refine ⟨e.1, ?_⟩
        rw [AList.lookup_insert_ne hne]
        exact AList.mem_lookup_iff.2 he
    · exact ⟨k, by rw [AList.lookup_insert_ne hkk, hk]⟩
  · exact ⟨k, hk⟩

theorem effect (h : b.Covered) (ht : b.Tidy) (hl : b.Lawful a) (hg : b.KeepsOpen a)
    (he : b.Effect a b') : b'.Covered := by
  cases he with
  | nothing => exact h
  | @joined c app =>
    intro o ho
    obtain ⟨happ, hk⟩ := h o ho
    refine ⟨?_, hk⟩
    have hc : o.client ≠ c := by
      rintro rfl
      have hnone : b.app o.client = none := hl
      rw [hnone] at happ
      cases happ
    simp only [Function.update_of_ne hc]
    exact happ
  | @published c app kind stream happ =>
    have h' := h.insert happ (hg app happ)
    intro o ho
    rw [openStreams, note_history, Reader.read_append] at ho
    rcases List.mem_cons.1 ho with rfl | ho
    · refine ⟨happ, kind, ?_⟩
      rw [note_streams, setStreams_streams, if_pos rfl, AList.lookup_insert]
    · exact h' o ho
  | started happ => exact h.insert happ (hg _ happ)
  | @unnamed c p hs =>
    -- no open stream is nameless, so none stands under this kind
    intro o ho
    obtain ⟨happ, k, hk⟩ := h o ho
    refine ⟨happ, k, ?_⟩
    rw [setStreams_streams]
    split_ifs with hc
    · rw [GoMap.lookup_erase_iff, if_neg, ← hc, hk]
      rintro rfl
      exact ht.named _ _ _ hk (hs _ (hc ▸ hk))
    · exact hk
  | @stopped c app p stream happ hk hs =>
    intro o ho
    rw [openStreams, spawn_history, Reader.read_snoc] at ho
    obtain ⟨ho, hopen⟩ := List.mem_filter.1 ho
    obtain ⟨happ', k, hlook⟩ := h o ho
    refine ⟨happ', k, ?_⟩
    rw [spawn_streams, setStreams_streams]
    split_ifs with hc
    · rw [GoMap.lookup_erase_iff, if_neg, ← hc, hlook]
      -- the stream that stood under the kind is the one that was closed
      rintro rfl
      have hstream : stream = o.stream := Option.some.inj (hs.symm.trans (hc ▸ hlook))
      have hopp : app = o.app := Option.some.inj (happ.symm.trans (hc ▸ happ'))
      simp [hc, hstream, hopp] at hopen
    · exact hlook
  | @recordFailed c app start kind stream happ =>
    intro o ho
    refine h o ?_
    rwa [openStreams, note_history, Reader.read_snoc, openReader_recordCall] at ho
  | @recorded c app start kind stream happ =>
    intro o ho
    refine h o ?_
    rwa [openStreams, setRecordings_history, note_history, Reader.read_snoc,
      openReader_recordCall] at ho
  | @departed c app entries happ =>
    intro o ho
    rw [openStreams, note_history, Reader.read_snoc, spawn_history, Reader.read_snoc] at ho
    obtain ⟨ho, hopen⟩ := List.mem_filter.1 ho
    obtain ⟨happ', k, hlook⟩ := h o ho
    have hc : o.client ≠ c := by
      intro hc
      have happ : app = o.app := Option.some.inj (happ.symm.trans (hc ▸ happ'))
      have hcall : ZlmCall.closeStream o.app o.stream ∈ b.departureCalls c app entries := by
        rw [departureCalls, List.mem_append, List.mem_map, happ]
        exact Or.inr (List.mem_map.2 ⟨(k, o.stream), (hl k o.stream).2 (hc ▸ hlook), rfl⟩)
      simp [hc, hcall] at hopen
    refine ⟨?_, k, ?_⟩
    · simp [Function.update_of_ne hc, happ']
    · simp [hc, hlook]
  | @called n c call calls hn =>
    intro o ho
    rw [openStreams, note_history, Reader.read_snoc] at ho
    exact h o ho

end Covered

theorem covered_of_guarded {acts : List Act}
    (hg : books.Guarded (fun b a => b.KeepsOpen a ∧ b.Tidy ∧ b.Lawful a) acts) :
    (books.run acts).Covered := by
  refine Machine.guarded_invariant (P := Covered) ?_ (fun b a hba h => ?_) hg
  · intro o ho; cases ho
  · obtain ⟨hkeep, htidy, hlawful⟩ := hba
    -- what was heard opens and closes nothing
    have hopen : openStreams (b.note a.heard).history = openStreams b.history := by
      refine Reader.read_append_ignored fun e he l => ?_
      obtain ⟨c, p, rfl⟩ := mem_heard he
      rfl
    have h' : (b.note a.heard).Covered := by
      intro o ho
      rw [hopen] at ho
      exact h o ho
    have hsame : (∀ c p, a ≠ .stop c p) → b.note a.heard = b := fun hne => by
      rw [heard_eq_nil hne, note_nil]
    refine h'.effect (htidy.note _) (lawful_note.2 hlawful) ?_ (perform_effect _ a)
    cases a with
    | publish c kind stream => rw [hsame (by simp)]; exact hkeep
    | start c kind stream => rw [hsame (by simp)]; exact hkeep
    | _ => trivial

end Books

/-! ### The server -/

section Server

variable {token : String} {is : List Input}

theorem server_covered
    (hg : (server token).Guarded (fun w i => w.books.KeepsOpen (w.act i)) is) :
    ((server token).run is).books.Covered := by
  obtain ⟨hb, hg'⟩ := server_books hg
  rw [hb]
  exact Books.covered_of_guarded hg'

/-- What a departure of `c` must pass to CloseStream: every stream of it still open. -/
def World.DepartureCloses (w : World) (c : UserID) : Prop :=
  w.serving c = true → ∀ env, ∀ o ∈ openStreams w.log, o.client = c →
    ∃ e ∈ w.news { op := .disconnect c, env }, e.Closes o

/-- A departure closes every stream of the client that is still open, and a client
that is in no room has none. -/
theorem departure_closes_published
    (hg : (server token).Guarded (fun w i => w.books.KeepsOpen (w.act i)) is) (c : UserID) :
    ((server token).run is).DepartureCloses c ∧
      (((server token).run is).hub.appOf c = none →
        ∀ o ∈ openStreams ((server token).run is).log, o.client ≠ c) := by
  have hsound := server_sound token is
  have hcovered := server_covered hg
  generalize (server token).run is = w at *
  have hopen : ∀ o ∈ openStreams w.log, w.hub.appOf o.client = some o.app ∧
      ∃ kind, (w.hub.client o.client).streams.lookup kind = some o.stream := by
    intro o ho
    rw [← openStreams_onBooks] at ho
    exact hcovered o ho
  constructor
  · intro hserving env o ho hc
    obtain ⟨happ, kind, hlook⟩ := hopen o ho
    rw [hc] at happ hlook
    have hmem : Event.spawned c (w.books.departureCalls c o.app (w.departingStreams env.order c)) ∈
        (w.news { op := .disconnect c, env }).filter Event.onBooks := by
      rw [departure_news hsound hserving happ]
      exact List.mem_cons_self
    refine ⟨_, (List.mem_filter.1 hmem).1, hc.symm, ?_⟩
    rw [Books.departureCalls, List.mem_append]
    exact Or.inr (List.mem_map.2 ⟨(kind, o.stream), GoMap.mem_range.2 hlook, rfl⟩)
  · intro hnone o ho hc
    obtain ⟨happ, -⟩ := hopen o ho
    rw [hc, hnone] at happ
    cases happ

/-- `a` publishes a camera and a screen, stops the camera, publishes it again and leaves. -/
theorem departure_closes_camera_and_screen :
    ((server "").run [.connect "a", .join "a" "r", .publish "a" "cam", .publish "a" "screen",
      .streamStopped "a" "cam", .publish "a" "cam"]).DepartureCloses "a" ∧
    (((server "").run [.connect "a", .join "a" "r", .publish "a" "cam", .publish "a" "screen",
      .streamStopped "a" "cam", .publish "a" "cam"]).hub.appOf "a" = none →
      ∀ o ∈ openStreams ((server "").run [.connect "a", .join "a" "r", .publish "a" "cam",
        .publish "a" "screen", .streamStopped "a" "cam", .publish "a" "cam"]).log, o.client ≠ "a") :=
  departure_closes_published (by decide) "a"

/-- A second publish-solo replaces the first stream under the one solo kind. -/
theorem departure_leaves_replaced_stream_open :
    ¬ ∀ (token : String) (is : List Input) (c : UserID),
      ((server token).run is).DepartureCloses c := by
  intro h
  obtain ⟨e, he, hcloses⟩ := h "" [.connect "a", .joinSolo "a" "r" "push" "s1",
    .publishSolo "a" "s1", .publishSolo "a" "s2"] "a" (by decide) {} ⟨"a", "r", "s1"⟩ (by decide) rfl
  exact absurd hcloses ((by decide : ∀ e ∈ ((server "").run [.connect "a",
    .joinSolo "a" "r" "push" "s1", .publishSolo "a" "s1", .publishSolo "a" "s2"]).news
      (.disconnect "a"), ¬ e.Closes ⟨"a", "r", "s1"⟩) e he)

end Server

end Meetkit
