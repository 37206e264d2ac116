import Meetkit.Proofs.Turn

/-! The server keeps the books. `World.books` reads them off a world; every step of
the server is the act it amounts to, so every run of the server is a run of the
books. -/

namespace Meetkit

open World

namespace Hub

/-- The app a member's streams belong to: the id of the room it is in. -/
def appOf (h : Hub) (c : UserID) : Option RoomID :=
  match (h.client c).room with
  | none => none
  | some r => if c ∈ (h.room r).clients ∧ h.isObserver c = false then some (h.room r).id else none

theorem appOf_eq_some {h : Hub} {c : UserID} {app : RoomID} : h.appOf c = some app ↔
    h.isObserver c = false ∧
      ∃ r, (h.client c).room = some r ∧ c ∈ (h.room r).clients ∧ (h.room r).id = app := by
  unfold appOf
  cases hr : (h.client c).room with
  | none => simp
  | some r =>
    dsimp only
    split_ifs with hc
    · simp [hc.1, hc.2]
    · simp only [Option.some.injEq, false_iff, not_and, not_exists]
      rintro hob s rfl hs -
      exact hc ⟨hs, hob⟩

theorem appOf_eq_none {h : Hub} {c : UserID} : h.appOf c = none ↔
    (∀ r, (h.client c).room = some r → c ∉ (h.room r).clients) ∨ h.isObserver c = true := by
  unfold appOf
  cases hr : (h.client c).room with
  | none => simp
  | some r =>
    dsimp only
    split_ifs with hc
    · simp [hc.1, hc.2]
    · simp only [Option.some.injEq, forall_eq', true_iff]
      by_cases hmem : c ∈ (h.room r).clients
      · exact Or.inr (by simpa [hmem] using hc)
      · exact Or.inl hmem

/-- The app depends on the client, and on which clients its room has. -/
theorem appOf_congr {h h' : Hub} {c : UserID} (hroom : (h'.client c).room = (h.client c).room)
    (hobs : h'.isObserver c = h.isObserver c)
    (hmem : h.isObserver c = false → ∀ r, (h.client c).room = some r →
      (c ∈ (h'.room r).clients ↔ c ∈ (h.room r).clients) ∧
        (c ∈ (h.room r).clients → (h'.room r).id = (h.room r).id)) :
    h'.appOf c = h.appOf c := by
  unfold appOf
  rw [hroom, hobs]
  cases hr : (h.client c).room with
  | none => rfl
  | some r =>
    dsimp only
    by_cases hob : h.isObserver c = false
    · obtain ⟨h1, h2⟩ := hmem hob r hr
      by_cases hc : c ∈ (h.room r).clients
      · rw [if_pos ⟨h1.2 hc, hob⟩, if_pos ⟨hc, hob⟩, h2 hc]
      · rw [if_neg (fun h => hc (h1.1 h.1)), if_neg fun h => hc h.1]
    · rw [if_neg fun h => hob h.2, if_neg fun h => hob h.2]

end Hub

def World.books (w : World) : Books where
  app := w.hub.appOf
  streams c := (w.hub.client c).streams
  recordings c := (w.hub.client c).recordings
  pending := w.goroutines
  history := w.log.filter Event.onBooks

section Books

variable {w v : World} {c : UserID} {r : RoomRef}

theorem Event.onBooks_of_neutral {e : Event} (he : e.neutral = true) : e.onBooks = false := by
  cases e with
  | sent c q m => rfl
  | _ => simpa [Event.neutral] using he

theorem filter_onBooks_nil {es : List Event} (hes : ∀ e ∈ es, e.onBooks = false) :
    es.filter Event.onBooks = [] :=
  List.filter_eq_nil_iff.2 fun e he => by simp [hes e he]

theorem Event.filter_recordCall (start : Bool) (c : UserID) (app : RoomID) (kind : Kind)
    (stream : StreamID) (ok : Bool) :
    [Event.recordCall start c app kind stream ok].filter Event.onBooks =
      [Event.recordCall start c app kind stream ok] := by
  cases start <;> rfl

theorem books_emit (w : World) (es : List Event) :
    (w.emit es).books = w.books.note (es.filter Event.onBooks) := by
  simp [World.books, Books.note]

theorem books_quiet (h : Quiet w v) : v.books = w.books := by
  obtain ⟨es, hes, hn⟩ := h.log
  have hlog : v.log.filter Event.onBooks = w.log.filter Event.onBooks := by
    rw [hes, List.filter_append, filter_onBooks_nil fun e he => Event.onBooks_of_neutral (hn e he),
      List.append_nil]
  simp only [World.books, h.hub, h.goroutines, hlog]

@[simp] theorem books_send (w : World) (c : UserID) (reqID : String) (m : ServerMsg) :
    (w.send c reqID m).books = w.books := by
  unfold send
  split_ifs
  · rfl
  · rw [books_emit]; exact Books.note_nil _

@[simp] theorem books_sendAll (w : World) (ids : List UserID) (m : ServerMsg) :
    (w.sendAll ids m).books = w.books := by
  unfold sendAll
  rw [books_emit, filter_onBooks_nil, Books.note_nil]
  intro e he
  obtain ⟨d, -, rfl⟩ := List.mem_map.1 he
  rfl

@[simp] theorem books_notifyStatsChanged (w : World) : w.notifyStatsChanged.books = w.books := by
  rw [notifyStatsChanged, books_emit]
  exact Books.note_nil _

@[simp] theorem books_spawn (w : World) (c : UserID) (calls : List ZlmCall) :
    (w.spawn c calls).books = w.books.spawn c calls := by
  simp [World.books, Books.spawn, World.spawn, Event.onBooks]

@[simp] theorem books_broadcastStreamStopped (w : World) (ord : MapOrder) (r : RoomRef) (c : UserID)
    (kind : Kind) (stream : StreamID) :
    (w.broadcastStreamStopped ord r c kind stream).books = w.books := books_sendAll _ _ _

@[simp] theorem books_broadcastStreamStarted (w : World) (ord : MapOrder) (r : RoomRef) (c : UserID)
    (kind : Kind) (stream : StreamID) :
    (w.broadcastStreamStarted ord r c kind stream).books = w.books := books_sendAll _ _ _

@[simp] theorem books_broadcastMediaState (w : World) (ord : MapOrder) (r : RoomRef) (c : UserID) :
    (w.broadcastMediaState ord r c).books = w.books := by
  unfold broadcastMediaState
  split_ifs
  · exact books_sendAll _ _ _
  · rfl

@[simp] theorem books_broadcastRecordState (w : World) (ord : MapOrder) (r : RoomRef) (c : UserID)
    (kind : Kind) (stream : StreamID) (recording : Bool) :
    (w.broadcastRecordState ord r c kind stream recording).books = w.books := by
  unfold broadcastRecordState
  split_ifs
  · exact books_sendAll _ _ _
  · rfl

theorem streamStops_books (ord : MapOrder) (r : RoomRef) (c : UserID) :
    ∀ (entries : List (Kind × StreamID)) (w : World),
      (entries.foldl (fun w e => w.broadcastStreamStopped ord r c e.1 e.2) w).books = w.books := by
  intro entries
  induction entries with
  | nil => intro w; rfl
  | cons e entries ih => intro w; rw [List.foldl_cons, ih, books_broadcastStreamStopped]

/-- A change of the hub that moves nobody between apps. -/
theorem books_setHub {h : Hub} (happ : ∀ d, h.appOf d = w.hub.appOf d)
    (hheld : ∀ d, (h.client d).streams = (w.hub.client d).streams ∧
      (h.client d).recordings = (w.hub.client d).recordings) :
    (w.setHub h).books = w.books := by
  ext1
  · exact funext happ
  · exact funext fun d => (hheld d).1
  · exact funext fun d => (hheld d).2
  · rfl
  · rfl

theorem appOf_setClient {h : Hub} {f : Client → Client}
    (hroom : (f (h.client c)).room = (h.client c).room)
    (hobs : (f (h.client c)).isObserver = (h.client c).isObserver) (d : UserID) :
    (h.setClient c f).appOf d = h.appOf d := by
  refine Hub.appOf_congr ?_ (Hub.isObserver_setClient hobs d) fun _ r _ => ⟨Iff.rfl, fun _ => rfl⟩
  rw [Hub.setClient_client]
  split_ifs with hd
  · rw [hd, hroom]
  · rfl

theorem books_setClient {f : Client → Client} (hf : Mild f) : (w.setClient c f).books = w.books := by
  refine books_setHub (appOf_setClient (hf.room _) (hf.isObserver _)) fun d => ?_
  rw [Hub.setClient_client]
  split_ifs with hd
  · rw [hd]; exact ⟨hf.streams _, hf.recordings _⟩
  · exact ⟨rfl, rfl⟩

theorem books_writeStreams (w : World) (c : UserID)
    (g : GoMap Kind StreamID → GoMap Kind StreamID) :
    (w.setClient c fun x => { x with streams := g x.streams }).books =
      w.books.setStreams c (g (w.books.streams c)) := by
  ext1
  · funext d
    change (w.setClient c _).hub.appOf d = w.hub.appOf d
    rw [setClient_hub]
    exact appOf_setClient (by rfl) (by rfl) d
  · funext d
    simp only [World.books, Books.setStreams, setClient_hub, Hub.setClient_client,
      Function.update_apply]
    split_ifs <;> rfl
  · funext d
    simp only [World.books, Books.setStreams, setClient_hub, Hub.setClient_client]
    split_ifs with hd
    · rw [hd]
    · rfl
  · rfl
  · rfl

theorem books_writeRecordings (w : World) (c : UserID) (g : GoMap Kind Bool → GoMap Kind Bool) :
    (w.setClient c fun x => { x with recordings := g x.recordings }).books =
      w.books.setRecordings c (g (w.books.recordings c)) := by
  ext1
  · funext d
    change (w.setClient c _).hub.appOf d = w.hub.appOf d
    rw [setClient_hub]
    exact appOf_setClient (by rfl) (by rfl) d
  · funext d
    simp only [World.books, Books.setRecordings, setClient_hub, Hub.setClient_client]
    split_ifs with hd
    · rw [hd]
    · rfl
  · funext d
    simp only [World.books, Books.setRecordings, setClient_hub, Hub.setClient_client,
      Function.update_apply]
    split_ifs <;> rfl
  · rfl
  · rfl

theorem books_getOrCreateRoom (hw : w.hub.WellFormed) (id : RoomID) (mode : RoomMode) :
    (w.setHub (w.hub.getOrCreateRoom id mode).1).books = w.books := by
  refine books_setHub (fun d => ?_) fun d => by simp
  refine Hub.appOf_congr (by simp) (by simp [Hub.isObserver]) fun _ r _ => ?_
  unfold Hub.getOrCreateRoom
  split
  · exact ⟨Iff.rfl, fun _ => rfl⟩
  · have hempty := hw.unallocated (le_refl w.hub.nextRoom)
    simp only [Function.update_apply]
    split_ifs with hr
    · subst hr
      rw [hempty]
      exact ⟨Iff.rfl, fun h => absurd h List.not_mem_nil⟩
    · exact ⟨Iff.rfl, fun _ => rfl⟩

theorem books_removeRoomIfEmpty (w : World) (r : RoomRef) : (w.removeRoomIfEmpty r).books = w.books := by
  unfold World.removeRoomIfEmpty Hub.removeRoomIfEmpty
  split_ifs
  · exact books_setHub (fun _ => rfl) fun _ => ⟨rfl, rfl⟩
  · exact books_setHub (fun _ => rfl) fun _ => ⟨rfl, rfl⟩

theorem books_aside (hw : w.hub.WellFormed) (h : Aside w v) : v.books = w.books := by
  obtain ⟨es, hes, hn⟩ := h.log
  have hlog : v.log.filter Event.onBooks = w.log.filter Event.onBooks := by
    have hnil : es.filter Event.onBooks = [] := filter_onBooks_nil fun e he => by
      rcases hn e he with rfl | ⟨o, q, m, rfl, -⟩ <;> rfl
    rw [hes, List.filter_append, hnil, List.append_nil]
  have hheld : ∀ d, (v.hub.client d).streams = (w.hub.client d).streams ∧
      (v.hub.client d).recordings = (w.hub.client d).recordings := by
    intro d
    cases hd : w.hub.isObserver d with
    | false => rw [h.hub.client d hd]; exact ⟨rfl, rfl⟩
    | true =>
      have hv := h.wellFormed.silent d ((h.hub.isObserver d).trans hd)
      have hw' := hw.silent d hd
      rw [hv.1, hv.2, hw'.1, hw'.2]
      exact ⟨rfl, rfl⟩
  have happ : ∀ d, v.hub.appOf d = w.hub.appOf d := by
    intro d
    cases hd : w.hub.isObserver d with
    | false =>
      exact Hub.appOf_congr (by rw [h.hub.client d hd]) (h.hub.isObserver d) fun _ r _ =>
        ⟨h.hub.mem hd, fun _ => h.hub.id r⟩
    | true =>
      rw [Hub.appOf_eq_none.2 (Or.inr hd), Hub.appOf_eq_none.2 (Or.inr ((h.hub.isObserver d).trans hd))]
  ext1
  · exact funext happ
  · exact funext fun d => (hheld d).1
  · exact funext fun d => (hheld d).2
  · exact h.goroutines
  · exact hlog

/-! ### A message on the books -/

variable {env : Env} {reqID : String} {b : Body} {a : Act}

theorem books_recordControlled (env : Env) (w : World) (r : RoomRef) (c : UserID) (reqID : String)
    (start : Bool) (kind : Kind) (stream : StreamID) :
    (recordControlled env w r c reqID start kind stream).books =
      w.books.setRecordings c ((w.books.recordings c).insert kind start) := by
  unfold recordControlled
  dsimp only
  rw [books_notifyStatsChanged, books_broadcastRecordState, books_send,
    books_writeRecordings _ _ (AList.insert kind start)]

theorem books_announceJoin (w : World) (ord : MapOrder) (r : RoomRef) (c : UserID) :
    (w.announceJoin ord r c).books = w.books := by
  unfold announceJoin
  dsimp only
  rw [books_notifyStatsChanged]
  split_ifs
  · rw [broadcastExcept, books_sendAll, books_send, books_emit]
    exact Books.note_nil _
  · rw [books_send, books_emit]
    exact Books.note_nil _

/-- A client in no room becomes a member of the app it joined. -/
theorem books_joined {f : Client → Client} {id : RoomID} {mode : RoomMode} {v : World} {r : RoomRef}
    {ord : MapOrder} (hw : w.hub.WellFormed) (hu : c ∈ w.hub.used)
    (hbiz : w.hub.isObserver c = false) (hf : Mild f) (hroom : (w.hub.client c).room = none)
    (hv : (w.setClient c f).getOrCreateRoom id mode = (v, r)) :
    (((v.addTo r c).announceJoin ord r c).setClient c fun x => { x with room := some r }).books =
      w.books.perform (.join c id) := by
  obtain ⟨hw', -, -, -, -, hid⟩ := joining_hub hw hu hf hroom hv
  have hbase : v.books = w.books := by
    obtain ⟨rfl, rfl⟩ := World.getOrCreateRoom_hub hv
    exact (books_getOrCreateRoom (hw.mild hu hf) id mode).trans (books_setClient hf)
  have hobs : v.hub.isObserver c = false := by
    obtain ⟨rfl, rfl⟩ := World.getOrCreateRoom_hub hv
    simp only [Hub.isObserver, setHub_hub, Hub.getOrCreateRoom_client]
    exact (Hub.isObserver_setClient (hf.isObserver _) c).trans hbiz
  have hlog : ((v.addTo r c).announceJoin ord r c).books.history = (v.addTo r c).books.history :=
    congrArg Books.history (books_announceJoin (v.addTo r c) ord r c)
  have happ : ∀ d, ((((v.addTo r c).announceJoin ord r c).setClient c fun x =>
      { x with room := some r }).hub.appOf d) = if d = c then some id else v.hub.appOf d := by
    intro d
    rw [setClient_hub, announceJoin_hub]
    split_ifs with hd
    · subst hd
      refine Hub.appOf_eq_some.2 ⟨?_, r, ?_, ?_, ?_⟩
      · rw [Hub.isObserver_setClient (by rfl)]; exact hobs
      · rw [Hub.setClient_same]
      · simp [World.addTo, Hub.addTo]
      · simpa [World.addTo, Hub.addTo] using hid
    · refine Hub.appOf_congr ?_ (Hub.isObserver_setClient (by rfl) d) fun _ s _ => ?_
      · rw [Hub.setClient_ne _ _ _ _ hd]; rfl
      · simp only [Hub.setClient_room, World.addTo, Hub.addTo, setHub_hub, Hub.setRoom_room]
        split_ifs with hs
        · subst hs; simp [hd]
        · exact ⟨Iff.rfl, fun _ => rfl⟩
  have hheld : ∀ d, (((((v.addTo r c).announceJoin ord r c).setClient c fun x =>
      { x with room := some r }).hub.client d).streams = (v.hub.client d).streams) ∧
      (((((v.addTo r c).announceJoin ord r c).setClient c fun x =>
      { x with room := some r }).hub.client d).recordings = (v.hub.client d).recordings) := by
    intro d
    rw [setClient_hub, announceJoin_hub, Hub.setClient_client]
    split_ifs with hd
    · subst hd; exact ⟨rfl, rfl⟩
    · exact ⟨rfl, rfl⟩
  rw [← hbase]
  ext1
  · funext d
    simp only [Books.perform, Function.update_apply]
    exact happ d
  · exact funext fun d => (hheld d).1
  · exact funext fun d => (hheld d).2
  · exact (says_announceJoin _ _ _ _).goroutines
  · exact hlog

theorem Handled.books {v : World × Option Err} (hw : w.hub.WellFormed) (hu : c ∈ w.hub.used)
    (hopen : (w.hub.client c).closed = false) (hact : a ≠ .rest → w.hub.isObserver c = false)
    (h : Handled env w c reqID b a v) : v.1.books = w.books.perform a := by
  have happ : ∀ r, (w.hub.client c).room = some r → w.hub.isObserver c = false →
      w.books.app c = some (w.hub.room r).id := fun r hr hbiz =>
    Hub.appOf_eq_some.2 ⟨hbiz, r, hr, hw.present c r hr hopen, rfl⟩
  cases h with
  | refused e hb => rfl
  | ignored hb => rfl
  | misjoined e hf hroom => exact books_setClient hf
  | turnedAway e hf hroom hv hadm =>
    obtain ⟨rfl, rfl⟩ := World.getOrCreateRoom_hub hv
    rw [books_removeRoomIfEmpty, books_getOrCreateRoom (hw.mild hu hf)]
    exact books_setClient hf
  | @joined p f mode v r hf hroom hv hadm =>
    exact books_joined hw hu (hact (by simp)) hf hroom hv
  | chatted hroom => exact books_sendAll _ _ _
  | mediaChanged hroom =>
    rw [books_broadcastMediaState]
    exact books_setClient (by constructor <;> intro x <;> rfl)
  | exchangeFailed e =>
    rw [books_emit, filter_onBooks_nil, Books.note_nil]; rfl
    simp [Event.onBooks]
  | @published p r stream sdp hroom hbiz hs =>
    rw [books_send, books_notifyStatsChanged, startStream, books_broadcastStreamStarted,
      books_writeStreams _ _ (AList.insert (offerKind p) stream), books_emit, books_emit,
      Books.note_note]
    simp only [Books.perform, Books.publish, happ r hroom hbiz]
    rfl
  | @played p r stream key entry m sdp es hroom hm hes =>
    rw [books_send, books_emit, filter_onBooks_nil, Books.note_nil]
    · exact books_setClient (by constructor <;> intro x <;> rfl)
    · intro e he
      rcases List.mem_cons.1 he with rfl | he
      · rfl
      · exact (Event.off_of_owner (hes e he)).1
  | @started p r hroom hbiz hs =>
    rw [startStream, books_broadcastStreamStarted,
      books_writeStreams _ _ (AList.insert p.kind p.streamID)]
    simp only [Books.perform, Books.start, happ r hroom hbiz]
  | unstopped e hp =>
    simp only [Books.perform, Books.unregister]
    split
    · rfl
    · rename_i app happ'
      obtain ⟨-, r, hr, -⟩ := Hub.appOf_eq_some.1 happ'
      rw [if_pos (hp.resolve_left (by rw [hr]; simp))]
  | @stoppedNone p r hroom hbiz hk hs =>
    rw [books_writeStreams _ _ (AList.erase p.kind)]
    have hs' : ((w.books.streams c).lookup p.kind).getD "" = "" := hs
    simp only [Books.perform, Books.unregister, happ r hroom hbiz, if_neg hk, hs', ne_eq,
      not_true_eq_false, if_false]
  | @stopped p r stream hroom hbiz hk hs hne =>
    rw [stopStream, books_spawn, books_notifyStatsChanged, books_broadcastStreamStopped,
      books_writeStreams _ _ (AList.erase p.kind)]
    have hs' : (w.books.streams c).lookup p.kind = some stream := hs
    simp only [Books.perform, Books.unregister, happ r hroom hbiz, if_neg hk, hs', Option.getD_some]
    rw [if_pos hne]
    rfl
  | @recordFailed start p r kind stream e hroom hs =>
    rw [books_emit]
    simp only [Books.perform, Books.record, happ r hroom (hact (by simp)), Event.filter_recordCall]
    rfl
  | @recorded start p r kind stream hroom hbiz hs =>
    rw [books_recordControlled, books_emit]
    simp only [Books.perform, Books.record, happ r hroom hbiz, if_true, Event.filter_recordCall]

/-! ### A departure on the books -/

theorem books_withdrawn {ord : MapOrder} (hw : w.hub.WellFormed) (hc : w.serving c = true)
    (hr : (w.hub.client c).room = some r) :
    (w.withdrawn ord r c).books = w.books.perform (.depart c (w.departingStreams ord c)) := by
  obtain ⟨hconn, hopen⟩ := serving_iff.1 hc
  have hbiz := hw.business hconn
  have hmem := hw.present c r hr hopen
  have happ : w.books.app c = some (w.hub.room r).id :=
    Hub.appOf_eq_some.2 ⟨hbiz, r, hr, hmem, rfl⟩
  have hgone : ∀ d, (w.hub.withoutMember r c).appOf d =
      if d = c then none else w.hub.appOf d := by
    intro d
    split_ifs with hd
    · exact Hub.appOf_eq_none.2 (Or.inl fun s _ hds =>
        ((Hub.mem_withoutMember s c d hw hmem).1 hds).1 hd)
    · refine Hub.appOf_congr ?_ (Hub.withoutMember_isObserver _ r c d) fun _ s _ => ⟨?_, fun _ => ?_⟩
      · rw [Hub.withoutMember_client, if_neg hd]
      · rw [Hub.mem_withoutMember s c d hw hmem, and_iff_right hd]
      · rw [Hub.withoutMember_id]
  -- the books once the member is out of the map and its streams are taken from it
  have hout : ((((w.setClient c fun x => { x with closed := true }).removeFrom r c).setClient c
      fun x => { x with streams := ∅, recordings := ∅ }).books) =
      (({ w.books with app := Function.update w.books.app c none }).setStreams c ∅).setRecordings c
        ∅ := by
    have hhub : (((w.setClient c fun x => { x with closed := true }).removeFrom r c).setClient c
        fun x => { x with streams := ∅, recordings := ∅ }).hub = w.hub.withoutMember r c := by
      rw [setClient_hub, ← withdrawn_hub ord, withdrawn, withdraw_hub]
    ext1
    · funext d
      simp only [World.books, hhub, Books.setStreams, Books.setRecordings, Function.update_apply]
      exact hgone d
    · funext d
      simp only [World.books, hhub, Hub.withoutMember_client, Books.setStreams, Books.setRecordings,
        Function.update_apply]
      split_ifs <;> rfl
    · funext d
      simp only [World.books, hhub, Hub.withoutMember_client, Books.setStreams, Books.setRecordings,
        Function.update_apply]
      split_ifs <;> rfl
    · rfl
    · rfl
  have hclient : ((w.setClient c fun x => { x with closed := true }).removeFrom r c).hub.client c =
      { w.hub.client c with closed := true } := by
    simp [World.removeFrom, Hub.removeFrom]
  have hid : (((w.setClient c fun x => { x with closed := true }).removeFrom r c).hub.room r).id =
      (w.hub.room r).id := by
    simp [World.removeFrom, Hub.removeFrom]
  unfold withdrawn withdraw
  simp only [recordedStreams, departingStreams, hclient, hid]
  rw [books_emit, books_spawn]
  split_ifs
  · rw [broadcastExcept, books_sendAll, streamStops_books, hout]
    simp only [Books.perform, Books.depart, happ]
    rfl
  · rw [streamStops_books, hout]
    simp only [Books.perform, Books.depart, happ]
    rfl

theorem books_cleanup {ord : MapOrder} (hw : w.hub.WellFormed) (hc : w.serving c = true) :
    (w.cleanup ord c).books = w.books.perform (.depart c (w.departingStreams ord c)) := by
  cases hr : (w.hub.client c).room with
  | none =>
    have happ : w.books.app c = none :=
      Hub.appOf_eq_none.2 (Or.inl fun r h => by rw [hr] at h; cases h)
    rw [cleanup_outside hc hr]
    simp only [Books.perform, Books.depart, happ]
    refine books_setHub (appOf_setClient (by rfl) (by rfl)) fun d => ?_
    rw [Hub.setClient_client]
    split_ifs with hd
    · rw [hd]; exact ⟨rfl, rfl⟩
    · exact ⟨rfl, rfl⟩
  | some r =>
    obtain ⟨v, ha, -, heq⟩ := cleanup_member ord hw hc hr
    have hw' : (w.withdrawn ord r c).hub.WellFormed := by
      rw [withdrawn_hub]
      exact hw.withoutMember (hw.business (serving_iff.1 hc).1) hr
    rw [heq, books_notifyStatsChanged, books_removeRoomIfEmpty, books_aside hw' ha,
      books_withdrawn hw hc hr]

theorem books_runGoroutine (w : World) (n : ℕ) : (w.runGoroutine n).books = w.books.call n := by
  have hpending : w.books.pending = w.goroutines := rfl
  unfold runGoroutine Books.call
  rw [hpending]
  cases hn : w.goroutines[n]? with
  | none => rfl
  | some g =>
    obtain ⟨c, _ | ⟨call, calls⟩⟩ := g
    · rfl
    · rw [books_emit]; rfl

theorem note_heard {v : World × Option Err} (h : Handled env w c reqID b a v) :
    [Event.received c b].filter Event.onBooks = a.heard := by
  have hoff : ∀ b : Body, (∀ p, b ≠ .streamStopped (.ok p)) →
      [Event.received c b].filter Event.onBooks = [] := by
    intro b hb
    refine filter_onBooks_nil fun e he => ?_
    rw [List.mem_singleton.1 he]
    cases b with
    | streamStopped p =>
      cases p with
      | error e => rfl
      | ok p => exact absurd rfl (hb p)
    | _ => rfl
  cases h with
  | refused e hb => exact hoff _ hb
  | ignored hb => exact hoff _ hb
  | _ => rfl

theorem Turn.books {i : Input} {w' : World} (hw : w.Sound) (h : Turn w i a w') :
    w'.books = w.books.step a := by
  have hrest : w.books.step .rest = w.books := Books.note_nil _
  cases h with
  | quiet h => rw [hrest, books_quiet h]
  | @connected c hop hc =>
    rw [hrest]
    have hnew := hw.hub.unborn c hc
    have hclient : ∀ d, (w.hub.allocate c newClient).client d =
        if d = c then newClient else w.hub.client d := fun d => Function.update_apply _ _ _ _
    refine books_setHub (fun d => ?_) fun d => ?_
    · refine Hub.appOf_congr ?_ ?_ fun _ _ _ => ⟨Iff.rfl, fun _ => rfl⟩
      · rw [hclient]
        split_ifs with hd
        · rw [hd, hnew]; rfl
        · rfl
      · simp only [Hub.isObserver, hclient]
        split_ifs with hd
        · rw [hd, hnew]; rfl
        · rfl
    · rw [hclient]
      split_ifs with hd
      · rw [hd, hnew]; exact ⟨rfl, rfl⟩
      · exact ⟨rfl, rfl⟩
  | @served c e a v w' hop hc h hq =>
    obtain ⟨hconn, hopen⟩ := serving_iff.1 hc
    have hw' : (w.emit [.received c e.body]).hub.WellFormed := hw.hub
    rw [books_quiet hq, Handled.books hw' (hw.hub.used_of_hasConn hconn) hopen
      (fun _ => hw.hub.business hconn) h, books_emit, note_heard h]
    rfl
  | departed hop hc =>
    rw [books_cleanup hw.hub hc]
    simp only [Books.step, Act.heard, Books.note_nil]
  | called hop =>
    rw [books_runGoroutine]
    simp only [Books.step, Act.heard, Books.note_nil, Books.perform]
  | @observed u k reqID username mode p r w' hop hu hl hgate hw' =>
    rw [hrest, hw']
    have hnew := hw.hub.unborn u hu
    have hconn : ∀ f, ((w.observing i.env.order u username r).notifyStatsChanged.setConn k f).books =
        (w.observing i.env.order u username r).books := by
      intro f
      exact books_notifyStatsChanged (w.observing i.env.order u username r)
    have hbase : (w.observing i.env.order u username r).books =
        (w.setHub (w.hub.withObserver u username r)).books := by
      unfold World.observing
      rw [books_send, books_emit]
      exact Books.note_nil _
    have hclient : ∀ d, (w.hub.withObserver u username r).client d = if d = u then
        { Hub.observerClient u username with room := some r } else w.hub.client d := by
      intro d
      rw [Hub.withObserver, Hub.setClient_client]
      split_ifs with hd
      · simp [Hub.addTo, Hub.allocate]
      · simp [Hub.addTo, Hub.allocate, hd]
    rw [hconn, hbase]
    refine books_setHub (fun d => ?_) fun d => ?_
    · by_cases hd : d = u
      · subst hd
        rw [Hub.appOf_eq_none.2 (Or.inr ?_), Hub.appOf_eq_none.2 (Or.inl ?_)]
        · intro s hs; rw [hnew] at hs; cases hs
        · rw [Hub.isObserver, hclient, if_pos rfl]; rfl
      · refine Hub.appOf_congr ?_ ?_ fun _ s _ => ?_
        · rw [hclient, if_neg hd]
        · rw [Hub.isObserver, Hub.isObserver, hclient, if_neg hd]
        · simp only [Hub.withObserver, Hub.setClient_room, Hub.addTo, Hub.setRoom_room, Hub.allocate]
          split_ifs with hs
          · subst hs; simp [hd]
          · exact ⟨Iff.rfl, fun _ => rfl⟩
    · rw [hclient]
      split_ifs with hd
      · subst hd; rw [hnew]; exact ⟨rfl, rfl⟩
      · exact ⟨rfl, rfl⟩
  | @watched o reqID p v w' ho h hq =>
    rw [hrest, books_quiet hq]
    exact h.books hw.hub (hw.hub.used_of_observer ho) (hw.hub.watching _ ho) fun hne => absurd rfl hne
  | unobserved h hq => rw [hrest, books_quiet hq, books_aside hw.hub h]

theorem Handled.lawful {v : World × Option Err} (h : Handled env w c reqID b a v) :
    w.books.Lawful a := by
  cases h with
  | joined hf hroom hv hadm =>
    exact Hub.appOf_eq_none.2 (Or.inl fun r hr => by rw [hroom] at hr; cases hr)
  | published sdp hroom hbiz hs => exact hs
  | started hroom hbiz hs => exact hs
  | recordFailed e hroom hs => exact hs
  | recorded hroom hbiz hs => exact hs
  | _ => trivial

theorem Turn.lawful {i : Input} {w' : World} (h : Turn w i a w') : w.books.Lawful a := by
  cases h with
  | served hop hc h hq => exact h.lawful
  | departed hop hc => exact fun kind stream => GoMap.mem_range
  | _ => trivial

/-- The books of a step, when what is on them is all that matters of its events. -/
theorem World.Sound.step_books (hw : w.Sound) (i : Input) :
    (w.step i).books = w.books.step (w.act i) := (step_turn hw).books hw

end Books

/-- Nobody outside a room holds anything on the books. -/
theorem World.Sound.tidy {w : World} (hw : w.Sound) : w.books.Tidy := by
  refine ⟨fun c hc => ?_, hw.hub.streamID⟩
  rcases Hub.appOf_eq_none.1 hc with hout | hob
  · refine hw.hub.outside c fun r hr => hout r (hw.hub.member r c hr).1 hr
  · exact hw.hub.silent c hob

/-- The books of a run of the server are a run of the books over the acts its
steps amount to, all of them lawful and taken from tidy books. -/
theorem server_books {token : String} {G : Books → Act → Prop} {is : List Input}
    (hg : (server token).Guarded (fun w i => G w.books (w.act i)) is) :
    ((server token).run is).books = books.run ((server token).labels World.act is) ∧
      books.Guarded (fun b a => G b a ∧ b.Tidy ∧ b.Lawful a) ((server token).labels World.act is) := by
  refine Machine.simulate (P := World.Sound) World.act World.books rfl (server_sound token [])
    (fun w i hw => ?_) hg
  have h := step_turn (i := i) hw
  exact ⟨h.sound hw, h.books hw, hw.tidy, h.lawful⟩

end Meetkit
