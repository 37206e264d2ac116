import Meetkit.Abstract.Feed
import Meetkit.Proofs.Views

/-! A page is told of a room in an order that makes sense: the members of a meeting or a
call get every message when it fits what they were told before. One operation sends each
of them a few messages, and each of these fits what the ones before it have said. -/

namespace Meetkit

open World

namespace Hub

/-- A business client that has not entered a room yet. -/
def Outside (h : Hub) (c : UserID) : Prop :=
  h.isObserver c = false ∧ (h.client c).closed = false ∧ (h.client c).room = none

/-- A member of a meeting or a call. -/
def Inside (h : Hub) (c : UserID) : Prop := ∃ r, c ∈ h.members r ∧ (h.room r).mode ≠ .solo

/-- `c` has not come to where it is by this change. -/
structure Stays (h h' : Hub) (c : UserID) : Prop where
  outside : h'.Outside c → h.Outside c
  inside : h'.Inside c → h.Inside c

namespace Stays

variable {h h' h'' : Hub} {c d : UserID} {r : RoomRef}

theorem refl (h : Hub) (c : UserID) : Stays h h c := ⟨id, id⟩

theorem trans (h1 : Stays h h' c) (h2 : Stays h' h'' c) : Stays h h'' c :=
  ⟨h1.outside ∘ h2.outside, h1.inside ∘ h2.inside⟩

theorem of_looksSame (hout : h'.Outside c → h.Outside c) (hs : ∀ r, LooksSame h h' r) :
    Stays h h' c where
  outside := hout
  inside := by
    rintro ⟨r, hc, hmode⟩
    refine ⟨r, ((hs r).members c).1 hc, ?_⟩
    rwa [(hs r).mode (List.ne_nil_of_mem (mem_members.1 hc).1)] at hmode

theorem setClient {f : Client → Client}
    (hob : (f (h.client d)).isObserver = (h.client d).isObserver)
    (hcl : (f (h.client d)).closed = (h.client d).closed)
    (hroom : (f (h.client d)).room = (h.client d).room) : Stays h (h.setClient d f) c where
  outside := by
    unfold Outside
    rw [isObserver_setClient hob, setClient_client]
    split_ifs with hcd
    · rw [hcd, hcl, hroom]
      exact id
    · exact id
  inside := by
    rintro ⟨r, hc, hmode⟩
    exact ⟨r, (mem_members_setClient hob).1 hc, hmode⟩

theorem removeRoomIfEmpty (h : Hub) (s : RoomRef) (c : UserID) :
    Stays h (h.removeRoomIfEmpty s) c := by
  refine of_looksSame ?_ fun r => .removeRoomIfEmpty h s r
  unfold Outside isObserver
  rw [removeRoomIfEmpty_client]
  exact id

theorem getOrCreateRoom (hw : h.WellFormed) (id : RoomID) (mode : RoomMode) (c : UserID) :
    Stays h (h.getOrCreateRoom id mode).1 c := by
  refine of_looksSame ?_ fun r => .getOrCreateRoom hw id mode r
  unfold Outside isObserver
  rw [getOrCreateRoom_client]
  exact fun hout => hout

theorem aside (ha : Aside h h') (c : UserID) : Stays h h' c := by
  refine of_looksSame ?_ fun r => .aside ha r
  rintro ⟨hob, hrest⟩
  rw [ha.isObserver c] at hob
  rw [ha.client c hob] at hrest
  exact ⟨hob, hrest⟩

end Stays

end Hub

/-- The messages that `c` got while it was outside or in a meeting fit, and it was let in
by one of them if it is in a meeting. -/
structure World.Tuned (w : World) (c : UserID) : Prop where
  outside : w.hub.Outside c → w.Fed c ∧ (w.feed c).joined = false
  inside : w.hub.Inside c → w.Fed c ∧ (w.feed c).joined = true

def World.FeedsFit (w : World) : Prop := ∀ c, w.Tuned c

section Tuned

variable {w w' : World} {c d : UserID} {r : RoomRef} {ord : MapOrder}
  {ms : List (String × ServerMsg)}

theorem joined_read (hnew : ∀ m ∈ ms, ∀ p, m.2 ≠ .joined p) (f : Feed) :
    (ms.foldl feedReader.next f).joined = f.joined := by
  induction ms generalizing f with
  | nil => rfl
  | cons m ms ih =>
    rw [List.foldl_cons, ih fun m' hm' => hnew m' (by simp [hm'])]
    have hm := hnew m (by simp)
    change (f.next m.2).joined = f.joined
    unfold Feed.next
    split
    · exact absurd ‹_› (hm _)
    · rfl

theorem fits_neutral {m : ServerMsg} (hm : m.neutral = true) (f : Feed) : f.Fits c m := by
  cases m with
  | joined | peerJoined | peerLeft | peerState | peerStreamStarted | peerStreamStopped
  | observeJoined => cases hm
  | _ => trivial

theorem checkedFrom_neutral (hms : ∀ m ∈ ms, m.2.neutral = true) (f : Feed) :
    feedReader.CheckedFrom (fun f m => f.Fits c m.2) f ms := by
  induction ms generalizing f with
  | nil => trivial
  | cons m ms ih =>
    exact ⟨fits_neutral (hms m (by simp)) f, ih (fun m' hm' => hms m' (by simp [hm'])) _⟩

theorem not_joined_of_neutral {m : ServerMsg} (hm : m.neutral = true) (p : JoinedPayload) :
    m ≠ .joined p := by
  rintro rfl
  cases hm

/-- `c` got some more messages, which fit, where it was. -/
theorem World.Tuned.heard (h : w.Tuned c) (hs : Hub.Stays w.hub w'.hub c)
    (hbox : inbox c w'.log = inbox c w.log ++ ms) (hnew : ∀ m ∈ ms, ∀ p, m.2 ≠ .joined p)
    (hfit : w.hub.Outside c ∨ w.hub.Inside c →
      feedReader.CheckedFrom (fun f m => f.Fits c m.2) (w.feed c) ms) : w'.Tuned c := by
  have hjoined : (w'.feed c).joined = (w.feed c).joined := by
    unfold feed
    rw [hbox, Reader.read_append]
    exact joined_read hnew _
  have hfed : w.hub.Outside c ∨ w.hub.Inside c → w.Fed c → w'.Fed c := by
    intro hwhere hold
    unfold Fed
    rw [hbox]
    exact hold.append_from (hfit hwhere)
  refine ⟨fun hout => ?_, fun hin => ?_⟩
  · have hout' := hs.outside hout
    obtain ⟨hold, hno⟩ := h.outside hout'
    exact ⟨hfed (Or.inl hout') hold, hjoined.trans hno⟩
  · have hin' := hs.inside hin
    obtain ⟨hold, hyes⟩ := h.inside hin'
    exact ⟨hfed (Or.inr hin') hold, hjoined.trans hyes⟩

/-- `c` got nothing. -/
theorem World.Tuned.unheard (h : w.Tuned c) (hs : Hub.Stays w.hub w'.hub c)
    (hbox : inbox c w'.log = inbox c w.log) : w'.Tuned c := by
  refine h.heard hs (hbox.trans (List.append_nil _).symm) ?_ fun _ => trivial
  intro m hm
  cases hm

theorem inbox_neutral {es : List Event}
    (hes : ∀ e ∈ es, ∀ d q m, e = .sent d q m → m.neutral = true) :
    ∀ m ∈ inbox c es, m.2.neutral = true := by
  intro m hm
  obtain ⟨e, he, hem⟩ := List.mem_filterMap.1 hm
  cases e with
  | sent d q m' =>
    dsimp only at hem
    split_ifs at hem
    obtain rfl := Option.some.inj hem
    exact hes _ he d q m' rfl
  | _ => cases hem

/-- What is neutral always fits. -/
theorem World.Tuned.noted (h : w.Tuned c) (hs : Hub.Stays w.hub w'.hub c) (es : List Event)
    (hlog : w'.log = w.log ++ es)
    (hes : ∀ e ∈ es, ∀ d q m, e = .sent d q m → m.neutral = true) : w'.Tuned c := by
  have hneutral := inbox_neutral (c := c) hes
  refine h.heard hs (by rw [hlog, inbox_append]) (fun m hm => ?_) fun _ => ?_
  · exact not_joined_of_neutral (hneutral m hm)
  · exact checkedFrom_neutral hneutral _

theorem World.Tuned.moved (h : w.Tuned c) (hs : Hub.Stays w.hub w'.hub c)
    (hlog : w'.log = w.log) : w'.Tuned c :=
  h.noted hs [] (by rw [hlog, List.append_nil]) (by simp)

theorem World.Tuned.setClient (h : w.Tuned c) (f : Client → Client)
    (hob : (f (w.hub.client d)).isObserver = (w.hub.client d).isObserver)
    (hcl : (f (w.hub.client d)).closed = (w.hub.client d).closed)
    (hroom : (f (w.hub.client d)).room = (w.hub.client d).room) : (w.setClient d f).Tuned c :=
  h.moved (Hub.Stays.setClient (h := w.hub) hob hcl hroom) rfl

theorem World.Tuned.emit (h : w.Tuned c) {es : List Event}
    (hes : ∀ e ∈ es, ∀ d q m, e = .sent d q m → m.neutral = true) : (w.emit es).Tuned c :=
  h.noted (.refl _ _) es rfl hes

theorem World.Tuned.quiet (h : w.Tuned c) (hq : Quiet w w') : w'.Tuned c := by
  obtain ⟨es, hlog, hes⟩ := hq.log
  refine h.noted (hq.hub ▸ .refl _ _) es hlog fun e he d q m hm => ?_
  have := hes e he
  rw [hm] at this
  exact this

theorem World.Tuned.aside (h : w.Tuned c) (ha : Aside w w') : w'.Tuned c := by
  obtain ⟨es, hlog, hes⟩ := ha.log
  refine h.noted (.aside ha.hub c) es hlog fun e he d q m hm => ?_
  rcases hes e he with rfl | ⟨o, q', m', rfl, -, hm'⟩
  · cases hm
  · cases hm
    exact hm'

/-- One message to some of the clients. -/
theorem World.Tuned.told (h : w.Tuned d) {hub : Hub} {ids : List UserID} (hids : ids.Nodup)
    (hs : Hub.Stays w.hub hub d) {m : ServerMsg} (hm : ∀ p, m ≠ .joined p)
    (hfit : d ∈ ids → w.hub.Outside d ∨ w.hub.Inside d → (w.feed d).Fits d m) :
    ((w.setHub hub).sendAll ids m).Tuned d := by
  refine h.heard ?_ (inbox_sendAll hids m) ?_ ?_
  · exact hs
  · intro x hx
    split_ifs at hx
    · rw [List.mem_singleton.1 hx]
      exact hm
    · cases hx
  · intro hwhere
    split_ifs with hd
    · exact ⟨hfit hd.1 hwhere, trivial⟩
    · trivial

/-- A member of a meeting has been let in and knows the other members. -/
theorem World.FeedsFit.knows (h : w.FeedsFit) (ha : w.ViewsAgree) (hw : w.hub.WellFormed)
    (hd : d ∈ (w.hub.room r).clients) (hwhere : w.hub.Outside d ∨ w.hub.Inside d) :
    (w.feed d).joined = true ∧ ∀ u, (w.feed d).view.peers u = w.hub.othersCards r d u := by
  rcases hwhere with hout | hin
  · have hroom := (hw.member r d hd).1
    rw [hout.2.2] at hroom
    cases hroom
  · refine ⟨((h d).inside hin).2, fun u => ?_⟩
    obtain ⟨s, hds, hmode⟩ := hin
    obtain rfl : s = r := hw.unique (Hub.mem_members.1 hds).1 hd
    rw [feed_view]
    exact (ha s d hd).peers (Hub.mem_members.1 hds).2 hmode u

theorem othersCards_of_mem (hc : c ∈ w.hub.members r) (hcd : c ≠ d) :
    w.hub.othersCards r d c = some (w.hub.client c).card := if_pos ⟨hcd, hc⟩

/-- A stream of a member began or ended and the others are told. -/
theorem World.FeedsFit.streamChanged (h : w.FeedsFit) (ha : w.ViewsAgree)
    (hw : w.hub.WellFormed) (hc : c ∈ (w.hub.room r).clients) (hbiz : w.hub.isObserver c = false)
    {f : Client → Client} (hob : (f (w.hub.client c)).isObserver = (w.hub.client c).isObserver)
    (hcl : (f (w.hub.client c)).closed = (w.hub.client c).closed)
    (hroom : (f (w.hub.client c)).room = (w.hub.client c).room) {m : ServerMsg}
    (hm : ∀ (self : UserID) (g : Feed), g.joined = true → g.view.peers c ≠ none → g.Fits self m)
    (hnew : ∀ p, m ≠ .joined p) :
    ((w.setClient c f).broadcastToAllExcept ord r c m).FeedsFit := by
  intro d
  refine (h d).told ((Hub.clientsOf_nodup _ _ _).filter _) (.setClient hob hcl hroom) hnew ?_
  intro hd hwhere
  have hd' : d ∈ (w.hub.room r).clients ∧ d ≠ c := by simpa using hd
  obtain ⟨hjoined, hpeers⟩ := h.knows ha hw hd'.1 hwhere
  refine hm d _ hjoined ?_
  rw [hpeers, othersCards_of_mem (Hub.mem_members.2 ⟨hc, hbiz⟩) (Ne.symm hd'.2)]
  exact Option.some_ne_none _

theorem World.FeedsFit.startStream (h : w.FeedsFit) (ha : w.ViewsAgree) (hw : w.hub.WellFormed)
    (hc : c ∈ (w.hub.room r).clients) (hbiz : w.hub.isObserver c = false) (kind : Kind)
    (stream : StreamID) : (w.startStream ord r c kind stream).FeedsFit :=
  h.streamChanged ha hw hc hbiz rfl rfl rfl (fun _ _ hj hp => ⟨hj, hp⟩) (by simp)

theorem World.FeedsFit.stopStream (h : w.FeedsFit) (ha : w.ViewsAgree) (hw : w.hub.WellFormed)
    (hc : c ∈ (w.hub.room r).clients) (hbiz : w.hub.isObserver c = false) (kind : Kind)
    (stream : StreamID) :
    ((w.setClient c fun x => { x with streams := x.streams.erase kind }).stopStream ord r c kind
      stream).FeedsFit := by
  have hstop : ((w.setClient c fun x => { x with streams := x.streams.erase kind
      }).broadcastStreamStopped ord r c kind stream).FeedsFit :=
    h.streamChanged ha hw hc hbiz rfl rfl rfl (fun _ _ hj hp => ⟨hj, hp⟩) (by simp)
  intro d
  exact (hstop d).noted (.refl _ _)
    [.statsChanged, .spawned c [.closeStream (w.hub.room r).id stream]]
    (List.append_assoc _ [Event.statsChanged] _) (by simp)

/-- A member's media state changed and the other members are told. -/
theorem World.FeedsFit.mediaChanged (h : w.FeedsFit) (ha : w.ViewsAgree) (hw : w.hub.WellFormed)
    (hc : c ∈ (w.hub.room r).clients) (hbiz : w.hub.isObserver c = false) (micOn camOn : Bool) :
    ((w.setClient c fun x => { x with micOn, camOn }).broadcastMediaState ord r c).FeedsFit := by
  intro d
  have hs : Hub.Stays w.hub (w.hub.setClient c fun x => { x with micOn, camOn }) d :=
    .setClient rfl rfl rfl
  unfold broadcastMediaState
  split_ifs
  · refine (h d).told ((Hub.clientsOf_nodup _ _ _).filter _) hs (by simp) fun hd hwhere => ?_
    have hd' : d ∈ (w.hub.room r).clients ∧ d ≠ c := by
      have := List.mem_filter.1 hd
      simp only [Hub.mem_clientsOf, Bool.and_eq_true, decide_eq_true_eq] at this
      exact ⟨this.1, this.2.1⟩
    obtain ⟨hjoined, hpeers⟩ := h.knows ha hw hd'.1 hwhere
    refine ⟨hjoined, ?_⟩
    rw [hpeers, othersCards_of_mem (Hub.mem_members.2 ⟨hc, hbiz⟩) (Ne.symm hd'.2)]
    exact Option.some_ne_none _
  · exact (h d).moved hs rfl

/-! ### A join -/

theorem keys_range_nodup {α : Type} (rank : Kind → ℕ) (m : GoMap Kind α) :
    ((m.range rank).map Prod.fst).Nodup := by
  have hkeys : (m.entries.map fun e => (e.1, e.2)).map Prod.fst = m.entries.map Sigma.fst := by
    rw [List.map_map]
    rfl
  have hperm : ((m.range rank).map Prod.fst).Perm (m.entries.map Sigma.fst) :=
    hkeys ▸ (rangeBy_perm _ _).map Prod.fst
  exact hperm.nodup_iff.2 m.nodupKeys

/-- A snapshot names nobody twice and no kind of a peer twice. -/
theorem snapshotPeers_nodup (h : Hub) (ord : MapOrder) (r : RoomRef) (c : UserID) :
    ((h.snapshotPeers ord r c).map (·.userID)).Nodup ∧
      ∀ peer ∈ h.snapshotPeers ord r c, (peer.streams.map (·.kind)).Nodup := by
  refine ⟨?_, fun peer hpeer => ?_⟩
  · unfold Hub.snapshotPeers
    rw [List.map_map]
    exact (((Hub.clientsOf_nodup h ord r).filter _).map fun _ _ h => h)
  · obtain ⟨u, -, rfl⟩ := List.mem_map.1 hpeer
    have hkinds : (h.peerInfo ord u).streams.map (·.kind) =
        ((h.client u).streams.range (ord.streams u)).map Prod.fst := by
      simp only [Hub.peerInfo, List.map_map]
      rfl
    rw [hkinds]
    exact keys_range_nodup _ _

/-- What the joiner and the others get out of an announcement. -/
theorem announceJoin_inbox (ord : MapOrder) (r : RoomRef) (hopen : (w.hub.client c).closed = false) :
    inbox c (w.announceJoin ord r c).log = inbox c w.log ++
        [("", .joined ⟨c, (w.hub.room r).id, w.hub.snapshotPeers ord r c⟩)] ∧
      ∀ d, d ≠ c → inbox d (w.announceJoin ord r c).log = inbox d w.log ∨
        d ∈ w.hub.members r ∧ ∃ p, p.userID = c ∧
          inbox d (w.announceJoin ord r c).log = inbox d w.log ++ [("", .peerJoined p)] := by
  set w₁ := (w.emit [.joined c (w.hub.room r).id]).send c ""
    (.joined ⟨c, (w.hub.room r).id, w.hub.snapshotPeers ord r c⟩) with hw₁
  have hhub : w₁.hub = w.hub := by
    rw [hw₁, send_hub]
    rfl
  have hjoined : ∀ d, inbox d (w.emit [.joined c (w.hub.room r).id]).log = inbox d w.log :=
    fun d => (inbox_append d w.log _).trans (List.append_nil _)
  have hself : inbox c w₁.log = inbox c w.log ++
      [("", .joined ⟨c, (w.hub.room r).id, w.hub.snapshotPeers ord r c⟩)] := by
    rw [hw₁, inbox_send, hjoined, if_pos ⟨rfl, hopen⟩]
  have hother : ∀ d, d ≠ c → inbox d w₁.log = inbox d w.log := by
    intro d hd
    rw [hw₁, inbox_send, hjoined, if_neg fun h => hd h.1.symm, List.append_nil]
  have hrun : w.announceJoin ord r c = (if (w.hub.room r).isBroadcast then
      w₁.broadcastExcept ord r c (.peerJoined ⟨c, (w.hub.client c).nickname, (w.hub.client c).micOn,
        (w.hub.client c).camOn, (w.hub.client c).clientPlatform⟩) else w₁).notifyStatsChanged := by
    simp only [announceJoin, emit_hub, ← hw₁, hhub]
  have hlast : ∀ (v : World) d, inbox d v.notifyStatsChanged.log = inbox d v.log := fun v d =>
    (inbox_append d v.log _).trans (List.append_nil _)
  have hnodup : ((w₁.hub.clientsOf ord r).filter fun d => d ≠ c && !w₁.hub.isObserver d).Nodup :=
    (Hub.clientsOf_nodup _ _ _).filter _
  rw [hrun]
  refine ⟨?_, fun d hd => ?_⟩
  · rw [hlast, ← hself]
    split_ifs
    · rw [broadcastExcept, inbox_sendAll hnodup, if_neg (by simp), List.append_nil]
    · rfl
  · rw [hlast]
    split_ifs
    · rw [broadcastExcept, inbox_sendAll hnodup, hother d hd]
      split_ifs with hmem
      · refine Or.inr ⟨?_, _, rfl, rfl⟩
        have hd' := List.mem_filter.1 hmem.1
        simp only [hhub, Hub.mem_clientsOf, Bool.and_eq_true, Bool.not_eq_true'] at hd'
        exact Hub.mem_members.2 ⟨hd'.1, hd'.2.2⟩
      · exact Or.inl (List.append_nil _)
    · exact Or.inl (hother d hd)

/-- A client outside every room may prepare to join one. -/
theorem World.FeedsFit.joining (h : w.FeedsFit) (hw : w.hub.WellFormed) (hu : c ∈ w.hub.used)
    {f : Client → Client} (hf : Mild f) {id : RoomID} {mode : RoomMode} {v : World}
    (hv : (w.setClient c f).getOrCreateRoom id mode = (v, r)) : v.FeedsFit := by
  obtain ⟨rfl, rfl⟩ := World.getOrCreateRoom_hub hv
  intro d
  have hs : Hub.Stays w.hub (w.hub.setClient c f) d :=
    .setClient (hf.isObserver _) (hf.closed _) (hf.room _)
  exact (h d).moved (hs.trans (.getOrCreateRoom (hw.mild hu hf) id mode d)) rfl

/-- The joiner is let in, and the members of a meeting or a call have not heard of it. -/
theorem World.FeedsFit.entered (h : w.FeedsFit) (ha : w.ViewsAgree) (hw : w.hub.WellFormed)
    (ord : MapOrder) (hout : w.hub.Outside c) {f : Client → Client}
    (hf : ∀ x : Client, (f x).isObserver = x.isObserver ∧ (f x).room = some r) :
    (((w.addTo r c).announceJoin ord r c).setClient c f).FeedsFit := by
  have hnone : ∀ s, c ∉ (w.hub.room s).clients := hw.not_member_of_room hout.2.2
  have hopen : ((w.addTo r c).hub.client c).closed = false := hout.2.1
  obtain ⟨hself, hothers⟩ := announceJoin_inbox ord r hopen
  have hhub : (((w.addTo r c).announceJoin ord r c).setClient c f).hub =
      (w.hub.addTo r c).setClient c f := by
    rw [setClient_hub, announceJoin_hub]
    rfl
  have hob : ∀ d, ((w.hub.addTo r c).setClient c f).isObserver d = w.hub.isObserver d :=
    Hub.isObserver_setClient (h := w.hub.addTo r c) (hf _).1
  intro d
  by_cases hdc : d = c
  · subst hdc
    obtain ⟨hfed, hno⟩ := h d |>.outside hout
    have hfit : (w.feed d).Fits d (.joined ⟨d, ((w.addTo r d).hub.room r).id,
        (w.addTo r d).hub.snapshotPeers ord r d⟩) :=
      ⟨hno, rfl, snapshotPeers_nodup _ _ _ _⟩
    refine ⟨fun hout' => ?_, fun _ => ⟨?_, ?_⟩⟩
    · have hroom := hout'.2.2
      rw [hhub, Hub.setClient_same, (hf _).2] at hroom
      cases hroom
    · have hbox : inbox d (((w.addTo r d).announceJoin ord r d).setClient d f).log = _ := hself
      unfold Fed
      rw [hbox]
      exact Reader.Checked.snoc hfed hfit
    · have hbox : inbox d (((w.addTo r d).announceJoin ord r d).setClient d f).log = _ := hself
      unfold feed
      rw [hbox, Reader.read_snoc]
      rfl
  · have hs : Hub.Stays w.hub (((w.addTo r c).announceJoin ord r c).setClient c f).hub d := by
      rw [hhub]
      refine ⟨?_, ?_⟩
      · unfold Hub.Outside
        rw [hob, Hub.setClient_ne _ _ _ _ hdc]
        exact id
      · rintro ⟨s, hd, hmode⟩
        rw [Hub.mem_members, hob, Hub.setClient_room, Hub.mem_addTo] at hd
        rw [Hub.setClient_room, (w.hub.addTo_kept r s c).2] at hmode
        exact ⟨s, Hub.mem_members.2 ⟨hd.1.resolve_right fun hs => hdc hs.2, hd.2⟩, hmode⟩
    rcases hothers d hdc with hbox | ⟨hmem, p, hp, hbox⟩
    · exact (h d).unheard hs hbox
    · refine (h d).heard hs hbox (by simp) fun hwhere => ⟨?_, trivial⟩
      have hd : d ∈ (w.hub.room r).clients :=
        ((Hub.mem_addTo).1 (Hub.mem_members.1 hmem).1).resolve_right fun hs => hdc hs.2
      obtain ⟨hjoined, hpeers⟩ := h.knows ha hw hd hwhere
      refine ⟨hjoined, ?_⟩
      rw [hpeers, hp, Hub.othersCards]
      exact if_neg fun hc => hnone r (Hub.mem_members.1 hc.2).1

/-! ### A departure -/

/-- The announcements of the streams of a member that leaves. -/
def stopsOf (c : UserID) (entries : List (Kind × StreamID)) : List (String × ServerMsg) :=
  entries.map fun e => ("", .peerStreamStopped ⟨c, e.1, e.2⟩)

theorem inbox_streamStops (ord : MapOrder) (r : RoomRef) (entries : List (Kind × StreamID)) (hd : d ≠ c) :
    ∀ v : World, (v.hub.client d).closed = false →
      inbox d (entries.foldl (fun w e => w.broadcastStreamStopped ord r c e.1 e.2) v).log =
        inbox d v.log ++ if d ∈ (v.hub.room r).clients then stopsOf c entries else [] := by
  induction entries with
  | nil =>
    intro v _
    rw [stopsOf, List.map_nil, ite_self, List.append_nil]
    rfl
  | cons e entries ih =>
    intro v hopen
    have hone : inbox d (v.broadcastStreamStopped ord r c e.1 e.2).log = inbox d v.log ++
        if d ∈ (v.hub.room r).clients then [("", .peerStreamStopped ⟨c, e.1, e.2⟩)] else [] := by
      refine (inbox_sendAll ((Hub.clientsOf_nodup _ _ _).filter _) _).trans ?_
      refine congrArg (inbox d v.log ++ ·) (if_congr ?_ rfl rfl)
      simp [hd, hopen]
    rw [List.foldl_cons, ih (v.broadcastStreamStopped ord r c e.1 e.2) hopen, hone,
      broadcastStreamStopped_hub, List.append_assoc]
    split_ifs <;> rfl

/-- What the others get to hear of a departure. -/
theorem inbox_withdrawn (ord : MapOrder) (hw : w.hub.WellFormed) (hc : c ∈ (w.hub.room r).clients) (hd : d ≠ c)
    (hopen : (w.hub.client d).closed = false) :
    inbox d (w.withdrawn ord r c).log = inbox d w.log ∨ d ∈ (w.hub.room r).clients ∧
      (inbox d (w.withdrawn ord r c).log = inbox d w.log ++
          stopsOf c ((w.hub.client c).streams.range (ord.streams c)) ∨
        inbox d (w.withdrawn ord r c).log = inbox d w.log ++
          (stopsOf c ((w.hub.client c).streams.range (ord.streams c)) ++ [("", .peerLeft c)])) := by
  set entries := (w.hub.client c).streams.range (ord.streams c) with hentries
  set v := ((w.setClient c fun x => { x with closed := true }).removeFrom r c).setClient c fun x =>
    { x with streams := ∅, recordings := ∅ } with hv
  have hhub : v.hub = w.hub.withoutMember r c := by
    rw [← withdrawn_hub (w := w) (r := r) (c := c) ord, World.withdrawn, withdraw_hub]
    rfl
  have hopen' : (v.hub.client d).closed = false := by
    rw [hhub, Hub.withoutMember_client, if_neg hd]
    exact hopen
  have hdr : d ∈ (v.hub.room r).clients ↔ d ∈ (w.hub.room r).clients := by
    rw [hhub, Hub.mem_withoutMember r c d hw hc]
    exact and_iff_right hd
  set x := entries.foldl (fun w e => w.broadcastStreamStopped ord r c e.1 e.2) v with hx
  have hxhub : x.hub = v.hub := streamStops_hub ord r c entries v
  have hxbox : inbox d x.log =
      inbox d w.log ++ if d ∈ (w.hub.room r).clients then stopsOf c entries else [] := by
    have hstops := inbox_streamStops ord r entries hd v hopen'
    rw [if_congr hdr rfl rfl] at hstops
    exact hstops
  have hlast : inbox d (w.withdrawn ord r c).log = inbox d
      (if (x.hub.room r).isBroadcast then x.broadcastExcept ord r c (.peerLeft c) else x).log := by
    have hdeparting : ((w.setClient c fun x => { x with closed := true }).removeFrom r
        c).departingStreams ord c = entries := by
      simp [hentries, departingStreams, World.removeFrom, Hub.removeFrom]
    unfold World.withdrawn withdraw
    rw [hdeparting]
    refine (inbox_append d _ _).trans ((List.append_nil _).trans ?_)
    exact (inbox_append d _ _).trans (List.append_nil _)
  have hleft : inbox d (x.broadcastExcept ord r c (.peerLeft c)).log = inbox d x.log ∨
      d ∈ (w.hub.room r).clients ∧
        inbox d (x.broadcastExcept ord r c (.peerLeft c)).log =
          inbox d x.log ++ [("", .peerLeft c)] := by
    rw [broadcastExcept, inbox_sendAll ((Hub.clientsOf_nodup _ _ _).filter _)]
    split_ifs with hmem
    · have hd' := (List.mem_filter.1 hmem.1).1
      rw [Hub.mem_clientsOf, hxhub] at hd'
      exact Or.inr ⟨hdr.1 hd', rfl⟩
    · exact Or.inl (List.append_nil _)
  rw [hlast]
  by_cases hmem : d ∈ (w.hub.room r).clients
  · rw [if_pos hmem] at hxbox
    refine Or.inr ⟨hmem, ?_⟩
    split_ifs
    · rcases hleft with h | ⟨-, h⟩
      · exact Or.inl (h.trans hxbox)
      · rw [h, hxbox, List.append_assoc]
        exact Or.inr rfl
    · exact Or.inl hxbox
  · rw [if_neg hmem, List.append_nil] at hxbox
    refine Or.inl ?_
    split_ifs
    · rcases hleft with h | ⟨h, -⟩
      · exact h.trans hxbox
      · exact absurd h hmem
    · exact hxbox

theorem checkedFrom_stops (entries : List (Kind × StreamID)) {f : Feed} (hj : f.joined = true)
    (hp : f.view.peers c ≠ none) :
    feedReader.CheckedFrom (fun f m => f.Fits d m.2) f (stopsOf c entries) := by
  induction entries generalizing f with
  | nil => trivial
  | cons e entries ih => exact ⟨⟨hj, hp⟩, ih (f := f.next _) hj hp⟩

theorem foldl_stops (entries : List (Kind × StreamID)) (f : Feed) :
    (stopsOf c entries).foldl feedReader.next f =
      ⟨entries.foldl (fun v e => v.setStream c e.1 none) f.view, f.joined⟩ := by
  induction entries generalizing f with
  | nil => rfl
  | cons e entries ih =>
    have hcons : (stopsOf c (e :: entries)).foldl feedReader.next f =
        (stopsOf c entries).foldl feedReader.next ⟨f.view.setStream c e.1 none, f.joined⟩ := rfl
    rw [hcons, ih, List.foldl_cons]

theorem World.FeedsFit.withdrawn (h : w.FeedsFit) (ha : w.ViewsAgree) (hw : w.hub.WellFormed)
    (hc : c ∈ (w.hub.room r).clients) (hbiz : w.hub.isObserver c = false) :
    (w.withdrawn ord r c).FeedsFit := by
  intro d
  have hhub := withdrawn_hub (w := w) (r := r) (c := c) ord
  by_cases hdc : d = c
  · -- it is closed now, and nothing more is sent to it
    subst hdc
    have hclosed : ((w.withdrawn ord r d).hub.client d).closed = true := by
      rw [hhub, Hub.withoutMember_client, if_pos rfl]
    refine ⟨fun hout => ?_, fun hin => ?_⟩
    · rw [hout.2.1] at hclosed
      cases hclosed
    · obtain ⟨s, hs, -⟩ := hin
      rw [hhub, mem_members_withoutMember hw hc] at hs
      exact absurd rfl hs.1
  · have hclient : (w.withdrawn ord r c).hub.client d = w.hub.client d := by
      rw [hhub, Hub.withoutMember_client, if_neg hdc]
    have hs : Hub.Stays w.hub (w.withdrawn ord r c).hub d := by
      refine ⟨?_, ?_⟩
      · unfold Hub.Outside Hub.isObserver
        rw [hclient]
        exact id
      · rintro ⟨s, hd, hmode⟩
        rw [hhub, mem_members_withoutMember hw hc] at hd
        rw [hhub, Hub.withoutMember_mode] at hmode
        exact ⟨s, hd.2, hmode⟩
    by_cases hopen : (w.hub.client d).closed = false
    · set entries := (w.hub.client c).streams.range (ord.streams c) with hentries
      rcases inbox_withdrawn ord hw hc hdc hopen with hbox | ⟨hd, hbox⟩
      · exact (h d).unheard hs hbox
      · have hstops : ∀ m ∈ stopsOf c entries, ∀ p, m.2 ≠ .joined p := by
          intro m hm p
          obtain ⟨e, -, rfl⟩ := List.mem_map.1 hm
          simp
        have hknows : w.hub.Outside d ∨ w.hub.Inside d → (w.feed d).joined = true ∧
            (w.feed d).view.peers c ≠ none := by
          intro hwhere
          obtain ⟨hjoined, hpeers⟩ := h.knows ha hw hd hwhere
          refine ⟨hjoined, ?_⟩
          rw [hpeers, othersCards_of_mem (Hub.mem_members.2 ⟨hc, hbiz⟩) (Ne.symm hdc)]
          exact Option.some_ne_none _
        rcases hbox with hbox | hbox
        · exact (h d).heard hs hbox hstops fun hwhere =>
            checkedFrom_stops entries (hknows hwhere).1 (hknows hwhere).2
        · refine (h d).heard hs hbox ?_ fun hwhere => ?_
          · intro m hm p
            rcases List.mem_append.1 hm with hm | hm
            · exact hstops m hm p
            · rw [List.mem_singleton.1 hm]
              simp
          · obtain ⟨hj, hp⟩ := hknows hwhere
            refine (checkedFrom_stops entries hj hp).append ⟨?_, trivial⟩
            rw [foldl_stops]
            refine ⟨hj, fun kind => ?_⟩
            obtain ⟨-, hfold⟩ := foldl_setStream c entries (w.feed d).view
            have hd' : d ∈ (w.hub.room r).clients := hd
            rw [hfold c kind, feed_view, (ha r d hd').streams]
            split_ifs with hkind
            · rfl
            · -- no entry is of this kind
              cases hl : (w.hub.client c).streams.lookup kind with
              | none => simp [Hub.othersStreams, hl]
              | some s =>
                exact absurd ⟨rfl, List.mem_map.2 ⟨(kind, s), GoMap.mem_range.2 hl, rfl⟩⟩ hkind
    · refine ⟨fun hout => absurd ?_ hopen, fun hin => absurd ?_ hopen⟩
      · exact (hs.outside hout).2.1
      · obtain ⟨s, hd, -⟩ := hs.inside hin
        exact (hw.member s d (Hub.mem_members.1 hd).1).2

theorem cleanup_feedsFit (h : w.FeedsFit) (ha : w.ViewsAgree) (hw : w.hub.WellFormed)
    (hc : w.serving c = true) : (w.cleanup ord c).FeedsFit := by
  cases hr : (w.hub.client c).room with
  | none =>
    rw [cleanup_outside hc hr]
    intro d
    refine (h d).moved ⟨?_, ?_⟩ rfl
    · rintro ⟨hob, hopen, hroom⟩
      rw [setClient_hub, Hub.setClient_client] at hopen
      rw [setClient_hub, Hub.isObserver_setClient (by rfl)] at hob
      rw [setClient_hub, Hub.setClient_client] at hroom
      split_ifs at hopen hroom
      exact ⟨hob, hopen, hroom⟩
    · rintro ⟨s, hd, hmode⟩
      rw [setClient_hub, Hub.mem_members_setClient (by rfl)] at hd
      exact ⟨s, hd, hmode⟩
  | some r =>
    obtain ⟨hconn, hopen⟩ := serving_iff.1 hc
    obtain ⟨v, hv, -, heq⟩ := cleanup_member ord hw hc hr
    have h1 : (w.withdrawn ord r c).FeedsFit :=
      h.withdrawn ha hw (hw.present c r hr hopen) (hw.business hconn)
    intro d
    have h2 : v.Tuned d := (h1 d).aside hv
    have h3 : (v.removeRoomIfEmpty r).Tuned d :=
      h2.moved (.removeRoomIfEmpty v.hub r d) rfl
    rw [heq]
    exact h3.emit (by simp)

theorem World.Tuned.recordState (h : w.Tuned d) {kind : Kind} {stream : StreamID}
    {recording : Bool} : (w.broadcastRecordState ord r c kind stream recording).Tuned d := by
  unfold broadcastRecordState
  split_ifs
  · exact h.quiet (.sendAll _ _ rfl)
  · exact h

/-! ### All operations -/

/-- An observer is no member of anything. -/
theorem observing_feedsFit (h : w.FeedsFit) (u : UserID) (username : String) :
    (w.observing ord u username r).FeedsFit := by
  intro d
  have hhub := observing_hub (w := w) ord u username r
  by_cases hdu : d = u
  · subst hdu
    have hob : (w.observing ord d username r).hub.isObserver d = true := by
      rw [hhub]
      simp [Hub.withObserver, Hub.addTo, Hub.allocate, Hub.observerClient, Hub.isObserver]
    refine ⟨fun hout => ?_, fun hin => ?_⟩
    · rw [hout.1] at hob
      cases hob
    · obtain ⟨s, hs, -⟩ := hin
      rw [(Hub.mem_members.1 hs).2] at hob
      cases hob
  · have hclient : (w.hub.withObserver u username r).client d = w.hub.client d := by
      rw [Hub.withObserver, Hub.setClient_ne _ _ _ _ hdu]
      exact Function.update_of_ne hdu _ _
    have hs : Hub.Stays w.hub (w.observing ord u username r).hub d := by
      rw [hhub]
      refine ⟨?_, ?_⟩
      · unfold Hub.Outside Hub.isObserver
        rw [hclient]
        exact id
      · rintro ⟨s, hd, hmode⟩
        refine ⟨s, ?_, ?_⟩
        · rw [Hub.mem_members, Hub.isObserver, hclient, Hub.withObserver, Hub.setClient_room,
            Hub.mem_addTo] at hd
          exact Hub.mem_members.2 ⟨hd.1.resolve_right fun hs => hdu hs.2, hd.2⟩
        · rw [Hub.withObserver, Hub.setClient_room, ((w.hub.allocate u _).addTo_kept r s u).2]
            at hmode
          exact hmode
    refine (h d).unheard hs ?_
    unfold World.observing
    rw [inbox_send, if_neg fun hd => hdu hd.1.symm, List.append_nil]
    exact (inbox_append d _ _).trans (List.append_nil _)

/-- An observer's offer is answered and nobody else hears of it. -/
theorem Handled.tuned_of_offer (env : Env) {reqID : String} {p : Decoded WebRTCOfferPayload}
    {v : World × Option Err} (h : w.Tuned d)
    (hv : Handled env w c reqID (.webrtcOffer p) .rest v) : v.1.Tuned d := by
  cases hv with
  | refused e hb => exact h
  | ignored hb => exact h
  | exchangeFailed e => exact h.emit (by simp)
  | played m sdp es hroom hm hes =>
    have hquiet : m.neutral = true := by
      rw [hm]
      rfl
    refine ((h.setClient _ rfl rfl rfl).emit ?_).quiet
      (.send _ _ _ hquiet)
    intro e he d q m' hm'
    rcases List.mem_cons.1 he with rfl | he
    · cases hm'
    · exact absurd hm' ((Event.off_of_owner (hes e he)).2 d q m')

theorem Handled.feedsFit {env : Env} {reqID : String} {b : Body} {a : Act} {v : World × Option Err}
    (h : w.FeedsFit) (ha : w.ViewsAgree) (hw : w.hub.WellFormed) (hu : c ∈ w.hub.used)
    (hopen : (w.hub.client c).closed = false) (hbiz : w.hub.isObserver c = false)
    (hv : Handled env w c reqID b a v) : v.1.FeedsFit := by
  have hin : ∀ {r}, (w.hub.client c).room = some r → c ∈ (w.hub.room r).clients := fun hr =>
    hw.present c _ hr hopen
  cases hv with
  | refused e hb => exact h
  | ignored hb => exact h
  | misjoined e hf hroom =>
    intro d
    exact (h d).setClient _ (hf.isObserver _) (hf.closed _) (hf.room _)
  | turnedAway e hf hroom hv hadm =>
    intro d
    exact (h.joining hw hu hf hv d).moved (.removeRoomIfEmpty _ _ d) rfl
  | @joined p f mode v r hf hroom hv hadm =>
    obtain ⟨hvw, -, hvroom, hvopen, -, -⟩ := joining_hub hw hu hf hroom hv
    have hvbiz : v.hub.isObserver c = false := by
      obtain ⟨rfl, rfl⟩ := World.getOrCreateRoom_hub hv
      rw [Hub.isObserver, setHub_hub, Hub.getOrCreateRoom_client]
      exact (Hub.isObserver_setClient (hf.isObserver _) c).trans hbiz
    exact (h.joining hw hu hf hv).entered (ha.joining hw hu hf hroom hv) hvw env.order
      ⟨hvbiz, hvopen.trans hopen, hvroom⟩ fun _ => ⟨rfl, rfl⟩
  | chatted hroom => exact fun d => (h d).quiet (.sendAll _ _ rfl)
  | mediaChanged hroom => exact h.mediaChanged ha hw (hin hroom) hbiz _ _
  | exchangeFailed e => exact fun d => (h d).emit (by simp)
  | @published p r stream sdp hroom hbiz hs =>
    have h1 : ((w.emit [.exchangedSDP c .push (w.hub.room r).id stream true]).emit
        [.published c (w.hub.room r).id (offerKind p) stream]).FeedsFit :=
      fun d => ((h d).emit (by simp)).emit (by simp)
    have ha1 : ((w.emit [.exchangedSDP c .push (w.hub.room r).id stream true]).emit
        [.published c (w.hub.room r).id (offerKind p) stream]).ViewsAgree :=
      (ha.emit (by simp)).emit (by simp)
    intro d
    exact ((h1.startStream ha1 hw (hin hroom) hbiz _ _ d).emit (by simp)).quiet (.send _ _ _ rfl)
  | played m sdp es hroom hm hes =>
    exact fun d => Handled.tuned_of_offer env (h d) (.played m sdp es hroom hm hes)
  | started hroom hbiz hs => exact h.startStream ha hw (hin hroom) hbiz _ _
  | unstopped e hp => exact h
  | stoppedNone hroom hbiz hk hs => exact fun d => (h d).setClient _ rfl rfl rfl
  | stopped hroom hbiz hk hs hne => exact h.stopStream ha hw (hin hroom) hbiz _ _
  | @recordFailed start => exact fun d => (h d).emit (by cases start <;> simp [Event.recordCall])
  | @recorded start =>
    intro d
    refine ((((h d).emit ?_).setClient _ rfl rfl rfl).quiet (.send _ _ _ rfl)).recordState.emit ?_
    · cases start <;> simp [Event.recordCall]
    · simp

end Tuned

theorem Turn.feedsFit {w w' : World} {i : Input} {a : Act} (hw : w.Sound) (ha : w.ViewsAgree)
    (h : w.FeedsFit) (ht : Turn w i a w') : w'.FeedsFit := by
  cases ht with
  | quiet hq => exact fun d => (h d).quiet hq
  | @connected c hop hc =>
    intro d
    refine (h d).moved ⟨?_, ?_⟩ rfl
    · intro hout
      by_cases hd : d = c
      · subst hd
        unfold Hub.Outside Hub.isObserver
        rw [hw.hub.unborn d hc]
        exact ⟨rfl, rfl, rfl⟩
      · have hclient : (w.hub.allocate c newClient).client d = w.hub.client d :=
          Function.update_of_ne hd _ _
        unfold Hub.Outside Hub.isObserver at hout ⊢
        rwa [setHub_hub, hclient] at hout
    · rintro ⟨s, hd, hmode⟩
      have hdc : d ≠ c := by
        rintro rfl
        have hin : d ∈ (w.hub.room s).clients := (Hub.mem_members.1 hd).1
        exact hc (hw.hub.used_of_room (hw.hub.member s d hin).1)
      have hclient : (w.hub.allocate c newClient).client d = w.hub.client d :=
        Function.update_of_ne hdc _ _
      refine ⟨s, ?_, hmode⟩
      rw [Hub.mem_members, Hub.isObserver, setHub_hub, hclient] at hd
      exact Hub.mem_members.2 hd
  | @served c e a v w' hop hc hv hq =>
    obtain ⟨hconn, hopen⟩ := serving_iff.1 hc
    have h1 : (w.emit [.received c e.body]).FeedsFit := fun d => (h d).emit (by simp)
    have ha1 : (w.emit [.received c e.body]).ViewsAgree := ha.emit (by simp)
    have hw' : (w.emit [.received c e.body]).hub.WellFormed := hw.hub
    exact fun d => (hv.feedsFit h1 ha1 hw' (hw.hub.used_of_hasConn hconn) hopen
      (hw.hub.business hconn) d).quiet hq
  | departed hop hc => exact cleanup_feedsFit h ha hw.hub hc
  | @called n hop =>
    unfold runGoroutine
    split
    · exact fun d => (h d).noted (.refl _ _) [.called _ _] rfl (by simp)
    · exact h
  | @observed u k reqID username mode p r w' hop hu hl hgate hw' =>
    rw [hw']
    have h1 : (w.observing i.env.order u username r).FeedsFit :=
      observing_feedsFit h u username
    exact fun d => (h1 d).noted (.refl _ _) [.statsChanged] rfl (by simp)
  | watched ho hv hq => exact fun d => (Handled.tuned_of_offer _ (h d) hv).quiet hq
  | unobserved hv hq => exact fun d => ((h d).aside hv).quiet hq

/-- Whatever happened, what a member of a meeting or a call got to hear fits together and
is what the server holds. -/
theorem feeds_fit (token : String) (is : List Input) :
    ((server token).run is).ViewsAgree ∧ ((server token).run is).FeedsFit := by
  have h : ((server token).run is).Sound ∧ ((server token).run is).ViewsAgree ∧
      ((server token).run is).FeedsFit := by
    refine Machine.run_invariant (P := fun w : World => w.Sound ∧ w.ViewsAgree ∧ w.FeedsFit) ?_ ?_ is
    · refine ⟨server_sound token [], fun r c hc => absurd hc List.not_mem_nil, fun c => ?_⟩
      refine ⟨fun _ => ⟨Reader.checked_nil, rfl⟩, ?_⟩
      rintro ⟨r, hc, -⟩
      exact absurd (Hub.mem_members.1 hc).1 List.not_mem_nil
    · rintro w i ⟨hw, ha, hf⟩
      have ht := step_turn (i := i) hw
      exact ⟨ht.sound hw, ht.viewsAgree hw ha, ht.feedsFit hw ha hf⟩
  exact h.2

end Meetkit
