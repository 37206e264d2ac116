import Meetkit.Abstract.View
import Meetkit.Model.PeerTiles
import Meetkit.Proofs.MeetingPage

/-! The tiles of the meeting page, one change at a time. What only adds and changes tiles
leaves every member with its own, and what touches only the tiles of members and of their
streams leaves no other. -/

namespace Meetkit

namespace MeetingPage

variable {s : MeetingPage} {u : UserID} {r : PeerRef} {kind : Kind}

/-! ### Who is listed -/

/-- The entries are under the same ids and the next one has the same number. -/
def SameList (s s' : MeetingPage) : Prop := s'.peers = s.peers ∧ s'.newPeer = s.newPeer

theorem SameList.trans {s' s'' : MeetingPage} (h : SameList s s') (h' : SameList s' s'') :
    SameList s s'' := ⟨h'.1.trans h.1, h'.2.trans h.2⟩

theorem sameList_stopPeerPull (s : MeetingPage) (r : PeerRef) (kind : Kind) :
    SameList s (s.stopPeerPull r kind) := by
  unfold stopPeerPull
  split <;> exact ⟨rfl, rfl⟩

theorem sameList_closeStream (s : MeetingPage) (r : PeerRef) (kind : Kind) :
    SameList s (s.closeStream r kind) := by
  unfold closeStream
  split <;> exact ⟨rfl, rfl⟩

theorem sameList_attemptPull (s : MeetingPage) (id : PullId) (p : Pull) :
    SameList s (s.attemptPull id p) := by
  unfold attemptPull
  dsimp only
  split_ifs <;> exact ⟨rfl, rfl⟩

theorem ensurePeer_of_lookup (hu : s.peers.lookup u = some r) : s.ensurePeer u = (s, r) := by
  unfold ensurePeer
  rw [hu]

theorem ensurePeer_of_none (hu : s.peers.lookup u = none) :
    s.ensurePeer u = (s.addPeer u, s.newPeer) := by
  unfold ensurePeer
  rw [hu]

theorem sameList_pull (hu : s.peers.lookup u = some r) (kind : Kind) (preemptive : Bool) (g : ℕ) :
    SameList s (s.pullPeerStreamWithRetry u kind preemptive g) := by
  unfold pullPeerStreamWithRetry
  rw [ensurePeer_of_lookup hu]
  exact sameList_attemptPull { s with newPull := s.newPull + 1 } _ _

theorem entry_pull (hu : s.peers.lookup u = some r) (kind : Kind) (preemptive : Bool) (g : ℕ) :
    (s.pullPeerStreamWithRetry u kind preemptive g).entry = s.entry := by
  unfold pullPeerStreamWithRetry attemptPull
  rw [ensurePeer_of_lookup hu]
  dsimp only
  split_ifs <;> rfl

/-- A pull is started for a listed peer, which is listed first where it is not. -/
theorem sameList_startPulling (s : MeetingPage) (u : UserID) (kind : Kind)
    (preemptive force : Bool) :
    SameList (s.ensurePeer u).1 (s.startPullingPeerStream u kind preemptive force) := by
  have hlookup := lookup_ensurePeer s u
  unfold startPullingPeerStream
  generalize s.ensurePeer u = e at hlookup ⊢
  obtain ⟨s1, r⟩ := e
  dsimp only at hlookup ⊢
  have hforce : ∃ s2, (if force then (s1.stopPeerPull r kind).setPulling r kind false else s1) = s2 ∧
      SameList s1 s2 := by
    refine ⟨_, rfl, ?_⟩
    split_ifs
    · exact (sameList_stopPeerPull s1 r kind).trans ⟨rfl, rfl⟩
    · exact ⟨rfl, rfl⟩
  obtain ⟨s2, heq, hsame⟩ := hforce
  rw [heq]
  split_ifs
  · exact hsame
  · exact hsame
  · rw [← hsame.1] at hlookup
    exact hsame.trans (SameList.trans ⟨rfl, rfl⟩
      ((sameList_pull (s := s2.bumpPullGen r kind) hlookup _ _ _).trans ⟨rfl, rfl⟩))

theorem sameList_note (s : MeetingPage) (u : UserID) (kind : Kind) (hkind : kind ≠ "") :
    SameList (s.ensurePeer u).1 (s.notePeerStreamKind u kind) := by
  unfold notePeerStreamKind
  rw [if_neg hkind]
  exact ⟨rfl, rfl⟩

theorem sameList_played (s : MeetingPage) (id : PullId) : SameList s (s.played id) := by
  unfold played
  cases s.pull id with
  | none => exact ⟨rfl, rfl⟩
  | some p =>
    dsimp only
    cases p.phase with
    | playing pc =>
      dsimp only
      split_ifs <;> exact ⟨rfl, rfl⟩
    | sleeping => exact ⟨rfl, rfl⟩
    | ended => exact ⟨rfl, rfl⟩

theorem sameList_playFailed (s : MeetingPage) (id : PullId) : SameList s (s.playFailed id) := by
  unfold playFailed
  cases s.pull id with
  | none => exact ⟨rfl, rfl⟩
  | some p =>
    dsimp only
    cases p.phase <;> exact ⟨rfl, rfl⟩

theorem sameList_slept (s : MeetingPage) (id : PullId) : SameList s (s.slept id) := by
  unfold slept
  cases s.pull id with
  | none => exact ⟨rfl, rfl⟩
  | some p =>
    dsimp only
    cases p.phase with
    | sleeping => exact sameList_attemptPull s id _
    | playing pc => exact ⟨rfl, rfl⟩
    | ended => exact ⟨rfl, rfl⟩

theorem sameList_settled (s : MeetingPage) (id : PullId) : SameList s (s.settled id) := by
  unfold settled
  cases s.pull id with
  | none => exact ⟨rfl, rfl⟩
  | some p =>
    dsimp only
    cases p.phase <;> exact ⟨rfl, rfl⟩

theorem lookup_ensurePeer_iff (s : MeetingPage) (u u' : UserID) :
    (s.ensurePeer u).1.peers.lookup u' =
      if u' = u then some (s.ensurePeer u).2 else s.peers.lookup u' := by
  by_cases hu : u' = u
  · rw [if_pos hu, hu, lookup_ensurePeer]
  · rw [if_neg hu]
    unfold ensurePeer
    cases s.peers.lookup u with
    | some r => rfl
    | none =>
      refine (GoMap.lookup_insert_iff _ _ _ _).trans ?_
      rw [if_neg hu]

theorem lookup_peerLeft_iff (s : MeetingPage) (u u' : UserID) :
    (s.peerLeft u).peers.lookup u' = if u' = u then none else s.peers.lookup u' := by
  have hsame : (s.peerLeft u).peers = s.peers.erase u := by
    cases hu : s.peers.lookup u with
    | none =>
      rw [peerLeft_eq_none hu]
      rfl
    | some r =>
      rw [peerLeft_eq hu, peers_closeStream, peers_closeStream]
      rfl
  rw [hsame, GoMap.lookup_erase_iff]

theorem newPeer_peerLeft (s : MeetingPage) (u : UserID) : (s.peerLeft u).newPeer = s.newPeer := by
  cases hu : s.peers.lookup u with
  | none =>
    rw [peerLeft_eq_none hu]
    rfl
  | some r =>
    rw [peerLeft_eq hu, (sameList_closeStream _ _ _).2, (sameList_closeStream _ _ _).2]
    rfl

end MeetingPage

namespace PeerTile

variable {entry : PeerTile} {opts : TileOpts} {name : String} {kind : Kind}

/-- The tile has the name and the looks of a tile of this kind. -/
structure Named (entry : PeerTile) (name : String) (kind : Kind) : Prop where
  nameTag : entry.nameTag = name ++ screenSuffix (kind = "screen")
  isScreen : entry.isScreen = decide (kind = "screen")
  mirrored : entry.mirrored = shouldMirrorVideo (kind = "screen")

/-- An update that gives no nickname. -/
theorem Named.apply (h : entry.Named name kind) (hname : opts.nickname = none) :
    (entry.apply opts).Named name kind := by
  refine ⟨?_, h.isScreen, h.mirrored⟩
  rw [PeerTile.apply, hname]
  exact h.nameTag

theorem Named.rename (h : entry.Named name kind) (hname : opts.nickname = some name)
    (hscreen : opts.isScreen = decide (kind = "screen")) : (entry.apply opts).Named name kind := by
  refine ⟨?_, h.isScreen, h.mirrored⟩
  rw [PeerTile.apply, hname, hscreen]

theorem Named.create (hname : opts.nickname = some name)
    (hscreen : opts.isScreen = decide (kind = "screen")) :
    ((create opts).apply opts).Named name kind := by
  refine ⟨?_, hscreen, congrArg shouldMirrorVideo hscreen⟩
  rw [PeerTile.apply, hname, hscreen]

theorem Named.setBadges (h : entry.Named name kind) (micOn camOn : Bool) :
    (entry.setBadges micOn camOn).Named name kind := ⟨h.nameTag, h.isScreen, h.mirrored⟩

end PeerTile

namespace PeerTiles

variable {s s' s'' : PeerTiles} {u u' : UserID} {kind kind' : Kind} {nickname : String}
  {r : PeerRef} {v : View}

theorem setTile_tile (s : PeerTiles) (u : UserID) (kind : Kind) (t : Option PeerTile) :
    (s.setTile u kind t).tile u' kind' = if u' = u ∧ kind' = kind then t else s.tile u' kind' := by
  simp only [setTile, Function.update_apply]
  by_cases hu : u' = u
  · subst hu
    simp [Function.update_apply]
  · simp [hu]

theorem upsertTile_tile (s : PeerTiles) (u : UserID) (kind : Kind) (opts : TileOpts) :
    (s.upsertTile u kind opts).tile u' kind' =
      if u' = u ∧ kind' = kind then some (((s.tile u kind).getD (.create opts)).apply opts)
      else s.tile u' kind' :=
  setTile_tile s u kind _

theorem ensureName_tile (s : PeerTiles) (u : UserID) (nickname : String) :
    (s.ensureName u nickname).tile = s.tile ∧ (s.ensureName u nickname).page = s.page ∧
      (s.ensureName u nickname).pullName = s.pullName ∧
        (s.ensureName u nickname).myUserId = s.myUserId := by
  unfold ensureName
  split
  · split_ifs <;> exact ⟨rfl, rfl, rfl, rfl⟩
  · exact ⟨rfl, rfl, rfl, rfl⟩

@[simp] theorem ensurePeer_tile (s : PeerTiles) (u : UserID) (nickname : String) :
    (s.ensurePeer u nickname).tile = s.tile := (ensureName_tile s u nickname).1

@[simp] theorem ensurePeer_page (s : PeerTiles) (u : UserID) (nickname : String) :
    (s.ensurePeer u nickname).page = (s.page.ensurePeer u).1 := rfl

@[simp] theorem ensurePeer_pullName (s : PeerTiles) (u : UserID) (nickname : String) :
    (s.ensurePeer u nickname).pullName = s.pullName := (ensureName_tile s u nickname).2.2.1

/-- Nothing happens to a peer that is listed when its own name is given, or none. -/
theorem ensurePeer_known (hu : s.page.peers.lookup u = some r)
    (hname : nickname = "" ∨ nickname = s.nickname r) : s.ensurePeer u nickname = s := by
  have hensure : s.ensureName u nickname = s := by
    unfold ensureName
    rw [hu]
    dsimp only
    split_ifs with hn
    · rfl
    · rw [hname.resolve_left hn, Function.update_eq_self]
  unfold ensurePeer
  rw [hensure, MeetingPage.ensurePeer_of_lookup hu]
  rfl

/-- The pulls run as they do without the tiles. -/
theorem startPulling_page (s : PeerTiles) (u : UserID) (nickname : String) (kind : Kind)
    (preemptive force : Bool) :
    (s.startPullingPeerStream u nickname kind preemptive force).page =
      s.page.startPullingPeerStream u kind preemptive force := by
  unfold startPullingPeerStream
  dsimp only
  split_ifs with hbusy
  · unfold MeetingPage.startPullingPeerStream
    simp only [Bool.and_eq_true, Bool.or_eq_true, Bool.not_eq_true'] at hbusy
    obtain ⟨hbusy, rfl⟩ := hbusy
    rw [ensurePeer_page]
    dsimp only
    rcases hbusy with hpc | hpulling
    · simp [hpc]
    · simp [hpulling]
  · rfl

/-- What a pull does to the tiles. -/
theorem startPulling_tile (s : PeerTiles) (u : UserID) (nickname : String) (kind : Kind)
    (preemptive force : Bool) :
    let e := s.page.ensurePeer u
    let named := s.ensurePeer u nickname
    (force = false ∧ (((e.1.entry e.2).pc kind).isSome = true ∨ (e.1.entry e.2).pulling kind = true) ∧
        s.startPullingPeerStream u nickname kind preemptive force = named) ∨
      (s.startPullingPeerStream u nickname kind preemptive force).tile = (named.upsertTile u kind
        { nickname := some (named.nickname e.2), isScreen := kind = "screen" }).tile ∧
      (s.startPullingPeerStream u nickname kind preemptive force).nickname = named.nickname ∧
      ∃ g, (s.startPullingPeerStream u nickname kind preemptive force).pullName =
        Function.update named.pullName e.2 (Function.update (named.pullName e.2) kind
          (Function.update (named.pullName e.2 kind) g nickname)) := by
  dsimp only
  unfold startPullingPeerStream
  dsimp only
  split_ifs with hbusy
  · simp only [Bool.and_eq_true, Bool.or_eq_true, Bool.not_eq_true'] at hbusy
    exact Or.inl ⟨hbusy.2, hbusy.1, rfl⟩
  · exact Or.inr ⟨rfl, rfl, _, rfl⟩

/-! ### No tile goes -/

/-- Tiles may come and change but for their badges, none goes, and nobody is forgotten. -/
structure Grows (s s' : PeerTiles) : Prop where
  tile : ∀ u kind t, s.tile u kind = some t →
    ∃ t', s'.tile u kind = some t' ∧ t'.badges = t.badges
  listed : ∀ u, s.page.peers.lookup u ≠ none → s'.page.peers.lookup u ≠ none

theorem Grows.refl (s : PeerTiles) : Grows s s := ⟨fun _ _ t ht => ⟨t, ht, rfl⟩, fun _ => id⟩

theorem Grows.trans (h : Grows s s') (h' : Grows s' s'') : Grows s s'' where
  tile u kind t ht := by
    obtain ⟨t', ht', hb⟩ := h.tile u kind t ht
    obtain ⟨t'', ht'', hb'⟩ := h'.tile u kind t' ht'
    exact ⟨t'', ht'', hb'.trans hb⟩
  listed u hu := h'.listed u (h.listed u hu)

theorem Grows.foldl {α : Type} {g : PeerTiles → α → PeerTiles} (hg : ∀ s a, Grows s (g s a))
    (l : List α) : ∀ s, Grows s (l.foldl g s) := by
  induction l with
  | nil => exact Grows.refl
  | cons a l ih => exact fun s => (hg s a).trans (ih _)

theorem Grows.some (h : Grows s s') (ht : s.tile u kind ≠ none) : s'.tile u kind ≠ none := by
  obtain ⟨t, ht⟩ := Option.ne_none_iff_exists'.1 ht
  obtain ⟨t', ht', -⟩ := h.tile u kind t ht
  rw [ht']
  exact Option.some_ne_none _

theorem Grows.setPage {page : MeetingPage} (h : MeetingPage.SameList s.page page) :
    Grows s (s.setPage page) where
  tile _ _ t ht := ⟨t, ht, rfl⟩
  listed u hu := by
    change page.peers.lookup u ≠ none
    rwa [h.1]

theorem Grows.upsertTile (s : PeerTiles) (u : UserID) (kind : Kind) (opts : TileOpts) :
    Grows s (s.upsertTile u kind opts) where
  tile u' kind' t ht := by
    rw [upsertTile_tile]
    split_ifs with h
    · obtain ⟨rfl, rfl⟩ := h
      rw [ht]
      exact ⟨_, rfl, rfl⟩
    · exact ⟨t, ht, rfl⟩
  listed _ := id

theorem Grows.ensurePeer (s : PeerTiles) (u : UserID) (nickname : String) :
    Grows s (s.ensurePeer u nickname) where
  tile u' kind' t ht := ⟨t, by rw [ensurePeer_tile]; exact ht, rfl⟩
  listed u' hu' := by
    rw [ensurePeer_page, MeetingPage.lookup_ensurePeer_iff]
    split_ifs
    · exact Option.some_ne_none _
    · exact hu'

theorem Grows.notePeerStreamKind (s : PeerTiles) (u : UserID) (kind : Kind) :
    Grows s (s.notePeerStreamKind u kind) := by
  unfold PeerTiles.notePeerStreamKind
  split_ifs with hkind
  · exact .refl s
  · exact (ensurePeer s u "").trans (.setPage (MeetingPage.sameList_note _ _ _ hkind))

theorem Grows.startPulling (s : PeerTiles) (u : UserID) (nickname : String) (kind : Kind)
    (preemptive force : Bool) :
    Grows s (s.startPullingPeerStream u nickname kind preemptive force) := by
  rcases startPulling_tile s u nickname kind preemptive force with ⟨-, -, h⟩ | ⟨h, -⟩
  · rw [h]
    exact ensurePeer s u nickname
  · refine ⟨fun u' kind' t ht => ?_, fun u' hu' => ?_⟩
    · rw [h]
      exact ((ensurePeer s u nickname).trans (.upsertTile _ _ _ _)).tile u' kind' t ht
    · rw [startPulling_page, (MeetingPage.sameList_startPulling _ _ _ _ _).1]
      exact (ensurePeer s u nickname).listed u' hu'

theorem Grows.retry (s : PeerTiles) : Grows s s.retryExistingPeerPulls :=
  foldl (fun s _ => foldl (fun s _ => startPulling s _ _ _ _ _) _ s) _ s

theorem Grows.track (s : PeerTiles) (pc : PC) (stream : MediaStream) :
    Grows s (s.track pc stream) := by
  unfold PeerTiles.track
  cases s.page.conn pc with
  | none => exact .refl s
  | some c =>
    dsimp only
    split_ifs
    · exact .refl s
    · exact .refl s
    · exact .upsertTile _ _ _ _

/-- A failed connection is given up, or its stream is pulled again. -/
theorem connectionFailed_cases (s : PeerTiles) (pc : PC) : s.connectionFailed pc = s ∨
    ∃ c page, s.page.conn pc = some c ∧ c.closed = false ∧
      (s.page.entry c.peer).pullGen c.kind = c.pullGen ∧ MeetingPage.SameList s.page page ∧
        (s.page.Sound → page.Sound) ∧ (s.connectionFailed pc = s.setPage page ∨
          s.connectionFailed pc = (s.setPage page).startPullingPeerStream c.userId
            (s.pullName c.peer c.kind c.pullGen) c.kind true true) := by
  unfold PeerTiles.connectionFailed
  cases hc : s.page.conn pc with
  | none => exact Or.inl rfl
  | some c =>
    dsimp only
    have hstop : ∀ n, MeetingPage.SameList s.page
        ((s.page.setFailRetries c.peer c.kind n).stopPeerPull c.peer c.kind) := fun n =>
      MeetingPage.SameList.trans ⟨rfl, rfl⟩ (MeetingPage.sameList_stopPeerPull _ _ _)
    by_cases hclosed : c.closed = true
    · exact Or.inl (if_pos hclosed)
    rw [if_neg hclosed]
    by_cases hgen : (s.page.entry c.peer).pullGen c.kind = c.pullGen
    · rw [if_neg (not_not.2 hgen)]
      by_cases hpc : (s.page.entry c.peer).pc c.kind = if c.returned then some pc else none
      · rw [if_neg (not_not.2 hpc)]
        refine Or.inr ⟨c, _, rfl, by simpa using hclosed, hgen,
          hstop ((s.page.entry c.peer).failRetries c.kind + 1), fun hs => ?_, ?_⟩
        · have hretries := MeetingPage.Harmless.setFailRetries hs c.peer c.kind
            ((s.page.entry c.peer).failRetries c.kind + 1)
          exact (MeetingPage.Harmless.stopPeerPull hretries.sound _ _).sound
        split_ifs
        · exact Or.inl rfl
        · exact Or.inr rfl
      · exact Or.inl (if_pos hpc)
    · exact Or.inl (if_pos hgen)

theorem Grows.connectionFailed (s : PeerTiles) (pc : PC) : Grows s (s.connectionFailed pc) := by
  rcases connectionFailed_cases s pc with h | ⟨c, page, -, -, -, hpage, -, h | h⟩
  · rw [h]
    exact .refl s
  · rw [h]
    exact .setPage hpage
  · rw [h]
    exact (Grows.setPage hpage).trans (startPulling _ _ _ _ _ _)

/-! ### Every member has its tile -/

/-- What is known of the room is on the page. -/
structure Shown (s : PeerTiles) (v : View) : Prop where
  listed : ∀ u, v.peers u ≠ none → s.page.peers.lookup u ≠ none
  cam : ∀ u card, v.peers u = some card →
    ∃ t, s.tile u "cam" = some t ∧ t.badges = PeerTile.badgesOf card.micOn card.camOn
  stream : ∀ u kind, v.streams u kind ≠ none → s.tile u kind ≠ none

theorem Shown.grows (h : Shown s v) (hg : Grows s s') : Shown s' v where
  listed u hu := hg.listed u (h.listed u hu)
  cam u card hu := by
    obtain ⟨t, ht, hb⟩ := h.cam u card hu
    obtain ⟨t', ht', hb'⟩ := hg.tile u "cam" t ht
    exact ⟨t', ht', hb'.trans hb⟩
  stream u kind hk := hg.some (h.stream u kind hk)

/-- A stream that has its tile may be known. -/
theorem Shown.setStream (h : Shown s v) (ht : s.tile u kind ≠ none) (stream : Option StreamID) :
    Shown s (v.setStream u kind stream) where
  listed := h.listed
  cam := h.cam
  stream u' kind' hk := by
    rw [View.setStream_streams] at hk
    split_ifs at hk with hsame
    · rw [hsame.1, hsame.2]
      exact ht
    · exact h.stream u' kind' hk

/-- The tile of a camera, with the badges of the media state. -/
theorem placeholder_tile (s : PeerTiles) (u : UserID) (nickname : String) (micOn camOn : Bool) :
    (s.ensurePeerPlaceholderTile u nickname (some (micOn, camOn))).tile u' kind' =
      if u' = u ∧ kind' = "cam" then
        some ((((s.tile u "cam").getD (.create { nickname := some ((s.ensurePeer u nickname).peerName u)
          })).apply { nickname := some ((s.ensurePeer u nickname).peerName u) }).setBadges micOn camOn)
      else s.tile u' kind' := by
  unfold ensurePeerPlaceholderTile updateBadges
  dsimp only
  rw [setTile_tile]
  split_ifs with h
  · rw [upsertTile_tile, if_pos ⟨rfl, rfl⟩, ensurePeer_tile]
    rfl
  · rw [upsertTile_tile, if_neg h, ensurePeer_tile]

theorem placeholder_page (s : PeerTiles) (u : UserID) (nickname : String)
    (media : Option (Bool × Bool)) :
    (s.ensurePeerPlaceholderTile u nickname media).page = (s.page.ensurePeer u).1 := by
  unfold ensurePeerPlaceholderTile
  dsimp only
  split <;> rfl

theorem Shown.placeholder (h : Shown s v) (u : UserID) (nickname : String) (card : Card) :
    Shown (s.ensurePeerPlaceholderTile u nickname (some (card.micOn, card.camOn)))
      (v.setPeer u (some card)) where
  listed u' hu' := by
    rw [placeholder_page, MeetingPage.lookup_ensurePeer_iff]
    split_ifs with hu
    · exact Option.some_ne_none _
    · rw [View.setPeer_peers, if_neg hu] at hu'
      exact h.listed u' hu'
  cam u' card' hu' := by
    rw [View.setPeer_peers] at hu'
    rw [placeholder_tile]
    split_ifs at hu' with hu
    · obtain rfl := Option.some.inj hu'
      rw [if_pos ⟨hu, rfl⟩]
      exact ⟨_, rfl, rfl⟩
    · rw [if_neg fun hno => hu hno.1]
      exact h.cam u' card' hu'
  stream u' kind' hk := by
    rw [placeholder_tile]
    split_ifs
    · exact Option.some_ne_none _
    · exact h.stream u' kind' hk

/-- A pull that is forced leaves a tile. -/
theorem startPulling_some (s : PeerTiles) (u : UserID) (nickname : String) (kind : Kind)
    (preemptive : Bool) :
    (s.startPullingPeerStream u nickname kind preemptive true).tile u kind ≠ none := by
  rcases startPulling_tile s u nickname kind preemptive true with ⟨h, -, -⟩ | ⟨h, -⟩
  · cases h
  · rw [h, upsertTile_tile, if_pos ⟨rfl, rfl⟩]
    exact Option.some_ne_none _

theorem Shown.started (h : Shown s v) (p : PeerStreamPayload) :
    Shown (s.peerStreamStarted p) (v.setStream p.userID p.kind (some p.streamID)) := by
  have hgrows : Grows s (s.peerStreamStarted p) :=
    ((Grows.notePeerStreamKind s p.userID p.kind).trans (.ensurePeer _ _ _)).trans
      (.startPulling _ _ _ _ _ _)
  exact (h.grows hgrows).setStream (startPulling_some _ _ _ _ _) _

theorem Shown.removeTile (h : Shown s v) (hkind : kind ≠ "cam" ∨ v.peers u = none)
    (hno : v.streams u kind = none) : Shown (s.removeTile u kind) v where
  listed := h.listed
  cam u' card hu' := by
    have hne : ¬(u' = u ∧ "cam" = kind) := by
      rintro ⟨rfl, rfl⟩
      rcases hkind with hkind | hnone
      · exact hkind rfl
      · rw [hnone] at hu'
        cases hu'
    rw [PeerTiles.removeTile, setTile_tile, if_neg hne]
    exact h.cam u' card hu'
  stream u' kind' hk := by
    have hne : ¬(u' = u ∧ kind' = kind) := by
      rintro ⟨rfl, rfl⟩
      exact hk hno
    rw [PeerTiles.removeTile, setTile_tile, if_neg hne]
    exact h.stream u' kind' hk

/-- A stream that is not known any more may keep its tile. -/
theorem Shown.forgetStream (h : Shown s v) (u : UserID) (kind : Kind) :
    Shown s (v.setStream u kind none) where
  listed := h.listed
  cam := h.cam
  stream u' kind' hk := by
    rw [View.setStream_streams] at hk
    split_ifs at hk with hsame
    · exact absurd rfl hk
    · exact h.stream u' kind' hk

theorem sameList_peerStreamStopped (s : MeetingPage) (u : UserID) (kind : Kind) :
    MeetingPage.SameList s (s.peerStreamStopped u kind) := by
  unfold MeetingPage.peerStreamStopped
  split
  · exact MeetingPage.sameList_stopPeerPull _ _ _
  · exact ⟨rfl, rfl⟩

theorem Shown.stopped (h : Shown s v) (p : PeerStreamPayload) (hu : v.peers p.userID ≠ none) :
    Shown (s.peerStreamStopped p) (v.setStream p.userID p.kind none) := by
  have hpage := Grows.setPage (s := s) (sameList_peerStreamStopped s.page p.userID p.kind)
  have h1 := (h.grows hpage).forgetStream p.userID p.kind
  unfold PeerTiles.peerStreamStopped
  dsimp only
  split_ifs with hcam
  · refine (h1.grows ?_).grows (.upsertTile _ _ _ _)
    unfold ensurePeerPlaceholderTile
    exact (Grows.ensurePeer _ _ _).trans (.upsertTile _ _ _ _)
  · have hkind : p.kind ≠ "cam" := by
      rintro hk
      refine hcam ?_
      rw [Bool.and_eq_true, decide_eq_true_eq, Option.isSome_iff_ne_none]
      exact ⟨hk, h.listed _ hu⟩
    exact h1.removeTile (Or.inl hkind) (by rw [View.setStream_streams, if_pos ⟨rfl, rfl⟩])

theorem Shown.left (h : Shown s v) (u : UserID) (hno : ∀ kind, v.streams u kind = none) :
    Shown (s.peerLeft u) (v.setPeer u none) := by
  have hgone : Shown (s.setPage (s.page.peerLeft u)) (v.setPeer u none) := by
    refine ⟨fun u' hu' => ?_, fun u' card hu' => ?_, h.stream⟩
    · rw [View.setPeer_peers] at hu'
      split_ifs at hu' with hu
      · exact absurd rfl hu'
      · change (s.page.peerLeft u).peers.lookup u' ≠ none
        rw [MeetingPage.lookup_peerLeft_iff, if_neg hu]
        exact h.listed u' hu'
    · rw [View.setPeer_peers] at hu'
      split_ifs at hu'
      exact h.cam u' card hu'
  have hnone : (v.setPeer u none).peers u = none := by rw [View.setPeer_peers, if_pos rfl]
  exact (hgone.removeTile (Or.inr hnone) (hno _)).removeTile (Or.inr hnone) (hno _)

theorem ensurePeer_listed (hu : s.page.peers.lookup u = some r) :
    (s.page.ensurePeer u).1 = s.page := congrArg Prod.fst (MeetingPage.ensurePeer_of_lookup hu)

/-! ### No other tile is there -/

/-- The name of a member on the page. -/
def memberName (u : UserID) (nickname : String) : String :=
  if nickname = "" then shortName u else nickname

/-- Nothing but what is known of the room is on the page, under its own name. -/
structure Neat (s : PeerTiles) (v : View) : Prop where
  sound : s.page.Sound
  listed : ∀ u, s.page.peers.lookup u ≠ none → v.peers u ≠ none
  stream : ∀ u kind, v.streams u kind ≠ none → v.peers u ≠ none
  name : ∀ u r card, s.page.peers.lookup u = some r → v.peers u = some card →
    s.nickname r = memberName u card.nickname
  pullName : ∀ u r, s.page.peers.lookup u = some r → ∀ kind g,
    s.pullName r kind g = "" ∨ s.pullName r kind g = s.nickname r
  unused : ∀ r, s.page.newPeer ≤ r → ∀ kind g, s.pullName r kind g = ""
  tile : ∀ u kind t, s.tile u kind = some t → ∃ r, s.page.peers.lookup u = some r ∧
    (kind = "cam" ∨ v.streams u kind ≠ none) ∧ t.Named (s.nickname r) kind

namespace Neat

variable {opts : TileOpts}

theorem setPage (h : Neat s v) {page : MeetingPage} (hp : MeetingPage.SameList s.page page)
    (hs : page.Sound) : Neat (s.setPage page) v := by
  have hl : (s.setPage page).page.peers = s.page.peers := hp.1
  refine ⟨hs, fun u hu => h.listed u (hl ▸ hu), h.stream, fun u r card hu => h.name u r card (hl ▸ hu),
    fun u r hu => h.pullName u r (hl ▸ hu), fun r hr => h.unused r ?_, fun u kind t ht => ?_⟩
  · exact hp.2 ▸ hr
  · rw [hl]
    exact h.tile u kind t ht

/-- One tile is written. -/
theorem setTile (h : Neat s v) {t : PeerTile} (hu : s.page.peers.lookup u = some r)
    (hk : kind = "cam" ∨ v.streams u kind ≠ none) (ht : t.Named (s.nickname r) kind) :
    Neat (s.setTile u kind (some t)) v := by
  refine ⟨h.sound, h.listed, h.stream, h.name, h.pullName, h.unused, fun u' kind' t' ht' => ?_⟩
  rw [setTile_tile] at ht'
  split_ifs at ht' with hsame
  · obtain ⟨rfl, rfl⟩ := hsame
    obtain rfl := Option.some.inj ht'
    exact ⟨r, hu, hk, ht⟩
  · exact h.tile u' kind' t' ht'

/-- A tile gets its member's name. -/
theorem upsertTile (h : Neat s v) (hu : s.page.peers.lookup u = some r)
    (hk : kind = "cam" ∨ v.streams u kind ≠ none) (hname : opts.nickname = some (s.nickname r))
    (hscreen : opts.isScreen = decide (kind = "screen")) : Neat (s.upsertTile u kind opts) v := by
  refine h.setTile hu hk ?_
  cases ht : s.tile u kind with
  | none => exact .create hname hscreen
  | some t =>
    obtain ⟨r', hu', -, hnamed⟩ := h.tile u kind t ht
    obtain rfl : r' = r := Option.some.inj (hu'.symm.trans hu)
    exact hnamed.rename hname hscreen

/-- A tile that is there gets something else. -/
theorem touchTile (h : Neat s v) (ht : s.tile u kind ≠ none) (hname : opts.nickname = none) :
    Neat (s.upsertTile u kind opts) v := by
  obtain ⟨t, ht⟩ := Option.ne_none_iff_exists'.1 ht
  obtain ⟨r, hu, hk, hnamed⟩ := h.tile u kind t ht
  refine h.setTile hu hk ?_
  rw [ht]
  exact hnamed.apply hname

theorem updateBadges (h : Neat s v) (u : UserID) (kind : Kind) (micOn camOn : Bool) :
    Neat (s.updateBadges u kind micOn camOn) v := by
  refine ⟨h.sound, h.listed, h.stream, h.name, h.pullName, h.unused, fun u' kind' t ht => ?_⟩
  rw [PeerTiles.updateBadges, setTile_tile] at ht
  split_ifs at ht with hsame
  · obtain ⟨rfl, rfl⟩ := hsame
    obtain ⟨t', ht', rfl⟩ := Option.map_eq_some_iff.1 ht
    obtain ⟨r, hu, hk, hnamed⟩ := h.tile u' kind' t' ht'
    exact ⟨r, hu, hk, hnamed.setBadges micOn camOn⟩
  · exact h.tile u' kind' t ht

theorem removeTile (h : Neat s v) (u : UserID) (kind : Kind) : Neat (s.removeTile u kind) v := by
  refine ⟨h.sound, h.listed, h.stream, h.name, h.pullName, h.unused, fun u' kind' t ht => ?_⟩
  rw [PeerTiles.removeTile, setTile_tile] at ht
  split_ifs at ht
  exact h.tile u' kind' t ht

/-- A stream of a listed peer is known. -/
theorem know (h : Neat s v) (hu : v.peers u ≠ none) (kind : Kind) (stream : StreamID) :
    Neat s (v.setStream u kind (some stream)) := by
  refine ⟨h.sound, h.listed, fun u' kind' hk => ?_, h.name, h.pullName, h.unused, fun u' kind' t ht => ?_⟩
  · rw [View.setStream_streams] at hk
    split_ifs at hk with hsame
    · rw [hsame.1]
      exact hu
    · exact h.stream u' kind' hk
  · obtain ⟨r, hl, hk, hnamed⟩ := h.tile u' kind' t ht
    refine ⟨r, hl, hk.imp_right fun hk => ?_, hnamed⟩
    rw [View.setStream_streams]
    split_ifs
    · exact Option.some_ne_none _
    · exact hk

/-- A stream without a tile is forgotten, and so is a camera. -/
theorem forget (h : Neat s v) (hk : kind = "cam" ∨ s.tile u kind = none) :
    Neat s (v.setStream u kind none) := by
  refine ⟨h.sound, h.listed, fun u' kind' hk' => ?_, h.name, h.pullName, h.unused,
    fun u' kind' t ht => ?_⟩
  · rw [View.setStream_streams] at hk'
    split_ifs at hk'
    · exact absurd rfl hk'
    · exact h.stream u' kind' hk'
  · obtain ⟨r, hl, hk', hnamed⟩ := h.tile u' kind' t ht
    refine ⟨r, hl, ?_, hnamed⟩
    rw [View.setStream_streams]
    split_ifs with hsame
    · obtain ⟨rfl, rfl⟩ := hsame
      refine Or.inl (hk.resolve_right ?_)
      rw [ht]
      exact Option.some_ne_none _
    · exact hk'

/-- A peer's card is rewritten under its old name. -/
theorem recard (h : Neat s v) {card card' : Card} (hu : v.peers u = some card)
    (hname : card'.nickname = card.nickname) : Neat s (v.setPeer u (some card')) := by
  have hpeers : ∀ u', v.peers u' ≠ none → (v.setPeer u (some card')).peers u' ≠ none := by
    intro u' hu'
    rw [View.setPeer_peers]
    split_ifs
    · exact Option.some_ne_none _
    · exact hu'
  refine ⟨h.sound, fun u' hu' => hpeers u' (h.listed u' hu'),
    fun u' kind hk => hpeers u' (h.stream u' kind hk), fun u' r card'' hl hu' => ?_, h.pullName,
    h.unused, h.tile⟩
  rw [View.setPeer_peers] at hu'
  split_ifs at hu' with hsame
  · obtain rfl := Option.some.inj hu'
    rw [hname, hsame]
    rw [hsame] at hl
    exact h.name u r card hl hu
  · exact h.name u' r card'' hl hu'

/-- A peer that nobody has heard of is listed. -/
theorem list (h : Neat s v) (hu : v.peers u = none) (card : Card) :
    Neat (s.ensurePeer u card.nickname) (v.setPeer u (some card)) := by
  have hnone : s.page.peers.lookup u = none := by
    by_contra hl
    exact h.listed u hl hu
  have hname : (s.ensurePeer u card.nickname).nickname =
      Function.update s.nickname s.page.newPeer (memberName u card.nickname) := by
    unfold PeerTiles.ensurePeer ensureName
    rw [hnone]
    rfl
  have hpage : (s.ensurePeer u card.nickname).page = s.page.addPeer u :=
    congrArg Prod.fst (MeetingPage.ensurePeer_of_none hnone)
  have hlookup : ∀ u' r, (s.ensurePeer u card.nickname).page.peers.lookup u' = some r →
      u' = u ∧ r = s.page.newPeer ∨ u' ≠ u ∧ s.page.peers.lookup u' = some r := by
    intro u' r hl
    rw [hpage] at hl
    exact MeetingPage.lookup_addPeer hl
  have hold : ∀ u' r, s.page.peers.lookup u' = some r →
      (s.ensurePeer u card.nickname).nickname r = s.nickname r := by
    intro u' r hl
    rw [hname, Function.update_of_ne (Nat.ne_of_lt (h.sound.peerFresh hl))]
  have hpeers : ∀ u', u' ≠ u → (v.setPeer u (some card)).peers u' = v.peers u' := fun u' hne => by
    rw [View.setPeer_peers, if_neg hne]
  have hself : (v.setPeer u (some card)).peers u = some card := by
    rw [View.setPeer_peers, if_pos rfl]
  refine ⟨?_, fun u' hu' => ?_, fun u' kind hk => ?_, fun u' r card' hl hu' => ?_,
    fun u' r hl kind g => ?_, fun r hr kind g => ?_, fun u' kind t ht => ?_⟩
  · rw [hpage]
    exact h.sound.addPeer
  · obtain ⟨r, hl⟩ := Option.ne_none_iff_exists'.1 hu'
    rcases hlookup u' r hl with ⟨rfl, -⟩ | ⟨hne, hl'⟩
    · rw [hself]
      exact Option.some_ne_none _
    · rw [hpeers u' hne]
      exact h.listed u' (by rw [hl']; exact Option.some_ne_none _)
  · have hv := h.stream u' kind hk
    have hne : u' ≠ u := by
      rintro rfl
      exact hv hu
    rw [hpeers u' hne]
    exact hv
  · rcases hlookup u' r hl with ⟨rfl, rfl⟩ | ⟨hne, hl'⟩
    · rw [hself] at hu'
      obtain rfl := Option.some.inj hu'
      rw [hname, Function.update_self]
    · rw [hpeers u' hne] at hu'
      rw [hold u' r hl']
      exact h.name u' r card' hl' hu'
  · rw [ensurePeer_pullName]
    rcases hlookup u' r hl with ⟨-, rfl⟩ | ⟨-, hl'⟩
    · exact Or.inl (h.unused _ le_rfl kind g)
    · rw [hold u' r hl']
      exact h.pullName u' r hl' kind g
  · rw [ensurePeer_pullName]
    rw [hpage] at hr
    exact h.unused r ((Nat.le_succ _).trans hr) kind g
  · rw [ensurePeer_tile] at ht
    obtain ⟨r, hl, hk, hnamed⟩ := h.tile u' kind t ht
    refine ⟨r, ?_, hk, ?_⟩
    · have hne : u' ≠ u := by
        rintro rfl
        rw [hnone] at hl
        cases hl
      rw [ensurePeer_page, MeetingPage.lookup_ensurePeer_iff, if_neg hne]
      exact hl
    · rw [hold u' r hl]
      exact hnamed

/-- A peer's stream is pulled where it may have a tile. -/
theorem pull (h : Neat s v) (hu : s.page.peers.lookup u = some r)
    (hname : nickname = "" ∨ nickname = s.nickname r) (hk : kind = "cam" ∨ v.streams u kind ≠ none)
    (preemptive force : Bool) :
    Neat (s.startPullingPeerStream u nickname kind preemptive force) v := by
  have hknown := ensurePeer_known hu hname
  have hensured : s.page.ensurePeer u = (s.page, r) := MeetingPage.ensurePeer_of_lookup hu
  have hpage := startPulling_page s u nickname kind preemptive force
  have hsame := MeetingPage.sameList_startPulling s.page u kind preemptive force
  have hsound := (MeetingPage.Harmless.startPullingPeerStream h.sound u kind preemptive force).sound
  rcases startPulling_tile s u nickname kind preemptive force with ⟨-, -, hres⟩ |
    ⟨htile, hnick, g, hpull⟩
  · rw [hres, hknown]
    exact h
  · rw [hknown, hensured] at htile hpull
    rw [hknown] at hnick
    rw [hensured] at hsame
    have hup : Neat (s.upsertTile u kind { nickname := some (s.nickname r), isScreen := kind = "screen" })
        v := h.upsertTile hu hk rfl rfl
    have hl : (s.startPullingPeerStream u nickname kind preemptive force).page.peers = s.page.peers := by
      rw [hpage, hsame.1]
    refine ⟨by rw [hpage]; exact hsound, fun u' hu' => h.listed u' (hl ▸ hu'), h.stream,
      fun u' r' card hu' => ?_, fun u' r' hu' kind' g' => ?_, fun r' hr' kind' g' => ?_,
      fun u' kind' t ht => ?_⟩
    · rw [hl] at hu'
      rw [hnick]
      exact h.name u' r' card hu'
    · rw [hl] at hu'
      have hold := h.pullName u' r' hu' kind' g'
      rw [hnick, hpull]
      by_cases hr : r' = r
      · subst hr
        rw [Function.update_self]
        by_cases hkind : kind' = kind
        · subst hkind
          rw [Function.update_self, Function.update_apply]
          split_ifs
          · exact hname
          · exact hold
        · rw [Function.update_of_ne hkind]
          exact hold
      · rw [Function.update_of_ne hr]
        exact hold
    · rw [hpage, hsame.2] at hr'
      have hne : r' ≠ r := by
        rintro rfl
        exact absurd (h.sound.peerFresh hu) (Nat.not_lt.2 hr')
      rw [hpull, Function.update_of_ne hne]
      exact h.unused r' hr' kind' g'
    · rw [htile] at ht
      rw [hl, hnick]
      exact hup.tile u' kind' t ht

theorem note (h : Neat s v) (hu : s.page.peers.lookup u = some r) (kind : Kind) :
    Neat (s.notePeerStreamKind u kind) v ∧
      (s.notePeerStreamKind u kind).page.peers.lookup u = some r ∧
        (s.notePeerStreamKind u kind).nickname = s.nickname := by
  unfold PeerTiles.notePeerStreamKind
  split_ifs with hkind
  · exact ⟨h, hu, rfl⟩
  · rw [ensurePeer_known hu (Or.inl rfl)]
    have hsame := MeetingPage.sameList_note s.page u kind hkind
    rw [ensurePeer_listed hu] at hsame
    refine ⟨h.setPage hsame (MeetingPage.Harmless.notePeerStreamKind h.sound u kind).sound, ?_, rfl⟩
    change (s.page.notePeerStreamKind u kind).peers.lookup u = some r
    rw [hsame.1]
    exact hu

/-- The placeholder of a listed peer. -/
theorem placeholder (h : Neat s v) (hu : s.page.peers.lookup u = some r)
    (hname : nickname = "" ∨ nickname = s.nickname r) (media : Option (Bool × Bool)) :
    Neat (s.ensurePeerPlaceholderTile u nickname media) v := by
  have hpeer : s.peerName u = s.nickname r := by
    unfold peerName
    rw [hu]
  have hup : Neat (s.upsertTile u "cam" { nickname := some (s.nickname r) }) v :=
    h.upsertTile hu (Or.inl rfl) rfl rfl
  unfold ensurePeerPlaceholderTile
  rw [ensurePeer_known hu hname]
  dsimp only
  rw [hpeer]
  split
  · exact hup.updateBadges u "cam" _ _
  · exact hup

theorem joined (h : Neat s v) (hu : v.peers u = none) (card : Card) :
    Neat (s.ensurePeerPlaceholderTile u card.nickname (some (card.micOn, card.camOn)))
      (v.setPeer u (some card)) := by
  have h1 := h.list hu card
  have hl := MeetingPage.lookup_ensurePeer s.page u
  have hpeer : (s.ensurePeer u card.nickname).peerName u =
      (s.ensurePeer u card.nickname).nickname (s.page.ensurePeer u).2 := by
    unfold peerName
    rw [ensurePeer_page, hl]
  have hup : Neat ((s.ensurePeer u card.nickname).upsertTile u "cam"
      { nickname := some ((s.ensurePeer u card.nickname).nickname (s.page.ensurePeer u).2) })
      (v.setPeer u (some card)) := h1.upsertTile hl (Or.inl rfl) rfl rfl
  unfold ensurePeerPlaceholderTile
  dsimp only
  rw [hpeer]
  exact hup.updateBadges u "cam" _ _

theorem started (h : Neat s v) (p : PeerStreamPayload) (hl : s.page.peers.lookup p.userID = some r)
    (hu : v.peers p.userID ≠ none) :
    Neat (s.peerStreamStarted p) (v.setStream p.userID p.kind (some p.streamID)) := by
  have hon : (v.setStream p.userID p.kind (some p.streamID)).streams p.userID p.kind ≠ none := by
    rw [View.setStream_streams, if_pos ⟨rfl, rfl⟩]
    exact Option.some_ne_none _
  obtain ⟨h1, hl1, hnick⟩ := (h.know hu p.kind p.streamID).note hl p.kind
  unfold PeerTiles.peerStreamStarted
  dsimp only
  rw [ensurePeer_known hl1 (Or.inl rfl)]
  refine h1.pull hl1 (Or.inr ?_) (Or.inr hon) true true
  unfold peerName
  rw [hl1]

theorem stopped (h : Neat s v) (p : PeerStreamPayload) (hl : s.page.peers.lookup p.userID = some r) :
    Neat (s.peerStreamStopped p) (v.setStream p.userID p.kind none) := by
  have hsame := sameList_peerStreamStopped s.page p.userID p.kind
  have h1 : Neat (s.setPage (s.page.peerStreamStopped p.userID p.kind)) v :=
    h.setPage hsame (MeetingPage.Harmless.peerStreamStopped h.sound p.userID p.kind).sound
  have hl1 : (s.setPage (s.page.peerStreamStopped p.userID p.kind)).page.peers.lookup p.userID =
      some r := by
    change (s.page.peerStreamStopped p.userID p.kind).peers.lookup p.userID = some r
    rw [hsame.1]
    exact hl
  unfold PeerTiles.peerStreamStopped
  dsimp only
  split_ifs with hcam
  · have hkind : p.kind = "cam" := by
      rw [Bool.and_eq_true, decide_eq_true_eq] at hcam
      exact hcam.1
    have hname : (s.setPage (s.page.peerStreamStopped p.userID p.kind)).peerName p.userID =
        s.nickname r := by
      unfold peerName
      rw [hl1]
      rfl
    have h2 := (h1.forget (u := p.userID) (Or.inl hkind)).placeholder hl1 (Or.inr hname) none
    refine h2.touchTile ?_ rfl
    rw [ensurePeerPlaceholderTile, upsertTile_tile, if_pos ⟨rfl, rfl⟩]
    exact Option.some_ne_none _
  · refine (h1.removeTile p.userID p.kind).forget (Or.inr ?_)
    rw [PeerTiles.removeTile, setTile_tile, if_pos ⟨rfl, rfl⟩]

theorem left (h : Neat s v) (u : UserID) (hno : ∀ kind, v.streams u kind = none) :
    Neat (s.peerLeft u) (v.setPeer u none) := by
  have hlookup : ∀ u' r, (s.peerLeft u).page.peers.lookup u' = some r →
      u' ≠ u ∧ s.page.peers.lookup u' = some r := by
    intro u' r hl
    change (s.page.peerLeft u).peers.lookup u' = some r at hl
    rw [MeetingPage.lookup_peerLeft_iff] at hl
    split_ifs at hl with hu
    exact ⟨hu, hl⟩
  have hpeers : ∀ u', u' ≠ u → (v.setPeer u none).peers u' = v.peers u' := fun u' hne => by
    rw [View.setPeer_peers, if_neg hne]
  refine ⟨h.sound.peerLeft u, fun u' hu' => ?_, fun u' kind hk => ?_, fun u' r card hl hu' => ?_,
    fun u' r hl => h.pullName u' r (hlookup u' r hl).2, fun r hr => h.unused r ?_,
    fun u' kind t ht => ?_⟩
  · obtain ⟨r, hl⟩ := Option.ne_none_iff_exists'.1 hu'
    obtain ⟨hne, hl'⟩ := hlookup u' r hl
    rw [hpeers u' hne]
    exact h.listed u' (by rw [hl']; exact Option.some_ne_none _)
  · have hne : u' ≠ u := by
      rintro rfl
      exact hk (hno kind)
    rw [hpeers u' hne]
    exact h.stream u' kind hk
  · obtain ⟨hne, hl'⟩ := hlookup u' r hl
    rw [hpeers u' hne] at hu'
    exact h.name u' r card hl' hu'
  · change (s.page.peerLeft u).newPeer ≤ r at hr
    rwa [MeetingPage.newPeer_peerLeft] at hr
  · unfold PeerTiles.peerLeft PeerTiles.removeTile at ht
    rw [setTile_tile] at ht
    split_ifs at ht with hscreen
    rw [setTile_tile] at ht
    split_ifs at ht with hcam
    obtain ⟨r, hl, hk, hnamed⟩ := h.tile u' kind t ht
    have hne : u' ≠ u := by
      rintro rfl
      exact hk.elim (fun hk => hcam ⟨rfl, hk⟩) fun hk => hk (hno kind)
    refine ⟨r, ?_, hk, hnamed⟩
    change (s.page.peerLeft u).peers.lookup u' = some r
    rw [MeetingPage.lookup_peerLeft_iff, if_neg hne]
    exact hl

end Neat

end PeerTiles

end Meetkit
