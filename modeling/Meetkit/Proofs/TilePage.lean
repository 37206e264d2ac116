import Meetkit.Proofs.PeerTiles
import Meetkit.Proofs.RoomFeed
import Meetkit.Proofs.Runs

/-! What the meeting page shows of the others. The tiles follow the messages: no member is
without its tile whatever the pulls do, and as long as no pull touches a tile that is gone
there is no other tile. Together with what the server sends, the page shows the room. -/

namespace Meetkit

namespace PeerTiles

variable {s s' : PeerTiles} {u u' : UserID} {kind kind' : Kind} {nickname : String}
  {r : PeerRef} {v : View}

/-! ### Being let in -/

section Joined

/-- A stream that is held or pulled has its tile. -/
structure Marked (s : PeerTiles) : Prop where
  sound : s.page.Sound
  busy : ∀ u r kind, s.page.peers.lookup u = some r →
    ((s.page.entry r).pc kind).isSome = true ∨ (s.page.entry r).pulling kind = true →
      s.tile u kind ≠ none

theorem entry_startPulling {page : MeetingPage} (hu : page.peers.lookup u = some r) {r' : PeerRef}
    (hne : ¬(r' = r ∧ kind' = kind)) (preemptive : Bool) :
    ((page.startPullingPeerStream u kind preemptive false).entry r').pc kind' =
        (page.entry r').pc kind' ∧
      ((page.startPullingPeerStream u kind preemptive false).entry r').pulling kind' =
        (page.entry r').pulling kind' := by
  have hbump : (page.bumpPullGen r kind).peers.lookup u = some r := hu
  unfold MeetingPage.startPullingPeerStream
  rw [MeetingPage.ensurePeer_of_lookup hu]
  dsimp only
  simp only [Bool.false_eq_true, if_false]
  split_ifs
  · exact ⟨rfl, rfl⟩
  · exact ⟨rfl, rfl⟩
  · unfold MeetingPage.setPulling
    rw [MeetingPage.entry_modifyEntry, MeetingPage.entry_pull hbump, MeetingPage.bumpPullGen, MeetingPage.entry_modifyEntry,
      MeetingPage.entry_modifyEntry, if_pos rfl]
    by_cases hr : r' = r
    · have hkind : kind' ≠ kind := fun hk => hne ⟨hr, hk⟩
      subst hr
      simp [Function.update_of_ne hkind]
    · simp [hr]

theorem Marked.placeholder (h : Marked s) (u : UserID) (nickname : String) (micOn camOn : Bool) :
    Marked (s.ensurePeerPlaceholderTile u nickname (some (micOn, camOn))) := by
  have htile : ∀ u' kind', s.tile u' kind' ≠ none →
      (s.ensurePeerPlaceholderTile u nickname (some (micOn, camOn))).tile u' kind' ≠ none := by
    intro u' kind' ht
    rw [placeholder_tile]
    split_ifs
    · exact Option.some_ne_none _
    · exact ht
  refine ⟨?_, fun u' r kind' hl hbusy => ?_⟩
  · rw [placeholder_page]
    exact (MeetingPage.Harmless.ensurePeer h.sound u).sound
  · rw [placeholder_page] at hl hbusy
    cases hu : s.page.peers.lookup u with
    | some r0 =>
      rw [ensurePeer_listed hu] at hl hbusy
      exact htile u' kind' (h.busy u' r kind' hl hbusy)
    | none =>
      rw [MeetingPage.ensurePeer_of_none hu] at hl hbusy
      rcases MeetingPage.lookup_addPeer hl with ⟨-, rfl⟩ | ⟨-, hl'⟩
      · -- the new entry holds nothing
        simp [MeetingPage.addPeer] at hbusy
      · rw [MeetingPage.entry_addPeer (h.sound.peerFresh hl')] at hbusy
        exact htile u' kind' (h.busy u' r kind' hl' hbusy)

theorem Marked.note (h : Marked s) (hu : s.page.peers.lookup u = some r) (kind : Kind) :
    Marked (s.notePeerStreamKind u kind) ∧
      (s.notePeerStreamKind u kind).page.peers.lookup u = some r := by
  unfold PeerTiles.notePeerStreamKind
  split_ifs with hkind
  · exact ⟨h, hu⟩
  · have hsame := MeetingPage.sameList_note s.page u kind hkind
    rw [ensurePeer_listed hu] at hsame
    have hentry : ∀ r', ((s.page.notePeerStreamKind u kind).entry r').pc = (s.page.entry r').pc ∧
        ((s.page.notePeerStreamKind u kind).entry r').pulling = (s.page.entry r').pulling := by
      intro r'
      unfold MeetingPage.notePeerStreamKind
      rw [if_neg hkind, MeetingPage.ensurePeer_of_lookup hu]
      dsimp only
      rw [MeetingPage.entry_modifyEntry]
      by_cases hr : r' = r
      · rw [if_pos hr, hr]
        exact ⟨rfl, rfl⟩
      · rw [if_neg hr]
        exact ⟨rfl, rfl⟩
    refine ⟨⟨(MeetingPage.Harmless.notePeerStreamKind h.sound u kind).sound,
      fun u' r' kind' hl hbusy => ?_⟩, ?_⟩
    · change (s.page.notePeerStreamKind u kind).peers.lookup u' = some r' at hl
      change (((s.page.notePeerStreamKind u kind).entry r').pc kind').isSome = true ∨
        ((s.page.notePeerStreamKind u kind).entry r').pulling kind' = true at hbusy
      rw [(hentry r').1, (hentry r').2] at hbusy
      change (s.ensurePeer u "").tile u' kind' ≠ none
      rw [ensurePeer_tile]
      exact h.busy u' r' kind' (hsame.1 ▸ hl) hbusy
    · change (s.page.notePeerStreamKind u kind).peers.lookup u = some r
      rw [hsame.1]
      exact hu

/-- The first pull of a stream leaves a tile, or finds one. -/
theorem Marked.pull (h : Marked s) (hu : s.page.peers.lookup u = some r) (nickname : String)
    (kind : Kind) (preemptive : Bool) :
    Marked (s.startPullingPeerStream u nickname kind preemptive false) ∧
      (s.startPullingPeerStream u nickname kind preemptive false).tile u kind ≠ none ∧
        (s.startPullingPeerStream u nickname kind preemptive false).page.peers.lookup u = some r := by
  have hgrows := Grows.startPulling s u nickname kind preemptive false
  have hensured := MeetingPage.ensurePeer_of_lookup hu
  have hpage := startPulling_page s u nickname kind preemptive false
  have hsame := MeetingPage.sameList_startPulling s.page u kind preemptive false
  rw [ensurePeer_listed hu] at hsame
  have htile : (s.startPullingPeerStream u nickname kind preemptive false).tile u kind ≠ none := by
    rcases startPulling_tile s u nickname kind preemptive false with ⟨-, hbusy, hres⟩ | ⟨hres, -⟩
    · rw [hensured] at hbusy
      rw [hres, ensurePeer_tile]
      exact h.busy u r kind hu hbusy
    · rw [hres, upsertTile_tile, if_pos ⟨rfl, rfl⟩]
      exact Option.some_ne_none _
  refine ⟨⟨?_, fun u' r' kind' hl hbusy => ?_⟩, htile, ?_⟩
  · rw [hpage]
    exact (MeetingPage.Harmless.startPullingPeerStream h.sound u kind preemptive false).sound
  · rw [hpage] at hl hbusy
    rw [hsame.1] at hl
    by_cases hne : r' = r ∧ kind' = kind
    · obtain ⟨rfl, rfl⟩ := hne
      rw [h.sound.peerInj hl hu]
      exact htile
    · rw [(entry_startPulling hu hne preemptive).1, (entry_startPulling hu hne preemptive).2] at hbusy
      exact hgrows.some (h.busy u' r' kind' hl hbusy)
  · rw [hpage, hsame.1]
    exact hu

end Joined

end PeerTiles

namespace View

/-- A peer of the snapshot, as if it had joined and published. -/
def addPeer (v : View) (peer : PeerInfo) : View :=
  peer.streams.foldl (fun v stream => v.setStream peer.userID stream.kind (some stream.streamID))
    (v.setPeer peer.userID (some peer.card))

theorem addPeer_peers (v : View) (peer : PeerInfo) (u : UserID) :
    (v.addPeer peer).peers u = if u = peer.userID then some peer.card else v.peers u := by
  have hfold : ∀ (l : List StreamInfo) (v : View), (l.foldl (fun v stream =>
      v.setStream peer.userID stream.kind (some stream.streamID)) v).peers = v.peers := by
    intro l
    induction l with
    | nil => exact fun _ => rfl
    | cons a l ih => exact fun v => (ih _).trans rfl
  rw [addPeer, hfold, setPeer_peers]

theorem addPeer_streams (v : View) (peer : PeerInfo) (hkinds : (peer.streams.map (·.kind)).Nodup)
    (u : UserID) (kind : Kind) : (v.addPeer peer).streams u kind = if u = peer.userID then
      ((peer.streams.find? fun s => s.kind = kind).map (·.streamID)).or (v.streams u kind)
      else v.streams u kind := by
  have hfold : ∀ (l : List StreamInfo) (v : View), (l.map (·.kind)).Nodup → (l.foldl (fun v stream =>
      v.setStream peer.userID stream.kind (some stream.streamID)) v).streams u kind =
        if u = peer.userID then ((l.find? fun s => s.kind = kind).map (·.streamID)).or
          (v.streams u kind) else v.streams u kind := by
    intro l
    induction l with
    | nil =>
      intro v _
      simp
    | cons a l ih =>
      intro v hl
      rw [List.map_cons, List.nodup_cons] at hl
      rw [List.foldl_cons, ih _ hl.2, setStream_streams]
      by_cases hu : u = peer.userID
      · simp only [hu, if_true, true_and, List.find?_cons]
        by_cases hk : kind = a.kind
        · have hnone : (l.find? fun s => s.kind = kind) = none := by
            rw [List.find?_eq_none]
            intro x hx hxk
            rw [decide_eq_true_eq] at hxk
            exact hl.1 (List.mem_map.2 ⟨x, hx, hxk.trans hk⟩)
          rw [hnone, if_pos hk, decide_eq_true hk.symm]
          rfl
        · rw [if_neg hk, decide_eq_false (Ne.symm hk)]
      · rw [if_neg hu, if_neg hu, if_neg fun h => hu h.1]
  rw [addPeer, hfold _ _ hkinds]
  rfl

/-- A snapshot is its peers one after another. -/
theorem snapshot_eq_foldl {peers : List PeerInfo} (hids : (peers.map (·.userID)).Nodup)
    (hkinds : ∀ peer ∈ peers, (peer.streams.map (·.kind)).Nodup) :
    peers.foldl addPeer {} = snapshot peers := by
  have hfold : ∀ (l : List PeerInfo) (v : View), (l.map (·.userID)).Nodup →
      (∀ peer ∈ l, (peer.streams.map (·.kind)).Nodup) → ∀ u,
        (l.foldl addPeer v).peers u = ((snapshot l).peers u).or (v.peers u) ∧
        ∀ kind, (l.foldl addPeer v).streams u kind =
          ((snapshot l).streams u kind).or (v.streams u kind) := by
    intro l
    induction l with
    | nil => exact fun v _ _ u => ⟨rfl, fun _ => rfl⟩
    | cons a l ih =>
      intro v hl hk u
      rw [List.map_cons, List.nodup_cons] at hl
      obtain ⟨hpeers, hstreams⟩ := ih (v.addPeer a) hl.2 (fun p hp => hk p (by simp [hp])) u
      have hka := hk a (by simp)
      by_cases hu : u = a.userID
      · have hnone : (l.find? fun p => p.userID = u) = none := by
          rw [List.find?_eq_none]
          intro x hx hxu
          rw [decide_eq_true_eq] at hxu
          exact hl.1 (List.mem_map.2 ⟨x, hx, hxu.trans hu⟩)
        have hfind : ((a :: l).find? fun p => p.userID = u) = some a := by
          rw [List.find?_cons, decide_eq_true hu.symm]
        refine ⟨?_, fun kind => ?_⟩
        · rw [List.foldl_cons, hpeers, addPeer_peers, if_pos hu]
          simp [snapshot, hnone, hfind]
        · rw [List.foldl_cons, hstreams kind, addPeer_streams v a hka, if_pos hu]
          simp [snapshot, hnone, hfind]
      · have hfind : ((a :: l).find? fun p => p.userID = u) = l.find? fun p => p.userID = u := by
          rw [List.find?_cons, decide_eq_false (Ne.symm hu)]
        refine ⟨?_, fun kind => ?_⟩
        · rw [List.foldl_cons, hpeers, addPeer_peers, if_neg hu]
          simp only [snapshot, hfind]
        · rw [List.foldl_cons, hstreams kind, addPeer_streams v a hka, if_neg hu]
          simp only [snapshot, hfind]
  obtain ⟨h1, h2⟩ : (peers.foldl addPeer {}).peers = (snapshot peers).peers ∧
      (peers.foldl addPeer {}).streams = (snapshot peers).streams := by
    refine ⟨funext fun u => ?_, funext fun u => funext fun kind => ?_⟩
    · rw [(hfold peers {} hids hkinds u).1, Option.or_none]
    · rw [(hfold peers {} hids hkinds u).2, Option.or_none]
  generalize peers.foldl addPeer {} = v at h1 h2
  cases v
  cases h1
  cases h2
  rfl

end View

namespace PeerTiles

variable {s s' : PeerTiles} {u : UserID} {kind : Kind} {r : PeerRef} {v : View}

theorem Shown.joinedPeer (h : Shown s v) (hm : Marked s) (peer : PeerInfo) :
    Shown (s.joinedPeer peer) (v.addPeer peer) ∧ Marked (s.joinedPeer peer) := by
  have hfold : ∀ (l : List StreamInfo) (s : PeerTiles) (v : View) (r : PeerRef), Shown s v → Marked s →
      s.page.peers.lookup peer.userID = some r →
        Shown (l.foldl (fun s stream => (s.notePeerStreamKind peer.userID stream.kind
          ).startPullingPeerStream peer.userID peer.nickname stream.kind true false) s)
          (l.foldl (fun v stream => v.setStream peer.userID stream.kind (some stream.streamID)) v) ∧
        Marked (l.foldl (fun s stream => (s.notePeerStreamKind peer.userID stream.kind
          ).startPullingPeerStream peer.userID peer.nickname stream.kind true false) s) := by
    intro l
    induction l with
    | nil => exact fun _ _ _ h hm _ => ⟨h, hm⟩
    | cons a l ih =>
      intro s v r h hm hl
      obtain ⟨hm1, hl1⟩ := hm.note hl a.kind
      obtain ⟨hm2, ht, hl2⟩ := hm1.pull hl1 peer.nickname a.kind true
      have h2 := (h.grows ((Grows.notePeerStreamKind s peer.userID a.kind).trans
        (.startPulling _ peer.userID peer.nickname a.kind true false))).setStream ht (some a.streamID)
      exact ih _ _ r h2 hm2 hl2
  refine hfold peer.streams _ _ (s.page.ensurePeer peer.userID).2
    (h.placeholder peer.userID peer.nickname peer.card)
    (hm.placeholder _ _ _ _) ?_
  rw [placeholder_page]
  exact MeetingPage.lookup_ensurePeer s.page peer.userID

theorem Neat.joinedPeer (h : Neat s v) (peer : PeerInfo) (hu : v.peers peer.userID = none) :
    Neat (s.joinedPeer peer) (v.addPeer peer) := by
  have hfold : ∀ (l : List StreamInfo) (s : PeerTiles) (v : View) (r : PeerRef), Neat s v →
      s.page.peers.lookup peer.userID = some r → v.peers peer.userID ≠ none →
        (peer.nickname = "" ∨ peer.nickname = s.nickname r) →
        Neat (l.foldl (fun s stream => (s.notePeerStreamKind peer.userID stream.kind
          ).startPullingPeerStream peer.userID peer.nickname stream.kind true false) s)
          (l.foldl (fun v stream => v.setStream peer.userID stream.kind (some stream.streamID)) v) := by
    intro l
    induction l with
    | nil => exact fun _ _ _ h _ _ _ => h
    | cons a l ih =>
      intro s v r h hl hv hname
      have hon : (v.setStream peer.userID a.kind (some a.streamID)).streams peer.userID a.kind ≠ none := by
        rw [View.setStream_streams, if_pos ⟨rfl, rfl⟩]
        exact Option.some_ne_none _
      obtain ⟨h1, hl1, hnick⟩ := (h.know hv a.kind a.streamID).note hl a.kind
      have h2 := h1.pull hl1 (hnick ▸ hname) (Or.inr hon) true false
      refine ih _ _ r h2 ?_ hv ?_
      · rw [startPulling_page, (MeetingPage.sameList_startPulling _ _ _ _ _).1,
          ensurePeer_listed hl1]
        exact hl1
      · dsimp only
        rcases startPulling_tile (s.notePeerStreamKind peer.userID a.kind) peer.userID peer.nickname
          a.kind true false with ⟨-, -, hres⟩ | ⟨-, hres, -⟩
        · rw [hres, ensurePeer_known hl1 (hnick ▸ hname), hnick]
          exact hname
        · rw [hres, ensurePeer_known hl1 (hnick ▸ hname), hnick]
          exact hname
  have h1 := h.joined hu peer.card
  have hl : (s.ensurePeerPlaceholderTile peer.userID peer.nickname
      (some (peer.micOn, peer.camOn))).page.peers.lookup peer.userID =
        some (s.page.ensurePeer peer.userID).2 := by
    rw [placeholder_page]
    exact MeetingPage.lookup_ensurePeer s.page peer.userID
  have hself : (v.setPeer peer.userID (some peer.card)).peers peer.userID = some peer.card := by
    rw [View.setPeer_peers, if_pos rfl]
  refine hfold peer.streams _ _ _ h1 hl (by rw [hself]; exact Option.some_ne_none _) ?_
  rw [or_iff_not_imp_left]
  intro hne
  have hname := h1.name peer.userID _ peer.card hl hself
  rw [memberName] at hname
  exact (if_neg hne).symm.trans hname.symm

theorem Shown.joined (p : JoinedPayload) (hpage : s.page = {}) (hids : (p.peers.map (·.userID)).Nodup)
    (hkinds : ∀ peer ∈ p.peers, (peer.streams.map (·.kind)).Nodup) :
    Shown (s.joined p) (View.snapshot p.peers) := by
  have hfold : ∀ (l : List PeerInfo) (s : PeerTiles) (v : View), Shown s v → Marked s →
      Shown (l.foldl PeerTiles.joinedPeer s) (l.foldl View.addPeer v) := by
    intro l
    induction l with
    | nil => exact fun _ _ h _ => h
    | cons a l ih =>
      intro s v h hm
      obtain ⟨h1, hm1⟩ := h.joinedPeer hm a
      exact ih _ _ h1 hm1
  rw [← View.snapshot_eq_foldl hids hkinds]
  refine hfold _ _ _ ⟨fun u hu => absurd rfl hu, fun u card hu => ?_, fun u kind hk => absurd rfl hk⟩
    ⟨?_, fun u r kind hl => ?_⟩
  · cases hu
  · change s.page.Sound
    rw [hpage]
    exact Meeting.sound_init
  · change s.page.peers.lookup u = some r at hl
    rw [hpage] at hl
    cases hl

theorem Neat.letIn (h : Neat s {}) (p : JoinedPayload) (hids : (p.peers.map (·.userID)).Nodup)
    (hkinds : ∀ peer ∈ p.peers, (peer.streams.map (·.kind)).Nodup) :
    Neat (s.joined p) (View.snapshot p.peers) := by
  have hfold : ∀ (l : List PeerInfo) (s : PeerTiles) (v : View), Neat s v →
      (l.map (·.userID)).Nodup → (∀ peer ∈ l, v.peers peer.userID = none) →
        Neat (l.foldl PeerTiles.joinedPeer s) (l.foldl View.addPeer v) := by
    intro l
    induction l with
    | nil => exact fun _ _ h _ _ => h
    | cons a l ih =>
      intro s v h hl hnone
      rw [List.map_cons, List.nodup_cons] at hl
      refine ih _ _ (h.joinedPeer a (hnone a (by simp))) hl.2 fun b hb => ?_
      have hne : b.userID ≠ a.userID := by
        intro he
        exact hl.1 (List.mem_map.2 ⟨b, hb, he⟩)
      rw [View.addPeer_peers, if_neg hne]
      exact hnone b (by simp [hb])
  rw [← View.snapshot_eq_foldl hids hkinds]
  refine hfold _ _ _ ?_ hids fun _ _ => rfl
  exact ⟨h.sound, h.listed, h.stream, h.name, h.pullName, h.unused, h.tile⟩

/-! ### Pulling everybody again -/

theorem expectedKinds_modifyEntry {page : MeetingPage} {g : PeerEntry → PeerEntry}
    (hg : ∀ e, (g e).expectedKinds = e.expectedKinds) (r r' : PeerRef) :
    ((page.modifyEntry r g).entry r').expectedKinds = (page.entry r').expectedKinds := by
  unfold MeetingPage.modifyEntry
  dsimp only
  rw [Function.update_apply]
  split_ifs with hr
  · rw [hg, hr]
  · rfl

/-- A pull leaves what its peer is expected to stream. -/
theorem retryKinds_startPulling {page : MeetingPage} (hu : page.peers.lookup u = some r)
    (preemptive force : Bool) (r' : PeerRef) :
    retryKinds (page.startPullingPeerStream u kind preemptive force) r' = retryKinds page r' := by
  have hkinds : ∀ page' : MeetingPage,
      (page'.entry r').expectedKinds = (page.entry r').expectedKinds →
        retryKinds page' r' = retryKinds page r' := by
    intro page' he
    unfold retryKinds
    rw [he]
  refine hkinds _ ?_
  have hforce : ∃ page1, (if force then (page.stopPeerPull r kind).setPulling r kind false else page) =
      page1 ∧ page1.peers.lookup u = some r ∧
        (page1.entry r').expectedKinds = (page.entry r').expectedKinds := by
    refine ⟨_, rfl, ?_⟩
    split_ifs
    · refine ⟨?_, ?_⟩
      · change (page.stopPeerPull r kind).peers.lookup u = some r
        rw [(MeetingPage.sameList_stopPeerPull page r kind).1]
        exact hu
      · refine (expectedKinds_modifyEntry (by intro _; rfl) _ _).trans ?_
        unfold MeetingPage.stopPeerPull
        split
        · exact expectedKinds_modifyEntry (by intro _; rfl) _ _
        · rfl
    · exact ⟨hu, rfl⟩
  obtain ⟨page1, heq, hu1, he⟩ := hforce
  unfold MeetingPage.startPullingPeerStream
  rw [MeetingPage.ensurePeer_of_lookup hu]
  dsimp only
  rw [heq]
  split_ifs
  · exact he
  · exact he
  · refine (expectedKinds_modifyEntry (by intro _; rfl) _ _).trans (Eq.trans ?_ he)
    have hbump : (page1.bumpPullGen r kind).peers.lookup u = some r := hu1
    rw [MeetingPage.entry_pull hbump]
    exact expectedKinds_modifyEntry (by intro _; rfl) _ _

/-- Every stream that is pulled again may have its tile. -/
def Retriable (page : MeetingPage) (v : View) : Prop :=
  ∀ u r, page.peers.lookup u = some r → ∀ kind ∈ retryKinds page r,
    kind = "cam" ∨ v.streams u kind ≠ none

theorem Retriable.startPulling {page : MeetingPage} (h : Retriable page v)
    (hu : page.peers.lookup u = some r) (preemptive force : Bool) :
    Retriable (page.startPullingPeerStream u kind preemptive force) v := by
  intro u' r' hu' kind' hkind'
  have hsame := (MeetingPage.sameList_startPulling page u kind preemptive force).1
  rw [MeetingPage.ensurePeer_of_lookup hu] at hsame
  rw [hsame] at hu'
  rw [retryKinds_startPulling hu] at hkind'
  exact h u' r' hu' kind' hkind'

/-- The streams of one peer are pulled again. -/
theorem Neat.retryPeer (hu : s.page.peers.lookup u = some r) (h : Neat s v)
    (hk : Retriable s.page v) (l : List Kind) (hl : ∀ kind ∈ l, kind = "cam" ∨ v.streams u kind ≠ none) :
    let s' := l.foldl (fun s kind => s.startPullingPeerStream u (s.nickname r) kind true true) s
    Neat s' v ∧ Retriable s'.page v ∧ s'.page.peers = s.page.peers := by
  induction l generalizing s with
  | nil => exact ⟨h, hk, rfl⟩
  | cons kind l ih =>
    have hsame : (s.startPullingPeerStream u (s.nickname r) kind true true).page.peers =
        s.page.peers := by
      rw [startPulling_page, (MeetingPage.sameList_startPulling _ _ _ _ _).1,
        MeetingPage.ensurePeer_of_lookup hu]
    have hk1 : Retriable (s.startPullingPeerStream u (s.nickname r) kind true true).page v := by
      rw [startPulling_page]
      exact hk.startPulling hu true true
    obtain ⟨h2, hk2, hpeers⟩ := ih (by rw [hsame]; exact hu)
      (h.pull hu (Or.inr rfl) (hl kind (by simp)) true true) hk1
      fun kind' hkind' => hl kind' (by simp [hkind'])
    exact ⟨h2, hk2, hpeers.trans hsame⟩

theorem Neat.retry (h : Neat s v) (hk : Retriable s.page v) : Neat s.retryExistingPeerPulls v := by
  have hfold : ∀ (l : List (Sigma fun _ : UserID => PeerRef)) (s : PeerTiles), Neat s v →
      Retriable s.page v → (∀ e ∈ l, s.page.peers.lookup e.1 = some e.2) →
        Neat (l.foldl (fun s e => (retryKinds s.page e.2).foldl (fun s kind =>
          s.startPullingPeerStream e.1 (s.nickname e.2) kind true true) s) s) v := by
    intro l
    induction l with
    | nil => exact fun _ h _ _ => h
    | cons e l ih =>
      intro s h hk hl
      obtain ⟨h1, hk1, hpeers⟩ := Neat.retryPeer (hl e (by simp)) h hk _
        (hk e.1 e.2 (hl e (by simp)))
      refine ih _ h1 hk1 fun e' he' => ?_
      rw [hpeers]
      exact hl e' (by simp [he'])
  refine hfold _ s h hk fun e he => ?_
  exact AList.mem_lookup_iff.2 (List.mem_reverse.1 he)

/-! ### The pulls beside the tiles -/

theorem note_page (s : PeerTiles) (u : UserID) (kind : Kind) :
    (s.notePeerStreamKind u kind).page = s.page.notePeerStreamKind u kind := by
  unfold PeerTiles.notePeerStreamKind
  split_ifs with hkind
  · rw [MeetingPage.notePeerStreamKind, if_pos hkind]
  · rfl

theorem joined_page (s : PeerTiles) (p : JoinedPayload) : (s.joined p).page = s.page.joined
    (p.peers.map fun peer => (peer.userID, peer.streams.map (·.kind))) := by
  have hpeer : ∀ (l : List StreamInfo) (s : PeerTiles) (peer : PeerInfo),
      (l.foldl (fun s stream => (s.notePeerStreamKind peer.userID stream.kind
        ).startPullingPeerStream peer.userID peer.nickname stream.kind true false) s).page =
      l.foldl (fun page stream => (page.notePeerStreamKind peer.userID stream.kind
        ).startPullingPeerStream peer.userID stream.kind true false) s.page := by
    intro l
    induction l with
    | nil => exact fun _ _ => rfl
    | cons a l ih =>
      intro s peer
      rw [List.foldl_cons, ih, startPulling_page, note_page]
      rfl
  have hfold : ∀ (l : List PeerInfo) (s : PeerTiles), (l.foldl PeerTiles.joinedPeer s).page =
      s.page.joined (l.map fun peer => (peer.userID, peer.streams.map (·.kind))) := by
    intro l
    induction l with
    | nil => exact fun _ => rfl
    | cons a l ih =>
      intro s
      have hstreams : (s.joinedPeer a).page = (a.streams.map (·.kind)).foldl (fun page kind =>
          (page.notePeerStreamKind a.userID kind).startPullingPeerStream a.userID kind true false)
          (s.page.ensurePeer a.userID).1 := by
        rw [PeerTiles.joinedPeer, hpeer, placeholder_page, List.foldl_map]
      rw [List.foldl_cons, ih, hstreams]
      rfl
  exact hfold p.peers _

theorem stopped_page (s : PeerTiles) (p : PeerStreamPayload) :
    (s.peerStreamStopped p).page = s.page.peerStreamStopped p.userID p.kind := by
  unfold PeerTiles.peerStreamStopped
  dsimp only
  split_ifs with hcam
  · rw [Bool.and_eq_true, Option.isSome_iff_exists] at hcam
    obtain ⟨-, r, hl⟩ := hcam
    rw [← (sameList_peerStreamStopped s.page p.userID p.kind).1] at hl
    exact (placeholder_page _ _ _ _).trans (ensurePeer_listed hl)
  · rfl

theorem connectionFailed_page (s : PeerTiles) (pc : PC) :
    (s.connectionFailed pc).page = s.page.connectionFailed pc := by
  unfold PeerTiles.connectionFailed MeetingPage.connectionFailed
  cases s.page.conn pc with
  | none => rfl
  | some c =>
    dsimp only
    rw [apply_ite PeerTiles.page, apply_ite PeerTiles.page, apply_ite PeerTiles.page,
      apply_ite PeerTiles.page, startPulling_page]
    rfl

theorem retry_page (s : PeerTiles) :
    s.retryExistingPeerPulls.page = s.page.retryExistingPeerPulls := by
  have hkinds : ∀ (l : List Kind) (u : UserID) (r : PeerRef) (s : PeerTiles), (l.foldl (fun s kind =>
      s.startPullingPeerStream u (s.nickname r) kind true true) s).page =
        l.foldl (fun page kind => page.startPullingPeerStream u kind true true) s.page := by
    intro l u r
    induction l with
    | nil => exact fun _ => rfl
    | cons a l ih =>
      intro s
      rw [List.foldl_cons, ih, startPulling_page]
      rfl
  have hfold : ∀ (l : List (Sigma fun _ : UserID => PeerRef)) (s : PeerTiles), (l.foldl (fun s e =>
      (retryKinds s.page e.2).foldl (fun s kind =>
        s.startPullingPeerStream e.1 (s.nickname e.2) kind true true) s) s).page =
      l.foldl (fun page e => (retryKinds page e.2).foldl
        (fun page kind => page.startPullingPeerStream e.1 kind true true) page) s.page := by
    intro l
    induction l with
    | nil => exact fun _ => rfl
    | cons a l ih =>
      intro s
      rw [List.foldl_cons, ih, hkinds]
      rfl
  exact hfold _ s

/-- The pulls do with their tiles what they do without. -/
theorem step_page (s : PeerTiles) (e : TileEvent) : (s.step e).page = match e.label with
    | some l => s.page.step l
    | none => s.page := by
  cases e with
  | message m =>
    cases m with
    | joined p => exact joined_page s p
    | peerJoined p => exact placeholder_page _ _ _ _
    | peerLeft u => rfl
    | peerState p => exact placeholder_page _ _ _ _
    | peerStreamStarted p =>
      refine (startPulling_page _ _ _ _ _ _).trans ?_
      rw [ensurePeer_page, note_page]
      rfl
    | peerStreamStopped p => exact stopped_page s p
    | recordState p =>
      change (s.recordState p).page = s.page
      unfold PeerTiles.recordState
      split_ifs <;> rfl
    | _ => rfl
  | track pc stream =>
    change (s.track pc stream).page = s.page
    unfold PeerTiles.track
    cases s.page.conn pc with
    | none => rfl
    | some c =>
      dsimp only
      split_ifs <;> rfl
  | connectionFailed pc => exact connectionFailed_page s pc
  | retryExistingPeerPulls => exact retry_page s
  | _ => rfl

theorem Sound.step_tiles (h : s.page.Sound) (e : TileEvent) : (s.step e).page.Sound := by
  rw [step_page]
  split
  · exact h.step _
  · exact h

/-! ### Pulls in time -/

/-- The connection's pull is the last one for its stream. -/
def Current (s : PeerTiles) (c : Conn) : Prop :=
  c.closed = false ∧ (s.page.entry c.peer).pullGen c.kind = c.pullGen

/-- No pull and no `record-state` touches a tile that is gone. -/
def Timely (s : PeerTiles) : TileEvent → Prop
  | .track pc _ => ∀ c ∈ s.page.conn pc, Current s c → s.tile c.userId c.kind ≠ none
  | .connectionFailed pc => ∀ c ∈ s.page.conn pc, Current s c →
      s.page.peers.lookup c.userId = some c.peer ∧ s.tile c.userId c.kind ≠ none
  | .retryExistingPeerPulls => ∀ e ∈ s.page.peers.entries, ∀ kind ∈ retryKinds s.page e.2,
      s.tile e.1 kind ≠ none
  | .message (.recordState q) => s.myUserId = some q.userID ∨ s.tile q.userID q.kind ≠ none
  | _ => True

instance (s : PeerTiles) (c : Conn) : Decidable (Current s c) := inferInstanceAs (Decidable (_ ∧ _))

instance (s : PeerTiles) : (e : TileEvent) → Decidable (Timely s e)
  | .track pc _ => inferInstanceAs
    (Decidable (∀ c ∈ s.page.conn pc, Current s c → s.tile c.userId c.kind ≠ none))
  | .connectionFailed pc => inferInstanceAs (Decidable (∀ c ∈ s.page.conn pc, Current s c →
      s.page.peers.lookup c.userId = some c.peer ∧ s.tile c.userId c.kind ≠ none))
  | .retryExistingPeerPulls => inferInstanceAs (Decidable (∀ e ∈ s.page.peers.entries,
      ∀ kind ∈ retryKinds s.page e.2, s.tile e.1 kind ≠ none))
  | .message (.recordState q) => inferInstanceAs
    (Decidable (s.myUserId = some q.userID ∨ s.tile q.userID q.kind ≠ none))
  | .message (.joined _) | .message (.peerJoined _) | .message (.peerLeft _)
  | .message (.peerState _) | .message (.webrtcAnswer _) | .message (.peerStreamStarted _)
  | .message (.peerStreamStopped _) | .message (.observeJoined _) | .message (.observeEnded _)
  | .message (.adminKicked _) | .message (.chat _) | .message (.error _)
  | .played _ | .playFailed _ | .slept _ | .settled _ => isTrue trivial

theorem Neat.on (h : Neat s v)
    (ht : s.tile u kind ≠ none) : kind = "cam" ∨ v.streams u kind ≠ none := by
  obtain ⟨t, ht⟩ := Option.ne_none_iff_exists'.1 ht
  obtain ⟨-, -, hk, -⟩ := h.tile u kind t ht
  exact hk

theorem Neat.pulled {e : TileEvent} (h : Neat s v) (he : ∀ m, e ≠ .message m)
    (htimely : Timely s e) : Neat (s.step e) v := by
  cases e with
  | message m => exact absurd rfl (he m)
  | track pc stream =>
    change Neat (s.track pc stream) v
    unfold PeerTiles.track
    cases hc : s.page.conn pc with
    | none => exact h
    | some c =>
      dsimp only
      split_ifs with hclosed hgen
      · exact h
      · exact h
      · exact h.touchTile (htimely c hc ⟨by simpa using hclosed, not_not.1 hgen⟩) rfl
  | connectionFailed pc =>
    change Neat (s.connectionFailed pc) v
    rcases connectionFailed_cases s pc with heq |
      ⟨c, page, hc, hclosed, hgen, hpage, hsound, hcase⟩
    · rw [heq]
      exact h
    · obtain ⟨hl, ht⟩ := htimely c hc ⟨hclosed, hgen⟩
      have h1 : Neat (s.setPage page) v := h.setPage hpage (hsound h.sound)
      rcases hcase with heq | heq
      · rw [heq]
        exact h1
      · rw [heq]
        refine h1.pull (r := c.peer) ?_ (h.pullName c.userId c.peer hl c.kind _) (h.on ht) true true
        change page.peers.lookup c.userId = some c.peer
        rw [hpage.1]
        exact hl
  | retryExistingPeerPulls =>
    refine h.retry fun u r hu kind hkind => h.on ?_
    exact htimely ⟨u, r⟩ (AList.mem_lookup_iff.1 hu) kind hkind
  | played id => exact h.setPage (MeetingPage.sameList_played _ _) (Sound.step_tiles h.sound (.played id))
  | playFailed id =>
    exact h.setPage (MeetingPage.sameList_playFailed _ _) (Sound.step_tiles h.sound (.playFailed id))
  | slept id => exact h.setPage (MeetingPage.sameList_slept _ _) (Sound.step_tiles h.sound (.slept id))
  | settled id =>
    exact h.setPage (MeetingPage.sameList_settled _ _) (Sound.step_tiles h.sound (.settled id))

end PeerTiles

/-! ### Over a run -/

/-- The tiles, with what the messages said so far. -/
structure TilePage where
  tiles : PeerTiles := {}
  feed : Feed := {}

def tilePage : Machine TilePage TileEvent where
  init := {}
  step p e :=
    { tiles := p.tiles.step e
      feed := match e with
        | .message m => p.feed.next m
        | _ => p.feed }

namespace TilePage

open PeerTiles

variable {self : UserID} {p : TilePage} {e : TileEvent}

/-- A message fits what `self` was told before. -/
def Fitting (self : UserID) (p : TilePage) : TileEvent → Prop
  | .message m => p.feed.Fits self m
  | _ => True

/-- What the messages said of the room is shown. -/
structure Following (p : TilePage) : Prop where
  sound : p.tiles.page.Sound
  blank : p.feed.joined = false → p.tiles.page = {} ∧ p.feed.view = {}
  shown : Shown p.tiles p.feed.view

/-- Before anybody is known a pull has nothing to do. -/
theorem blank_step {s : PeerTiles} (hs : s.page = {}) (he : ∀ m, e ≠ .message m) :
    (s.step e).page = {} := by
  rw [step_page, hs]
  cases e with
  | message m => exact absurd rfl (he m)
  | _ => rfl

theorem grows_of_pull {s : PeerTiles} (he : ∀ m, e ≠ .message m) : Grows s (s.step e) := by
  cases e with
  | message m => exact absurd rfl (he m)
  | track pc stream => exact .track s pc stream
  | connectionFailed pc => exact .connectionFailed s pc
  | retryExistingPeerPulls => exact .retry s
  | played id => exact .setPage (MeetingPage.sameList_played _ _)
  | playFailed id => exact .setPage (MeetingPage.sameList_playFailed _ _)
  | slept id => exact .setPage (MeetingPage.sameList_slept _ _)
  | settled id => exact .setPage (MeetingPage.sameList_settled _ _)

theorem feed_of_pull (he : ∀ m, e ≠ .message m) : (tilePage.step p e).feed = p.feed := by
  cases e with
  | message m => exact absurd rfl (he m)
  | _ => rfl

theorem Following.pulled (h : p.Following) (he : ∀ m, e ≠ .message m) :
    (tilePage.step p e).Following where
  sound := Sound.step_tiles h.sound e
  blank hj := by
    rw [feed_of_pull he] at hj ⊢
    exact ⟨blank_step (h.blank hj).1 he, (h.blank hj).2⟩
  shown := by
    rw [feed_of_pull he]
    exact h.shown.grows (grows_of_pull he)

theorem Following.step (hfit : Fitting self p e) (h : p.Following) : (tilePage.step p e).Following := by
  have hsound : (tilePage.step p e).tiles.page.Sound := Sound.step_tiles h.sound e
  cases e with
  | message m =>
    have hold : ∀ {m : ServerMsg}, p.feed.joined = true → (p.feed.next m).joined = true := by
      intro m hj
      cases m <;> first | rfl | exact hj
    cases m with
    | joined q =>
      obtain ⟨hno, -, hids, hkinds⟩ := hfit
      refine ⟨hsound, fun hj => (by cases hj), ?_⟩
      exact Shown.joined q (h.blank hno).1 hids hkinds
    | peerJoined q =>
      refine ⟨hsound, fun hj => absurd ((hold hfit.1).symm.trans hj) (by simp), ?_⟩
      exact h.shown.placeholder q.userID q.nickname ⟨q.nickname, q.micOn, q.camOn, q.clientPlatform⟩
    | peerLeft u =>
      refine ⟨hsound, fun hj => absurd ((hold hfit.1).symm.trans hj) (by simp), ?_⟩
      exact h.shown.left u hfit.2
    | peerState q =>
      refine ⟨hsound, fun hj => absurd ((hold hfit.1).symm.trans hj) (by simp), ?_⟩
      obtain ⟨card, hcard⟩ := Option.ne_none_iff_exists'.1 hfit.2
      have hview : p.feed.view.next (.peerState q) =
          p.feed.view.setPeer q.userID (some { card with micOn := q.micOn, camOn := q.camOn }) := by
        simp only [View.next, hcard, Option.map_some]
      change Shown _ (p.feed.view.next (.peerState q))
      rw [hview]
      exact h.shown.placeholder q.userID "" { card with micOn := q.micOn, camOn := q.camOn }
    | peerStreamStarted q =>
      refine ⟨hsound, fun hj => absurd ((hold hfit.1).symm.trans hj) (by simp), ?_⟩
      exact h.shown.started q
    | peerStreamStopped q =>
      refine ⟨hsound, fun hj => absurd ((hold hfit.1).symm.trans hj) (by simp), ?_⟩
      exact h.shown.stopped q hfit.2
    | observeJoined q => exact hfit.elim
    | recordState q =>
      refine ⟨hsound, fun hj => ⟨?_, (h.blank hj).2⟩, h.shown.grows ?_⟩
      · exact (step_page p.tiles (.message (.recordState q))).trans (h.blank hj).1
      · change Grows p.tiles (p.tiles.recordState q)
        unfold PeerTiles.recordState
        split_ifs
        · exact .refl _
        · exact .upsertTile _ _ _ _
    | _ => exact ⟨hsound, h.blank, h.shown⟩
  | _ => exact h.pulled (fun m hm => by cases hm)

/-- The page shows what the messages said, and nothing else. -/
structure Exact (p : TilePage) : Prop extends Following p where
  neat : Neat p.tiles p.feed.view

theorem Exact.step (hfit : Fitting self p e) (htimely : Timely p.tiles e) (h : p.Exact) :
    (tilePage.step p e).Exact := by
  refine ⟨h.toFollowing.step hfit, ?_⟩
  have hlisted : ∀ u, p.feed.view.peers u ≠ none → ∃ r, p.tiles.page.peers.lookup u = some r :=
    fun u hu => Option.ne_none_iff_exists'.1 (h.shown.listed u hu)
  cases e with
  | message m =>
    cases m with
    | joined q =>
      obtain ⟨hno, -, hids, hkinds⟩ := hfit
      refine Neat.letIn ?_ q hids hkinds
      rw [← (h.blank hno).2]
      exact h.neat
    | peerJoined q =>
      exact h.neat.joined hfit.2 ⟨q.nickname, q.micOn, q.camOn, q.clientPlatform⟩
    | peerLeft u => exact h.neat.left u hfit.2
    | peerState q =>
      obtain ⟨card, hcard⟩ := Option.ne_none_iff_exists'.1 hfit.2
      obtain ⟨r, hl⟩ := hlisted q.userID hfit.2
      have hview : p.feed.view.next (.peerState q) =
          p.feed.view.setPeer q.userID (some { card with micOn := q.micOn, camOn := q.camOn }) := by
        simp only [View.next, hcard, Option.map_some]
      have hplaced : Neat (p.tiles.ensurePeerPlaceholderTile q.userID "" (some (q.micOn, q.camOn)))
          p.feed.view := h.neat.placeholder hl (Or.inl rfl) _
      change Neat _ (p.feed.view.next (.peerState q))
      rw [hview]
      exact hplaced.recard hcard rfl
    | peerStreamStarted q =>
      obtain ⟨r, hl⟩ := hlisted q.userID hfit.2
      exact h.neat.started q hl hfit.2
    | peerStreamStopped q =>
      obtain ⟨r, hl⟩ := hlisted q.userID hfit.2
      exact h.neat.stopped q hl
    | observeJoined q => exact hfit.elim
    | recordState q =>
      change Neat (p.tiles.recordState q) p.feed.view
      unfold PeerTiles.recordState
      split_ifs with hself
      · exact h.neat
      · exact h.neat.touchTile (htimely.resolve_left hself) rfl
    | _ => exact h.neat
  | _ => exact h.neat.pulled (fun m hm => by cases hm) htimely

/-! ### A page and its server -/

/-- The messages among the events of a page. -/
def messages (es : List TileEvent) : List ServerMsg :=
  es.filterMap fun
    | .message m => some m
    | _ => none

theorem run_tiles (es : List TileEvent) : (tilePage.run es).tiles = peerTiles.run es :=
  Machine.run_proj TilePage.tiles rfl (fun _ _ => rfl) es

theorem run_feed (es : List TileEvent) : (tilePage.run es).feed = (messages es).foldl Feed.next {} := by
  induction es using List.reverseRecOn with
  | nil => rfl
  | append_singleton es e ih =>
    rw [Machine.run_snoc, messages, List.filterMap_append, List.foldl_append]
    change _ = List.foldl Feed.next ((messages es).foldl Feed.next {}) _
    rw [← ih]
    cases e <;> rfl

/-- A page that gets what the server sends is told what fits. -/
theorem guarded_fitting {w : World} {c : UserID} {es : List TileEvent} (hfed : w.Fed c)
    (hes : messages es = (inbox c w.log).map Prod.snd) : tilePage.Guarded (Fitting c) es := by
  refine Machine.guarded_of_splits fun pre e post hsplit => ?_
  cases e with
  | message m =>
    have hmessages : (inbox c w.log).map Prod.snd = messages pre ++ m :: messages post := by
      rw [← hes, hsplit, messages, List.filterMap_append]
      rfl
    obtain ⟨before, rest, hbox, hbefore, hrest⟩ := List.map_eq_append_iff.1 hmessages
    obtain ⟨m', after, rfl, rfl, -⟩ := List.map_eq_cons_iff.1 hrest
    have hfits := hfed before m' after hbox
    change (tilePage.run pre).feed.Fits c m'.2
    rw [run_feed, ← hbefore, List.foldl_map]
    exact hfits
  | _ => trivial

theorem exact_blank : tilePage.init.Exact := by
  refine ⟨⟨Meeting.sound_init, fun _ => ⟨rfl, rfl⟩, fun _ hu => absurd rfl hu,
    fun _ _ hu => (by cases hu), fun _ _ hk => absurd rfl hk⟩, Meeting.sound_init, ?_, ?_, ?_, ?_, ?_, ?_⟩
  · exact fun _ hu => absurd rfl hu
  · exact fun _ _ hk => absurd rfl hk
  · exact fun _ _ _ hu => by cases hu
  · exact fun _ _ hu => by cases hu
  · exact fun _ _ _ _ => rfl
  · exact fun _ _ _ ht => by cases ht

theorem following_of_fitting (self : UserID) {es : List TileEvent}
    (hg : tilePage.Guarded (Fitting self) es) : (tilePage.run es).Following :=
  Machine.guarded_invariant exact_blank.toFollowing (fun _ _ hfit h => h.step hfit) hg

theorem exact_of_timely (self : UserID) {es : List TileEvent} (hg : tilePage.Guarded (Fitting self) es)
    (htimely : peerTiles.Guarded Timely es) : (tilePage.run es).Exact := by
  refine Machine.guarded_invariant_of (G := fun p e => Fitting self p e ∧ Timely p.tiles e)
    (Q := fun _ => True) (fun _ => trivial) exact_blank (fun _ _ hi _ h => h.step hi.1 hi.2) ?_
  refine Machine.guarded_of_splits fun pre e post hsplit => ?_
  have hpre : pre ++ [e] <+: es := by
    refine ⟨post, ?_⟩
    rw [hsplit, List.append_assoc]
    rfl
  refine ⟨(Machine.guarded_snoc.1 (hg.of_prefix hpre)).2, ?_⟩
  rw [run_tiles]
  exact (Machine.guarded_snoc.1 (htimely.of_prefix hpre)).2

end TilePage

open PeerTiles TilePage

/-- The tile that a room has for a participant on the page of `c`: each other member's camera
and each of its streams that is on. -/
def Hub.Seen (h : Hub) (r : RoomRef) (c u : UserID) (kind : Kind) : Prop :=
  u ≠ c ∧ u ∈ h.members r ∧ (kind = "cam" ∨ ((h.client u).streams.lookup kind).isSome = true)

/-- Bob shares his screen with Alice, who was there first. -/
def sharing : List Input :=
  [.connect "alice", .join "alice" "1001", .connect "bob", .join "bob" "1001",
    .publish "bob" "cam", .publish "bob" "screen"]

/-- Her page gets the messages, and the pictures of both streams. -/
def watching : List TileEvent :=
  ((inbox "alice" ((server "").run sharing).log).map fun m => .message m.2) ++
    [.track 1 ⟨1, true⟩, .played 1, .settled 1, .track 0 ⟨0, true⟩, .connectionFailed 1]

/-- A picture that comes after its stream has stopped is shown. -/
example :
    let es : List TileEvent := [.message (.joined ⟨"alice", "1001",
      [⟨"bob", "Bob", true, true, "desktop", [⟨"screen", "1001_bob_screen"⟩]⟩]⟩),
      .message (.peerStreamStopped ⟨"bob", "screen", "1001_bob_screen"⟩), .track 0 ⟨0, true⟩]
    ¬peerTiles.Guarded Timely es ∧ ((peerTiles.run es).tile "bob" "screen").isSome = true := by
  decide +kernel

end Meetkit
