import Meetkit.Proofs.PullSteps

/-! Which runs of the meeting page leak a pull connection. A connection that comes back
to its pull is stored in the entry the pull has kept hold of, unless a newer pull was
started for it. Neither `peer-left` nor `peer-stream-stopped` starts one, so a pull that
they overtake stores its connection where nobody looks for it, or where none should be. -/

namespace Meetkit

open MeetingPage

namespace Meeting

variable {m : Meeting}

/-- What an entry holds is a stream that was not said to have stopped, of a user who was
not said to have left. -/
def Live (s : MeetingPage) (h : Heard) : Prop :=
  ∀ u r kind pc, s.peers.lookup u = some r → (s.entry r).pc kind = some pc →
    h.stream u kind ≠ some false ∧ h.member u ≠ some false

/-- No connection is leaked. -/
structure Clean (m : Meeting) : Prop where
  kept : m.page.Kept
  single : ∀ pc pc' c c', m.page.conn pc = some c → m.page.conn pc' = some c' →
    c.returned = true → c'.returned = true → c.closed = false → c'.closed = false →
    c.userId = c'.userId → c.kind = c'.kind → pc = pc'
  live : Live m.page m.heard

theorem clean_of (hkept : m.page.Kept) (hlive : Live m.page m.heard) : m.Clean where
  kept := hkept
  single pc pc' c c' hc hc' hret hret' hopen hopen' huser hkind := by
    obtain ⟨r, hu, hst⟩ := hkept pc c hc hret hopen
    obtain ⟨r', hu', hst'⟩ := hkept pc' c' hc' hret' hopen'
    rw [← huser, hu] at hu'
    rw [← Option.some.inj hu', ← hkind, hst] at hst'
    exact Option.some.inj hst'
  live := hlive

/-- A peer that leaves streams nothing but camera and screen, and a connection that
comes back to the newest pull for its entry and kind finds the entry in `state.peers`,
the stream not stopped and the user not left. -/
def Calm (m : Meeting) : MeetingLabel → Prop
  | .peerLeft userId => ∀ r kind, m.page.peers.lookup userId = some r →
      (m.page.entry r).pc kind ≠ none → kind = "cam" ∨ kind = "screen"
  | .played id => ∀ p pc, m.page.pull id = some p → p.phase = .playing pc →
      (m.page.entry p.peer).pullGen p.kind = p.pullGen →
      m.page.peers.lookup p.userId = some p.peer ∧
        m.heard.stream p.userId p.kind ≠ some false ∧ m.heard.member p.userId ≠ some false
  | _ => True

end Meeting

open Meeting

/-! ### What is heard -/

namespace Heard

variable {h h' : Heard}

/-- Nothing new is said to have stopped or left. -/
structure Better (h h' : Heard) : Prop where
  stream : ∀ u kind, h'.stream u kind = some false → h.stream u kind = some false
  member : ∀ u, h'.member u = some false → h.member u = some false

theorem Better.refl (h : Heard) : Better h h := ⟨fun _ _ hs => hs, fun _ hm => hm⟩

theorem Better.trans {h'' : Heard} (h1 : Better h h') (h2 : Better h' h'') : Better h h'' :=
  ⟨fun u kind hs => h1.stream u kind (h2.stream u kind hs),
    fun u hm => h1.member u (h2.member u hm)⟩

theorem Better.foldl {α : Type} {f : Heard → α → Heard} (hf : ∀ h a, Better h (f h a))
    (l : List α) : ∀ h, Better h (l.foldl f h) := by
  induction l with
  | nil => exact Better.refl
  | cons a l ih => exact fun h => (hf h a).trans (ih _)

theorem stream_hearStream {u u' : UserID} {kind kind' : Kind} {b : Bool} :
    (h.hearStream u kind b).stream u' kind' =
      if u' = u ∧ kind' = kind then some b else h.stream u' kind' := by
  rw [hearStream]
  by_cases hu : u' = u
  · subst hu
    simp [Function.update_apply]
  · simp [hu]

theorem member_hearMember {u u' : UserID} {b : Bool} :
    (h.hearMember u b).member u' = if u' = u then some b else h.member u' :=
  Function.update_apply _ _ _ _

theorem better_hearStream (h : Heard) (u : UserID) (kind : Kind) :
    Better h (h.hearStream u kind true) where
  stream u' kind' hs := by
    rw [stream_hearStream] at hs
    split_ifs at hs
    · cases hs
    · exact hs
  member _ hm := hm

theorem better_hearMember (h : Heard) (u : UserID) : Better h (h.hearMember u true) where
  stream _ _ hs := hs
  member u' hm := by
    rw [member_hearMember] at hm
    split_ifs at hm
    · cases hm
    · exact hm

theorem better_joined (h : Heard) (peers : List (UserID × List Kind)) :
    Better h (h.hear (.joined peers)) := by
  refine Better.foldl (fun h peer => ?_) peers h
  refine (better_hearMember h peer.1).trans ?_
  exact Better.foldl (fun h kind => better_hearStream h peer.1 kind) peer.2 _

end Heard

/-! ### The steps -/

namespace Meeting

variable {m : Meeting} {h h' : Heard} {s s' : MeetingPage}

theorem Live.mono (hlive : Live s h) (hfewer : Fewer s s') (hbetter : h.Better h') :
    Live s' h' := by
  intro u r kind pc hu hk
  obtain ⟨hu, hk⟩ := hfewer u r kind pc hu hk
  obtain ⟨hstream, hmember⟩ := hlive u r kind pc hu hk
  exact ⟨fun hs => hstream (hbetter.stream u kind hs),
    fun hm => hmember (hbetter.member u hm)⟩

theorem harmless_step (hharm : Harmless s s') (hbetter : h.Better h')
    (hs : s.Kept ∧ Live s h) : s'.Kept ∧ Live s' h' :=
  ⟨hharm.kept hs.1, hs.2.mono hharm.fewer hbetter⟩

theorem streamStopped_step (hsound : s.Sound) (u : UserID) (kind : Kind) (hs : s.Kept ∧ Live s h) :
    (s.peerStreamStopped u kind).Kept ∧
      Live (s.peerStreamStopped u kind) (h.hearStream u kind false) := by
  have hharm := Harmless.peerStreamStopped hsound u kind
  refine ⟨hharm.kept hs.1, fun u' r kind' pc hu hk => ?_⟩
  obtain ⟨hu0, hk0⟩ := hharm.fewer u' r kind' pc hu hk
  obtain ⟨hstream, hmember⟩ := hs.2 u' r kind' pc hu0 hk0
  refine ⟨?_, hmember⟩
  rw [Heard.stream_hearStream, if_neg]
  · exact hstream
  · -- the entry has given up the stream that has stopped
    rintro ⟨rfl, rfl⟩
    rw [peerStreamStopped, hu0] at hk
    dsimp only at hk
    rw [stopPeerPull, hk0] at hk
    dsimp only at hk
    rw [pc_setPC, if_pos ⟨rfl, rfl⟩] at hk
    cases hk

theorem lookup_peerLeft {u u' : UserID} {r : PeerRef}
    (hu : (s.peerLeft u).peers.lookup u' = some r) : u' ≠ u ∧ s.peers.lookup u' = some r := by
  cases hl : s.peers.lookup u with
  | none =>
    rw [peerLeft_eq_none hl] at hu
    exact lookup_forgetPeer hu
  | some r' =>
    rw [peerLeft_eq hl, peers_closeStream, peers_closeStream] at hu
    exact lookup_forgetPeer hu

theorem entry_peerLeft (s : MeetingPage) (u : UserID) : (s.peerLeft u).entry = s.entry := by
  cases hl : s.peers.lookup u with
  | none => rw [peerLeft_eq_none hl]; rfl
  | some r => rw [peerLeft_eq hl, entry_closeStream, entry_closeStream]; rfl

theorem conn_peerLeft {u : UserID} {r : PeerRef} (hl : s.peers.lookup u = some r) {pc : PC} :
    (s.peerLeft u).conn pc =
      if (s.entry r).pc "cam" = some pc ∨ (s.entry r).pc "screen" = some pc then
        (s.conn pc).map ({ · with closed := true })
      else s.conn pc := by
  rw [peerLeft_eq hl, conn_closeStream, entry_closeStream, conn_closeStream]
  change (if (s.entry r).pc "screen" = some pc then
    Option.map _ (if (s.entry r).pc "cam" = some pc then (s.conn pc).map _ else s.conn pc)
    else if (s.entry r).pc "cam" = some pc then (s.conn pc).map _ else s.conn pc) = _
  by_cases hscreen : (s.entry r).pc "screen" = some pc <;>
    by_cases hcam : (s.entry r).pc "cam" = some pc <;>
    simp [hscreen, hcam, Function.comp_def]

theorem peerLeft_step (u : UserID) (hcalm : Calm ⟨s, h⟩ (.peerLeft u)) (hs : s.Kept ∧ Live s h) :
    (s.peerLeft u).Kept ∧ Live (s.peerLeft u) (h.hearMember u false) := by
  constructor
  · intro pc c hc hret hopen
    cases hl : s.peers.lookup u with
    | none =>
      rw [peerLeft_eq_none hl] at hc ⊢
      obtain ⟨r, hu, hst⟩ := hs.1 pc c hc hret hopen
      refine ⟨r, ?_, hst⟩
      rw [forgetPeer, GoMap.lookup_erase_iff, if_neg]
      · exact hu
      · intro he
        rw [he, hl] at hu
        cases hu
    | some r =>
      rw [conn_peerLeft hl] at hc
      split_ifs at hc with hclosed
      · obtain ⟨c0, -, rfl⟩ := Option.map_eq_some_iff.1 hc
        cases hopen
      obtain ⟨r', hu, hst⟩ := hs.1 pc c hc hret hopen
      have hne : c.userId ≠ u := by
        intro he
        rw [he, hl] at hu
        rw [← Option.some.inj hu] at hst
        refine hclosed ?_
        rcases hcalm r c.kind hl (by rw [hst]; exact Option.some_ne_none pc) with hk | hk
        · exact Or.inl (hk ▸ hst)
        · exact Or.inr (hk ▸ hst)
      refine ⟨r', ?_, by rw [entry_peerLeft]; exact hst⟩
      rw [peerLeft_eq hl, peers_closeStream, peers_closeStream, forgetPeer, GoMap.lookup_erase_iff,
        if_neg hne]
      exact hu
  · intro u' r kind pc hu hk
    obtain ⟨hne, hu⟩ := lookup_peerLeft hu
    rw [entry_peerLeft] at hk
    obtain ⟨hstream, hmember⟩ := hs.2 u' r kind pc hu hk
    refine ⟨hstream, ?_⟩
    rw [Heard.member_hearMember, if_neg hne]
    exact hmember

theorem played_step (hsound : s.Sound) (id : PullId) (hcalm : Calm ⟨s, h⟩ (.played id))
    (hs : s.Kept ∧ Live s h) : (s.played id).Kept ∧ Live (s.played id) h := by
  by_cases hplay : ∃ p pc, s.pull id = some p ∧ p.phase = .playing pc
  swap
  · rw [played_idle fun p pc hp hphase => hplay ⟨p, pc, hp, hphase⟩]
    exact hs
  obtain ⟨p, pc, hp, hphase⟩ := hplay
  by_cases hgen : (s.entry p.peer).pullGen p.kind = p.pullGen
  swap
  · exact harmless_step (Harmless.played_stale hsound hp hphase hgen) (Heard.Better.refl h) hs
  obtain ⟨hu, hstream, hmember⟩ := hcalm p pc hp hphase hgen
  have hvacant : (s.entry p.peer).pc p.kind = none :=
    hsound.vacant hp (by rw [hphase]; exact PullPhase.noConfusion) hgen
  constructor
  · intro pc' c hc hret hopen
    rw [conn_played hsound hp hphase hgen] at hc
    split_ifs at hc with he
    · refine ⟨p.peer, ?_, ?_⟩
      · rw [peers_played hp hphase hgen, ← Option.some.inj hc]
        exact hu
      · rw [pc_played hp hphase hgen, ← Option.some.inj hc, if_pos ⟨rfl, rfl⟩, he]
    · obtain ⟨r, hu', hst⟩ := hs.1 pc' c hc hret hopen
      refine ⟨r, by rw [peers_played hp hphase hgen]; exact hu', ?_⟩
      rw [pc_played hp hphase hgen, if_neg]
      · exact hst
      · -- nothing was stored where the connection goes
        rintro ⟨rfl, hkind⟩
        rw [hkind, hvacant] at hst
        cases hst
  · intro u r kind pc' hu' hk
    rw [peers_played hp hphase hgen] at hu'
    rw [pc_played hp hphase hgen] at hk
    split_ifs at hk with he
    · obtain ⟨rfl, rfl⟩ := he
      rw [hsound.peerInj hu' hu]
      exact ⟨hstream, hmember⟩
    · exact hs.2 u r kind pc' hu' hk

theorem clean_step (m : Meeting) (l : MeetingLabel) (hcalm : Calm m l) (hsound : m.page.Sound)
    (hs : m.page.Kept ∧ Live m.page m.heard) :
    (m.page.step l).Kept ∧ Live (m.page.step l) (m.heard.hear l) := by
  have hsame := Heard.Better.refl m.heard
  cases l with
  | joined peers =>
    exact harmless_step (Harmless.joined hsound peers) (m.heard.better_joined peers) hs
  | peerJoined u =>
    exact harmless_step (Harmless.ensurePeer hsound u) (m.heard.better_hearMember u) hs
  | peerState u => exact harmless_step (Harmless.ensurePeer hsound u) hsame hs
  | peerStreamStarted u kind =>
    exact harmless_step (Harmless.peerStreamStarted hsound u kind)
      (m.heard.better_hearStream u kind) hs
  | connectionFailed pc => exact harmless_step (Harmless.connectionFailed hsound pc) hsame hs
  | retryExistingPeerPulls =>
    exact harmless_step (Harmless.retryExistingPeerPulls hsound) hsame hs
  | playFailed id => exact harmless_step (Harmless.playFailed hsound id) hsame hs
  | slept id => exact harmless_step (Harmless.slept hsound id) hsame hs
  | settled id => exact harmless_step (Harmless.settled hsound id) hsame hs
  | peerStreamStopped u kind => exact streamStopped_step hsound u kind hs
  | peerLeft u => exact peerLeft_step u hcalm hs
  | played id => exact played_step hsound id hcalm hs

/-- A step that is not calm leaks a connection at once. -/
theorem calm_of_clean (m : Meeting) (l : MeetingLabel) (hsound : m.page.Sound)
    (hclean : (meeting.step m l).Clean) : Calm m l := by
  cases l with
  | joined | peerJoined | peerState | peerStreamStarted | peerStreamStopped | connectionFailed
  | retryExistingPeerPulls | playFailed | slept | settled => trivial
  | peerLeft u =>
    intro r kind hl hk
    by_contra hother
    obtain ⟨pc, hk⟩ := Option.ne_none_iff_exists'.1 hk
    obtain ⟨c, hc, hret, hpeer, hkind⟩ := hsound.stored hk
    have hconn : (m.page.peerLeft u).conn pc = some c := by
      rw [conn_peerLeft hl, if_neg, hc]
      have hnot : ∀ kind', (m.page.entry r).pc kind' = some pc → kind' = kind := fun kind' hk' => by
        obtain ⟨c', hc', -, -, hkind'⟩ := hsound.stored hk'
        rw [hc] at hc'
        rw [← hkind', ← Option.some.inj hc', hkind]
      rintro (hcam | hscreen)
      · exact hother (Or.inl (hnot _ hcam).symm)
      · exact hother (Or.inr (hnot _ hscreen).symm)
    obtain ⟨r', hu, -⟩ := hclean.kept pc c hconn hret (hsound.storedOpen hl hk hc)
    rw [← hsound.connOwner hc (hpeer ▸ hl)] at hu
    exact (lookup_peerLeft hu).1 rfl
  | played id =>
    intro p pc hp hphase hgen
    have hconn : (m.page.played id).conn pc = _ := conn_played hsound hp hphase hgen
    rw [if_pos rfl] at hconn
    obtain ⟨r, hu, hst⟩ := hclean.kept pc _ hconn rfl rfl
    have hst' : ((m.page.played id).entry r).pc p.kind = some pc := hst
    have hu' : (m.page.played id).peers.lookup p.userId = some r := hu
    have hlive := hclean.live p.userId r p.kind pc hu' hst'
    rw [pc_played hp hphase hgen] at hst'
    rw [peers_played hp hphase hgen] at hu'
    split_ifs at hst' with he
    · exact ⟨he.1 ▸ hu', hlive⟩
    · exact absurd hst' (not_stored_of_playing hsound hp hphase _ _)

theorem sound_init : meeting.init.page.Sound := by
  constructor <;> intros <;> simp_all [meeting]

theorem sound_run (ls : List MeetingLabel) : (meeting.run ls).page.Sound :=
  Machine.run_invariant (M := meeting) (P := fun m => m.page.Sound) sound_init
    (fun _ l h => h.step l) ls

end Meeting

/-- No connection is leaked all along a run of the meeting page if and only if every
step of it is calm. -/
theorem no_connection_leaks_iff (ls : List MeetingLabel) :
    (∀ pre, pre <+: ls → (meeting.run pre).Clean) ↔ meeting.Guarded Calm ls :=
  Machine.guarded_iff (M := meeting) (P := fun m => m.page.Kept ∧ Live m.page m.heard) sound_run
    ⟨fun _ _ hc => (by cases hc), fun _ _ _ _ hu => (by cases hu)⟩ clean_step
    (fun m l hsound _ hclean => calm_of_clean m l hsound hclean) (fun _ h => clean_of h.1 h.2) ls

/-- The peer leaves while its camera is being pulled, and then the pull gets its connection. -/
theorem overtaken_pull_leaks :
    ¬∀ ls : List MeetingLabel, (∀ id, (meeting.run ls).page.pull id = none) →
      (meeting.run ls).Clean := by
  intro h
  let ls : List MeetingLabel :=
    [.peerStreamStarted "u" "cam", .peerLeft "u", .played 0, .settled 0]
  have hidle : ∀ id, (meeting.run ls).page.pull id = none := fun id => by
    cases hp : (meeting.run ls).page.pull id with
    | none => rfl
    | some p =>
      have hlt : id < (meeting.run ls).page.newPull := ((sound_run ls).pullFresh hp).1
      have hnew : (meeting.run ls).page.newPull = 1 := by decide +kernel
      have hnone : ((meeting.run ls).page.pull 0).isNone = true := by decide +kernel
      have hid : id = 0 := Nat.lt_one_iff.1 (hnew ▸ hlt)
      rw [hid] at hp
      rw [hp] at hnone
      cases hnone
  have hconn : (meeting.run ls).page.conn 0 = some
      { peer := 0, userId := "u", kind := "cam", pullGen := 1, returned := true } := by
    decide +kernel
  have hgone : (meeting.run ls).page.peers.lookup "u" = none := by decide +kernel
  obtain ⟨r, hu, -⟩ := (h ls hidle).kept 0 _ hconn rfl rfl
  rw [hgone] at hu
  cases hu

end Meetkit
