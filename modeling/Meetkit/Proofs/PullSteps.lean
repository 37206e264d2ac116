import Meetkit.Model.MeetingPage

/-! What the operations of the meeting page keep, whatever the order of events: numbers
are fresh, a connection that an entry holds was returned by a pull for that entry and
kind, and two pulls for one entry and kind never have the same generation. Most
operations are harmless besides: they lose no connection and hold no new one. -/

namespace Meetkit

namespace MeetingPage

variable {s s' s'' : MeetingPage} {u : UserID} {r r' : PeerRef} {kind kind' : Kind} {pc pc' : PC}
  {id id' : PullId} {p p' : Pull} {c c' : Conn}

theorem entry_modifyEntry (f : PeerEntry → PeerEntry) :
    (s.modifyEntry r f).entry r' = if r' = r then f (s.entry r) else s.entry r' :=
  Function.update_apply _ _ _ _

@[simp] theorem pc_setPC {o : Option PC} : ((s.setPC r kind o).entry r').pc kind' =
    if r' = r ∧ kind' = kind then o else (s.entry r').pc kind' := by
  rw [setPC, entry_modifyEntry]
  by_cases hr : r' = r
  · subst hr
    simp [Function.update_apply]
  · simp [hr]

@[simp] theorem pullGen_setPC {o : Option PC} :
    ((s.setPC r kind o).entry r').pullGen kind' = (s.entry r').pullGen kind' := by
  rw [setPC, entry_modifyEntry]
  by_cases hr : r' = r <;> simp [hr]

/-- What ties entries, connections and pulls together. -/
structure Sound (s : MeetingPage) : Prop where
  peerFresh : ∀ {u r}, s.peers.lookup u = some r → r < s.newPeer
  peerInj : ∀ {u u' r}, s.peers.lookup u = some r → s.peers.lookup u' = some r → u = u'
  connFresh : ∀ {pc c}, s.conn pc = some c → pc < s.newPC ∧ c.peer < s.newPeer
  connOwner : ∀ {pc c u}, s.conn pc = some c → s.peers.lookup u = some c.peer → u = c.userId
  pullFresh : ∀ {id p}, s.pull id = some p → id < s.newPull ∧ p.peer < s.newPeer
  pullOwner : ∀ {id p u}, s.pull id = some p → s.peers.lookup u = some p.peer → u = p.userId
  pullGen : ∀ {id p}, s.pull id = some p → p.pullGen ≤ (s.entry p.peer).pullGen p.kind
  pullInj : ∀ {id id' p p'}, s.pull id = some p → s.pull id' = some p' → p.peer = p'.peer →
    p.kind = p'.kind → p.pullGen = p'.pullGen → id = id'
  playing : ∀ {id p pc}, s.pull id = some p → p.phase = .playing pc →
    s.conn pc = some { peer := p.peer, userId := p.userId, kind := p.kind, pullGen := p.pullGen }
  /-- The pull of the current generation finds nothing in its place. -/
  vacant : ∀ {id p}, s.pull id = some p → p.phase ≠ .ended →
    (s.entry p.peer).pullGen p.kind = p.pullGen → (s.entry p.peer).pc p.kind = none
  stored : ∀ {r kind pc}, (s.entry r).pc kind = some pc →
    ∃ c, s.conn pc = some c ∧ c.returned = true ∧ c.peer = r ∧ c.kind = kind
  storedOpen : ∀ {u r kind pc c}, s.peers.lookup u = some r → (s.entry r).pc kind = some pc →
    s.conn pc = some c → c.closed = false

/-- Every connection that was returned and is open is held for its user and kind. -/
def Kept (s : MeetingPage) : Prop :=
  ∀ pc c, s.conn pc = some c → c.returned = true → c.closed = false →
    ∃ r, s.peers.lookup c.userId = some r ∧ (s.entry r).pc c.kind = some pc

/-- `s'` holds no connection that `s` does not. -/
def Fewer (s s' : MeetingPage) : Prop :=
  ∀ u r kind pc, s'.peers.lookup u = some r → (s'.entry r).pc kind = some pc →
    s.peers.lookup u = some r ∧ (s.entry r).pc kind = some pc

structure Harmless (s s' : MeetingPage) : Prop where
  sound : s'.Sound
  kept : s.Kept → s'.Kept
  fewer : Fewer s s'

theorem Harmless.refl (h : s.Sound) : Harmless s s := ⟨h, id, fun _ _ _ _ hu hk => ⟨hu, hk⟩⟩

theorem Harmless.trans (h : Harmless s s') (h' : Harmless s' s'') : Harmless s s'' where
  sound := h'.sound
  kept hk := h'.kept (h.kept hk)
  fewer u r kind pc hu hk := by
    obtain ⟨hu, hk⟩ := h'.fewer u r kind pc hu hk
    exact h.fewer u r kind pc hu hk

/-- Over a loop. -/
theorem Harmless.foldl {α : Type} {f : MeetingPage → α → MeetingPage}
    (hf : ∀ {s}, s.Sound → ∀ a, Harmless s (f s a)) (l : List α) :
    ∀ {s}, s.Sound → Harmless s (l.foldl f s) := by
  induction l with
  | nil => exact Harmless.refl
  | cons a l ih => exact fun h => (hf h a).trans (ih (hf h a).sound)

/-! ### One field at a time -/

section Notes

variable {f : PeerEntry → PeerEntry} (h : s.Sound) (hpc : ∀ e, (f e).pc = e.pc)

theorem pc_notes (hpc : ∀ e, (f e).pc = e.pc) :
    ((s.modifyEntry r f).entry r').pc = (s.entry r').pc := by
  rw [entry_modifyEntry]
  split_ifs with hr
  · rw [hpc, hr]
  · rfl

include h hpc

/-- What an entry notes besides its connections. -/
theorem Harmless.notes (hgen : ∀ e kind, e.pullGen kind ≤ (f e).pullGen kind)
    (hvacant : ∀ {id p}, s.pull id = some p → p.peer = r →
      (f (s.entry r)).pullGen p.kind = p.pullGen → (s.entry r).pullGen p.kind = p.pullGen) :
    Harmless s (s.modifyEntry r f) where
  sound := by
    refine ⟨h.peerFresh, h.peerInj, h.connFresh, h.connOwner, h.pullFresh, h.pullOwner, ?_,
      h.pullInj, h.playing, ?_, ?_, ?_⟩
    · intro id p hp
      refine (h.pullGen hp).trans ?_
      rw [entry_modifyEntry]
      split_ifs with hr
      · rw [hr]
        exact hgen _ _
      · exact le_rfl
    · intro id p hp hphase hcur
      rw [pc_notes hpc]
      refine h.vacant hp hphase ?_
      rw [entry_modifyEntry] at hcur
      split_ifs at hcur with hr
      · rw [hr]
        exact hvacant hp hr hcur
      · exact hcur
    · intro r' kind pc hk
      rw [pc_notes hpc] at hk
      exact h.stored hk
    · intro u r' kind pc c hu hk hc
      rw [pc_notes hpc] at hk
      exact h.storedOpen hu hk hc
  kept hk pc c hc hret hopen := by
    obtain ⟨r', hu, hst⟩ := hk pc c hc hret hopen
    exact ⟨r', hu, by rw [pc_notes hpc]; exact hst⟩
  fewer u r' kind pc hu hk := by
    rw [pc_notes hpc] at hk
    exact ⟨hu, hk⟩

end Notes

theorem Harmless.setPulling (h : s.Sound) (r : PeerRef) (kind : Kind) (b : Bool) :
    Harmless s (s.setPulling r kind b) :=
  Harmless.notes h (fun _ => rfl) (fun _ _ => le_rfl) fun _ _ hcur => hcur

theorem pc_setFailRetries {n : ℕ} : ((s.setFailRetries r kind n).entry r').pc = (s.entry r').pc :=
  pc_notes fun _ => rfl

theorem Harmless.setFailRetries (h : s.Sound) (r : PeerRef) (kind : Kind) (n : ℕ) :
    Harmless s (s.setFailRetries r kind n) :=
  Harmless.notes h (fun _ => rfl) (fun _ _ => le_rfl) fun _ _ hcur => hcur

/-- A new generation: the pulls there were are not of it. -/
theorem Harmless.bump (h : s.Sound) (r : PeerRef) (kind : Kind) :
    Harmless s (s.bumpPullGen r kind) := by
  refine Harmless.notes h (fun _ => rfl) (fun e kind' => ?_) fun {id p} hp hr hcur => ?_
  · by_cases hk : kind' = kind
    · subst hk
      simp
    · simp [hk]
  · have hle := h.pullGen hp
    rw [hr] at hle
    by_cases hk : p.kind = kind
    · rw [← hk] at hcur
      simp only [Function.update_self] at hcur
      omega
    · simpa [hk] using hcur

theorem lookup_ensurePeer (s : MeetingPage) (u : UserID) :
    (s.ensurePeer u).1.peers.lookup u = some (s.ensurePeer u).2 := by
  unfold ensurePeer
  cases hu : s.peers.lookup u with
  | some r => exact hu
  | none => exact AList.lookup_insert _

section AddPeer

variable (h : s.Sound) (hu : s.peers.lookup u = none)

theorem lookup_addPeer {u' : UserID} (hr : (s.addPeer u).peers.lookup u' = some r) :
    u' = u ∧ r = s.newPeer ∨ u' ≠ u ∧ s.peers.lookup u' = some r := by
  rw [addPeer, GoMap.lookup_insert_iff] at hr
  split_ifs at hr with he
  · exact Or.inl ⟨he, (Option.some.inj hr).symm⟩
  · exact Or.inr ⟨he, hr⟩

theorem entry_addPeer (hr : r < s.newPeer) : (s.addPeer u).entry r = s.entry r :=
  Function.update_of_ne (Nat.ne_of_lt hr) _ _

/-- The new entry holds nothing. -/
theorem stored_addPeer (hk : ((s.addPeer u).entry r).pc kind = some pc) :
    r ≠ s.newPeer ∧ (s.entry r).pc kind = some pc := by
  change (Function.update s.entry s.newPeer {} r).pc kind = some pc at hk
  by_cases hr : r = s.newPeer
  · rw [hr, Function.update_self] at hk
    cases hk
  · rw [Function.update_of_ne hr] at hk
    exact ⟨hr, hk⟩

include h

theorem Sound.addPeer : (s.addPeer u).Sound := by
  have hnew : ∀ {r}, r < s.newPeer → r ≠ s.newPeer := fun hr => Nat.ne_of_lt hr
  refine ⟨?_, ?_, ?_, ?_, ?_, ?_, ?_, h.pullInj, h.playing, ?_, ?_, ?_⟩
  · intro u' r hr
    rcases lookup_addPeer hr with ⟨-, rfl⟩ | ⟨-, hr⟩
    · exact Nat.lt_succ_self _
    · exact Nat.lt_succ_of_lt (h.peerFresh hr)
  · intro u1 u2 r h1 h2
    rcases lookup_addPeer h1 with ⟨h1, hr⟩ | ⟨-, h1⟩ <;>
      rcases lookup_addPeer h2 with ⟨h2, hr'⟩ | ⟨-, h2⟩
    · rw [h1, h2]
    · exact absurd hr (hnew (h.peerFresh h2))
    · exact absurd hr' (hnew (h.peerFresh h1))
    · exact h.peerInj h1 h2
  · exact fun hc => ⟨(h.connFresh hc).1, Nat.lt_succ_of_lt (h.connFresh hc).2⟩
  · intro pc c u' hc hr
    rcases lookup_addPeer hr with ⟨-, hr⟩ | ⟨-, hr⟩
    · exact absurd hr (hnew (h.connFresh hc).2)
    · exact h.connOwner hc hr
  · exact fun hp => ⟨(h.pullFresh hp).1, Nat.lt_succ_of_lt (h.pullFresh hp).2⟩
  · intro id p u' hp hr
    rcases lookup_addPeer hr with ⟨-, hr⟩ | ⟨-, hr⟩
    · exact absurd hr (hnew (h.pullFresh hp).2)
    · exact h.pullOwner hp hr
  · intro id p hp
    rw [entry_addPeer (h.pullFresh hp).2]
    exact h.pullGen hp
  · intro id p hp hphase hcur
    rw [entry_addPeer (h.pullFresh hp).2] at hcur ⊢
    exact h.vacant hp hphase hcur
  · exact fun hk => h.stored (stored_addPeer hk).2
  · intro u' r kind pc c hr hk hc
    obtain ⟨hne, hk⟩ := stored_addPeer hk
    rcases lookup_addPeer hr with ⟨-, hr⟩ | ⟨-, hr⟩
    · exact absurd hr hne
    · exact h.storedOpen hr hk hc

include hu

theorem Harmless.addPeer : Harmless s (s.addPeer u) where
  sound := h.addPeer
  kept hk pc c hc hret hopen := by
    obtain ⟨r, hr, hst⟩ := hk pc c hc hret hopen
    have hne : c.userId ≠ u := by
      intro he
      rw [he, hu] at hr
      cases hr
    refine ⟨r, ?_, by rw [entry_addPeer (h.peerFresh hr)]; exact hst⟩
    rw [MeetingPage.addPeer, GoMap.lookup_insert_iff, if_neg hne]
    exact hr
  fewer u' r kind pc hr hk := by
    obtain ⟨hne, hk⟩ := stored_addPeer hk
    rcases lookup_addPeer hr with ⟨-, hr⟩ | ⟨-, hr⟩
    · exact absurd hr hne
    · exact ⟨hr, hk⟩

end AddPeer

theorem Harmless.ensurePeer (h : s.Sound) (u : UserID) : Harmless s (s.ensurePeer u).1 := by
  unfold MeetingPage.ensurePeer
  cases hu : s.peers.lookup u with
  | some r => exact refl h
  | none => exact addPeer h hu

/-! ### Connections -/

theorem conn_modifyConn (f : Conn → Conn) : (s.modifyConn pc f).conn pc' =
    if pc' = pc then (s.conn pc).map f else s.conn pc' :=
  Function.update_apply _ _ _ _

/-- A connection of which only the flags change, when no pull has it any more. -/
theorem Sound.modifyConn (h : s.Sound) {f : Conn → Conn}
    (hf : ∀ c, (f c).peer = c.peer ∧ (f c).userId = c.userId ∧ (f c).kind = c.kind)
    (hret : ∀ c, c.returned = true → (f c).returned = true)
    (hidle : ∀ {id p}, s.pull id = some p → p.phase ≠ .playing pc)
    (hopen : ∀ {u r kind c}, s.peers.lookup u = some r → (s.entry r).pc kind = some pc →
      s.conn pc = some c → (f c).closed = false) : (s.modifyConn pc f).Sound := by
  have hsame : ∀ {pc' c'}, (s.modifyConn pc f).conn pc' = some c' → ∃ c, s.conn pc' = some c ∧
      c'.peer = c.peer ∧ c'.userId = c.userId := by
    intro pc' c' hc
    rw [conn_modifyConn] at hc
    split_ifs at hc with he
    · obtain ⟨c, hc0, rfl⟩ := Option.map_eq_some_iff.1 hc
      exact ⟨c, he ▸ hc0, (hf c).1, (hf c).2.1⟩
    · exact ⟨c', hc, rfl, rfl⟩
  refine ⟨h.peerFresh, h.peerInj, ?_, ?_, h.pullFresh, h.pullOwner, h.pullGen, h.pullInj, ?_,
    h.vacant, ?_, ?_⟩
  · intro pc' c' hc
    obtain ⟨c, hc, hpeer, -⟩ := hsame hc
    rw [hpeer]
    exact h.connFresh hc
  · intro pc' c' u hc hu
    obtain ⟨c, hc, hpeer, huser⟩ := hsame hc
    rw [hpeer] at hu
    rw [huser]
    exact h.connOwner hc hu
  · intro id p pc' hp hphase
    have hne : pc' ≠ pc := by
      rintro rfl
      exact hidle hp hphase
    rw [conn_modifyConn, if_neg hne]
    exact h.playing hp hphase
  · intro r kind pc' hk
    obtain ⟨c, hc, hret', hpeer, hkind⟩ := h.stored hk
    rw [conn_modifyConn]
    split_ifs with he
    · rw [← he, hc]
      exact ⟨f c, rfl, hret c hret', (hf c).1.trans hpeer, (hf c).2.2.trans hkind⟩
    · exact ⟨c, hc, hret', hpeer, hkind⟩
  · intro u r kind pc' c' hu hk hc
    rw [conn_modifyConn] at hc
    split_ifs at hc with he
    · rw [he] at hk
      obtain ⟨c, hc0, rfl⟩ := Option.map_eq_some_iff.1 hc
      exact hopen hu hk hc0
    · exact h.storedOpen hu hk hc

theorem Sound.closePC (h : s.Sound) (hidle : ∀ {id p}, s.pull id = some p → p.phase ≠ .playing pc)
    (hstored : ∀ {u r kind}, s.peers.lookup u = some r → (s.entry r).pc kind ≠ some pc) :
    (s.closePC pc).Sound :=
  h.modifyConn (fun _ => ⟨rfl, rfl, rfl⟩) (fun _ hret => hret) hidle
    fun hu hk _ => absurd hk (hstored hu)

/-- A connection that was returned is in no pull any more. -/
theorem Sound.idle_of_returned (h : s.Sound) (hc : s.conn pc = some c) (hret : c.returned = true) :
    ∀ {id p}, s.pull id = some p → p.phase ≠ .playing pc := by
  intro id p hp hphase
  have hplay := h.playing hp hphase
  rw [hc] at hplay
  rw [Option.some.inj hplay] at hret
  cases hret

theorem Sound.drop (h : s.Sound) (r : PeerRef) (kind : Kind) : (s.setPC r kind none).Sound := by
  have hsub : ∀ {r' kind' pc}, ((s.setPC r kind none).entry r').pc kind' = some pc →
      (s.entry r').pc kind' = some pc := by
    intro r' kind' pc hk
    rw [pc_setPC] at hk
    split_ifs at hk
    exact hk
  refine ⟨h.peerFresh, h.peerInj, h.connFresh, h.connOwner, h.pullFresh, h.pullOwner, ?_,
    h.pullInj, h.playing, ?_, fun hk => h.stored (hsub hk), fun hu hk => h.storedOpen hu (hsub hk)⟩
  · intro id p hp
    rw [pullGen_setPC]
    exact h.pullGen hp
  · intro id p hp hphase hcur
    rw [pullGen_setPC] at hcur
    rw [pc_setPC]
    split_ifs
    · rfl
    · exact h.vacant hp hphase hcur

/-- The connection an entry gives up is closed. -/
theorem Harmless.stopPeerPull (h : s.Sound) (r : PeerRef) (kind : Kind) :
    Harmless s (s.stopPeerPull r kind) := by
  unfold MeetingPage.stopPeerPull
  cases hpc : (s.entry r).pc kind with
  | none => exact refl h
  | some pc =>
    obtain ⟨c, hc, hret, hpeer, hkind⟩ := h.stored hpc
    have hdrop := h.drop r kind
    have hnot : ∀ {r' kind'}, ((s.setPC r kind none).entry r').pc kind' ≠ some pc := by
      intro r' kind' hk
      rw [pc_setPC] at hk
      split_ifs at hk with he
      obtain ⟨c', hc', -, hpeer', hkind'⟩ := h.stored hk
      rw [hc] at hc'
      rw [← Option.some.inj hc'] at hpeer' hkind'
      exact he ⟨hpeer'.symm.trans hpeer, hkind'.symm.trans hkind⟩
    refine ⟨hdrop.closePC (h.idle_of_returned hc hret) fun _ => hnot, ?_, ?_⟩
    · intro hk pc' c' hc' hret' hopen'
      change (s.closePC pc).conn pc' = some c' at hc'
      rw [closePC, conn_modifyConn] at hc'
      split_ifs at hc' with he
      · obtain ⟨c0, -, rfl⟩ := Option.map_eq_some_iff.1 hc'
        cases hopen'
      · obtain ⟨r', hu, hst⟩ := hk pc' c' hc' hret' hopen'
        refine ⟨r', hu, ?_⟩
        change ((s.setPC r kind none).entry r').pc c'.kind = some pc'
        rw [pc_setPC, if_neg]
        · exact hst
        · rintro ⟨rfl, hkind'⟩
          rw [hkind', hpc] at hst
          exact he (Option.some.inj hst).symm
    · intro u r' kind' pc' hu hk
      change ((s.setPC r kind none).entry r').pc kind' = some pc' at hk
      rw [pc_setPC] at hk
      split_ifs at hk
      exact ⟨hu, hk⟩

/-! ### Pulls -/

theorem pull_setPull {o : Option Pull} :
    (s.setPull id o).pull id' = if id' = id then o else s.pull id' :=
  Function.update_apply _ _ _ _

/-- What a pull must be to run for its entry and kind. -/
structure Fit (s : MeetingPage) (id : PullId) (p : Pull) : Prop where
  id_lt : id < s.newPull
  peer_lt : p.peer < s.newPeer
  owner : ∀ {u}, s.peers.lookup u = some p.peer → u = p.userId
  pullGen : p.pullGen ≤ (s.entry p.peer).pullGen p.kind
  alone : ∀ {id' p'}, s.pull id' = some p' → id' ≠ id → p'.peer = p.peer → p'.kind = p.kind →
    p'.pullGen ≠ p.pullGen

theorem Sound.fit (h : s.Sound) (hp : s.pull id = some p) : Fit s id p where
  id_lt := (h.pullFresh hp).1
  peer_lt := (h.pullFresh hp).2
  owner := h.pullOwner hp
  pullGen := h.pullGen hp
  alone hp' hne hpeer hkind hgen := hne (h.pullInj hp' hp hpeer hkind hgen)

/-- A pull that is not in `playStream`. -/
theorem Harmless.setPull (h : s.Sound) (hfit : Fit s id p) (hphase : ∀ pc, p.phase ≠ .playing pc)
    (hvacant : p.phase ≠ .ended → (s.entry p.peer).pullGen p.kind = p.pullGen →
      (s.entry p.peer).pc p.kind = none) : Harmless s (s.setPull id (some p)) where
  sound := by
    have hcases : ∀ {id' p'}, (s.setPull id (some p)).pull id' = some p' →
        id' = id ∧ p' = p ∨ id' ≠ id ∧ s.pull id' = some p' := by
      intro id' p' hp'
      rw [pull_setPull] at hp'
      split_ifs at hp' with he
      · exact Or.inl ⟨he, (Option.some.inj hp').symm⟩
      · exact Or.inr ⟨he, hp'⟩
    refine ⟨h.peerFresh, h.peerInj, h.connFresh, h.connOwner, ?_, ?_, ?_, ?_, ?_, ?_, h.stored,
      h.storedOpen⟩
    · intro id' p' hp'
      rcases hcases hp' with ⟨rfl, rfl⟩ | ⟨-, hp'⟩
      · exact ⟨hfit.id_lt, hfit.peer_lt⟩
      · exact h.pullFresh hp'
    · intro id' p' u hp' hu
      rcases hcases hp' with ⟨rfl, rfl⟩ | ⟨-, hp'⟩
      · exact hfit.owner hu
      · exact h.pullOwner hp' hu
    · intro id' p' hp'
      rcases hcases hp' with ⟨rfl, rfl⟩ | ⟨-, hp'⟩
      · exact hfit.pullGen
      · exact h.pullGen hp'
    · intro id1 id2 p1 p2 h1 h2 hpeer hkind hgen
      rcases hcases h1 with ⟨he1, rfl⟩ | ⟨hne1, hp1⟩ <;>
        rcases hcases h2 with ⟨he2, rfl⟩ | ⟨hne2, hp2⟩
      · exact he1.trans he2.symm
      · exact absurd hgen.symm (hfit.alone hp2 hne2 hpeer.symm hkind.symm)
      · exact absurd hgen (hfit.alone hp1 hne1 hpeer hkind)
      · exact h.pullInj hp1 hp2 hpeer hkind hgen
    · intro id' p' pc hp' hphase'
      rcases hcases hp' with ⟨rfl, rfl⟩ | ⟨-, hp'⟩
      · exact absurd hphase' (hphase pc)
      · exact h.playing hp' hphase'
    · intro id' p' hp' hphase' hcur
      rcases hcases hp' with ⟨rfl, rfl⟩ | ⟨-, hp'⟩
      · exact hvacant hphase' hcur
      · exact h.vacant hp' hphase' hcur
  kept hk := hk
  fewer _ _ _ _ hu hk := ⟨hu, hk⟩

/-- A pull that calls `playStream`, which makes a connection. -/
theorem Harmless.playStream (h : s.Sound) (hfit : Fit s id p)
    (hvacant : (s.entry p.peer).pc p.kind = none) : Harmless s (s.playStream id p) := by
  have hconn : ∀ {pc c}, s.conn pc = some c → pc ≠ s.newPC := fun hc =>
    Nat.ne_of_lt (h.connFresh hc).1
  have hold : ∀ {pc c}, s.conn pc = some c → (s.playStream id p).conn pc = some c := by
    intro pc c hc
    exact (Function.update_of_ne (hconn hc) _ _).trans hc
  have hcases : ∀ {pc c}, (s.playStream id p).conn pc = some c →
      pc = s.newPC ∧ c = { peer := p.peer, userId := p.userId, kind := p.kind, pullGen := p.pullGen } ∨
      s.conn pc = some c := by
    intro pc c hc
    change Function.update s.conn s.newPC _ pc = some c at hc
    rw [Function.update_apply] at hc
    split_ifs at hc with he
    · exact Or.inl ⟨he, (Option.some.inj hc).symm⟩
    · exact Or.inr hc
  have hpull : ∀ {id' p'}, (s.playStream id p).pull id' = some p' →
      id' = id ∧ p' = { p with phase := .playing s.newPC } ∨ id' ≠ id ∧ s.pull id' = some p' := by
    intro id' p' hp'
    change Function.update s.pull id _ id' = some p' at hp'
    rw [Function.update_apply] at hp'
    split_ifs at hp' with he
    · exact Or.inl ⟨he, (Option.some.inj hp').symm⟩
    · exact Or.inr ⟨he, hp'⟩
  refine ⟨⟨h.peerFresh, h.peerInj, ?_, ?_, ?_, ?_, ?_, ?_, ?_, ?_, ?_, ?_⟩, ?_, ?_⟩
  · intro pc c hc
    rcases hcases hc with ⟨rfl, rfl⟩ | hc
    · exact ⟨Nat.lt_succ_self _, hfit.peer_lt⟩
    · exact ⟨Nat.lt_succ_of_lt (h.connFresh hc).1, (h.connFresh hc).2⟩
  · intro pc c u hc hu
    rcases hcases hc with ⟨rfl, rfl⟩ | hc
    · exact hfit.owner hu
    · exact h.connOwner hc hu
  · intro id' p' hp'
    rcases hpull hp' with ⟨rfl, rfl⟩ | ⟨-, hp'⟩
    · exact ⟨hfit.id_lt, hfit.peer_lt⟩
    · exact h.pullFresh hp'
  · intro id' p' u hp' hu
    rcases hpull hp' with ⟨rfl, rfl⟩ | ⟨-, hp'⟩
    · exact hfit.owner hu
    · exact h.pullOwner hp' hu
  · intro id' p' hp'
    rcases hpull hp' with ⟨rfl, rfl⟩ | ⟨-, hp'⟩
    · exact hfit.pullGen
    · exact h.pullGen hp'
  · intro id1 id2 p1 p2 h1 h2 hpeer hkind hgen
    rcases hpull h1 with ⟨he1, rfl⟩ | ⟨hne1, hp1⟩ <;> rcases hpull h2 with ⟨he2, rfl⟩ | ⟨hne2, hp2⟩
    · exact he1.trans he2.symm
    · exact absurd hgen.symm (hfit.alone hp2 hne2 hpeer.symm hkind.symm)
    · exact absurd hgen (hfit.alone hp1 hne1 hpeer hkind)
    · exact h.pullInj hp1 hp2 hpeer hkind hgen
  · intro id' p' pc hp' hphase
    rcases hpull hp' with ⟨rfl, rfl⟩ | ⟨-, hp'⟩
    · simp only [PullPhase.playing.injEq] at hphase
      subst hphase
      exact Function.update_self _ _ _
    · exact hold (h.playing hp' hphase)
  · intro id' p' hp' hphase hcur
    rcases hpull hp' with ⟨rfl, rfl⟩ | ⟨-, hp'⟩
    · exact hvacant
    · exact h.vacant hp' hphase hcur
  · intro r kind pc hk
    obtain ⟨c, hc, hrest⟩ := h.stored hk
    exact ⟨c, hold hc, hrest⟩
  · intro u r kind pc c hu hk hc
    obtain ⟨c', hc', -⟩ := h.stored hk
    rw [hold hc'] at hc
    rw [← Option.some.inj hc]
    exact h.storedOpen hu hk hc'
  · intro hk pc c hc hret hopen
    rcases hcases hc with ⟨rfl, rfl⟩ | hc
    · cases hret
    · exact hk pc c hc hret hopen
  · exact fun u r kind pc hu hk => ⟨hu, hk⟩

theorem Harmless.attemptPull (h : s.Sound) (hfit : Fit s id p) :
    Harmless s (s.attemptPull id p) := by
  unfold MeetingPage.attemptPull
  dsimp only
  split_ifs with hover
  · refine setPull h ⟨hfit.id_lt, hfit.peer_lt, hfit.owner, hfit.pullGen, hfit.alone⟩ ?_ ?_
    · exact fun pc hphase => (by cases hphase)
    · exact fun hphase => absurd rfl hphase
  · refine playStream h hfit ?_
    simp only [not_or] at hover
    simpa using hover.2.2

/-- Nothing tells a pull number from another that is not taken. -/
theorem Harmless.newPull (h : s.Sound) : Harmless s { s with newPull := s.newPull + 1 } where
  sound := ⟨h.peerFresh, h.peerInj, h.connFresh, h.connOwner,
    fun hp => ⟨Nat.lt_succ_of_lt (h.pullFresh hp).1, (h.pullFresh hp).2⟩, h.pullOwner, h.pullGen,
    h.pullInj, h.playing, h.vacant, h.stored, h.storedOpen⟩
  kept hk := hk
  fewer _ _ _ _ hu hk := ⟨hu, hk⟩

/-- A pull of a generation above those of the others for its entry and kind. -/
theorem Harmless.pullPeerStreamWithRetry (h : s.Sound) (hu : s.peers.lookup u = some r)
    (preemptive : Bool)
    (hnew : ∀ {id p}, s.pull id = some p → p.peer = r → p.kind = kind →
      p.pullGen < (s.entry r).pullGen kind) :
    Harmless s (s.pullPeerStreamWithRetry u kind preemptive ((s.entry r).pullGen kind)) := by
  unfold MeetingPage.pullPeerStreamWithRetry MeetingPage.ensurePeer
  rw [hu]
  refine (newPull h).trans (attemptPull (newPull h).sound ?_)
  refine ⟨Nat.lt_succ_self _, h.peerFresh hu, fun hu' => h.peerInj hu' hu, le_rfl, ?_⟩
  exact fun hp _ hpeer hkind => Nat.ne_of_lt (hnew hp hpeer hkind)

theorem peers_stopPeerPull : (s.stopPeerPull r kind).peers = s.peers := by
  unfold stopPeerPull
  split <;> rfl

/-- The part of `startPullingPeerStream` that starts a pull. -/
theorem Harmless.startPull (h : s.Sound) (hu : s.peers.lookup u = some r) (kind : Kind)
    (preemptive : Bool) :
    Harmless s (((s.bumpPullGen r kind).pullPeerStreamWithRetry u kind preemptive
      (((s.bumpPullGen r kind).entry r).pullGen kind)).setPulling r kind true) := by
  have hbump := bump h r kind
  have hnew : ∀ {id p}, (s.bumpPullGen r kind).pull id = some p → p.peer = r → p.kind = kind →
      p.pullGen < ((s.bumpPullGen r kind).entry r).pullGen kind := by
    intro id p hp hpeer hkind
    have hle : p.pullGen ≤ (s.entry p.peer).pullGen p.kind := h.pullGen hp
    rw [bumpPullGen, entry_modifyEntry, if_pos rfl, ← hpeer, ← hkind]
    simpa using Nat.lt_succ_of_le hle
  have hpull := pullPeerStreamWithRetry hbump.sound hu preemptive hnew
  exact (hbump.trans hpull).trans (setPulling hpull.sound _ _ _)

theorem Harmless.startPullingPeerStream (h : s.Sound) (u : UserID) (kind : Kind)
    (preemptive force : Bool) :
    Harmless s (s.startPullingPeerStream u kind preemptive force) := by
  unfold MeetingPage.startPullingPeerStream
  obtain ⟨s1, r, hens, hensure, hlookup⟩ : ∃ s1 r, s.ensurePeer u = (s1, r) ∧ Harmless s s1 ∧
      s1.peers.lookup u = some r := ⟨_, _, rfl, ensurePeer h u, lookup_ensurePeer s u⟩
  rw [hens]
  dsimp only
  have hforce : ∃ s2, (if force then (s1.stopPeerPull r kind).setPulling r kind false else s1) = s2 ∧
      Harmless s1 s2 ∧ s2.peers = s1.peers := by
    refine ⟨_, rfl, ?_⟩
    split_ifs
    · have hstop := stopPeerPull hensure.sound r kind
      exact ⟨hstop.trans (setPulling hstop.sound _ _ _), peers_stopPeerPull⟩
    · exact ⟨refl hensure.sound, rfl⟩
  obtain ⟨s2, heq, hharm, hpeers⟩ := hforce
  rw [heq]
  split_ifs
  · exact hensure.trans hharm
  · exact hensure.trans hharm
  · rw [← hpeers] at hlookup
    exact (hensure.trans hharm).trans (startPull hharm.sound hlookup kind preemptive)

/-! ### The handlers -/

theorem Harmless.notePeerStreamKind (h : s.Sound) (u : UserID) (kind : Kind) :
    Harmless s (s.notePeerStreamKind u kind) := by
  unfold MeetingPage.notePeerStreamKind
  split_ifs
  · exact refl h
  · have hensure := ensurePeer h u
    refine hensure.trans (notes hensure.sound (fun _ => rfl) (fun _ _ => le_rfl) ?_)
    exact fun _ _ hcur => hcur

theorem Harmless.joined (h : s.Sound) (peers : List (UserID × List Kind)) :
    Harmless s (s.joined peers) := by
  refine foldl (fun h peer => ?_) peers h
  have hensure := ensurePeer h peer.1
  refine hensure.trans (foldl (fun h kind => ?_) peer.2 hensure.sound)
  have hnote := notePeerStreamKind h peer.1 kind
  exact hnote.trans (startPullingPeerStream hnote.sound _ _ _ _)

theorem Harmless.peerStreamStarted (h : s.Sound) (u : UserID) (kind : Kind) :
    Harmless s (s.peerStreamStarted u kind) := by
  have hnote := notePeerStreamKind h u kind
  have hensure := hnote.trans (ensurePeer hnote.sound u)
  exact hensure.trans (startPullingPeerStream hensure.sound _ _ _ _)

theorem Harmless.peerStreamStopped (h : s.Sound) (u : UserID) (kind : Kind) :
    Harmless s (s.peerStreamStopped u kind) := by
  unfold MeetingPage.peerStreamStopped
  split
  · exact stopPeerPull h _ _
  · exact refl h

theorem Harmless.retryExistingPeerPulls (h : s.Sound) : Harmless s s.retryExistingPeerPulls :=
  foldl (fun h _ => foldl (fun h _ => startPullingPeerStream h _ _ _ _) _ h) _ h

theorem Harmless.connectionFailed (h : s.Sound) (pc : PC) : Harmless s (s.connectionFailed pc) := by
  unfold MeetingPage.connectionFailed
  cases s.conn pc with
  | none => exact refl h
  | some c =>
    have hstop : ∀ n, Harmless s ((s.setFailRetries c.peer c.kind n).stopPeerPull c.peer c.kind) :=
      fun n =>
        have hretries := setFailRetries h c.peer c.kind n
        hretries.trans (stopPeerPull hretries.sound _ _)
    dsimp only
    by_cases hclosed : c.closed = true
    · rw [if_pos hclosed]
      exact refl h
    rw [if_neg hclosed]
    by_cases hgen : (s.entry c.peer).pullGen c.kind ≠ c.pullGen
    · rw [if_pos hgen]
      exact refl h
    rw [if_neg hgen]
    by_cases hpc : (s.entry c.peer).pc c.kind ≠ if c.returned then some pc else none
    · rw [if_pos hpc]
      exact refl h
    rw [if_neg hpc]
    split
    · exact hstop _
    · exact (hstop _).trans (startPullingPeerStream (hstop _).sound _ _ _ _)

theorem Harmless.slept (h : s.Sound) (id : PullId) : Harmless s (s.slept id) := by
  unfold MeetingPage.slept
  cases hp : s.pull id with
  | none => exact refl h
  | some p =>
    dsimp only
    split
    · have hfit := h.fit hp
      exact attemptPull h ⟨hfit.id_lt, hfit.peer_lt, hfit.owner, hfit.pullGen, hfit.alone⟩
    · exact refl h

theorem Harmless.forget (h : s.Sound) (id : PullId) : Harmless s (s.setPull id none) := by
  have hcases : ∀ {id' p'}, (s.setPull id none).pull id' = some p' → s.pull id' = some p' := by
    intro id' p' hp'
    rw [pull_setPull] at hp'
    split_ifs at hp'
    exact hp'
  refine ⟨⟨h.peerFresh, h.peerInj, h.connFresh, h.connOwner, fun hp => h.pullFresh (hcases hp),
    fun hp => h.pullOwner (hcases hp), fun hp => h.pullGen (hcases hp),
    fun h1 h2 => h.pullInj (hcases h1) (hcases h2), fun hp => h.playing (hcases hp),
    fun hp => h.vacant (hcases hp), h.stored, h.storedOpen⟩, fun hk => hk, ?_⟩
  exact fun u r kind pc hu hk => ⟨hu, hk⟩

theorem Harmless.settled (h : s.Sound) (id : PullId) : Harmless s (s.settled id) := by
  unfold MeetingPage.settled
  cases s.pull id with
  | none => exact refl h
  | some p =>
    dsimp only
    split
    · exact (forget h id).trans (setPulling (forget h id).sound _ _ _)
    · exact refl h

section Playing

variable (h : s.Sound) (hp : s.pull id = some p) (hphase : p.phase = .playing pc)
include h hp hphase

theorem not_stored_of_playing (r : PeerRef) (kind : Kind) : (s.entry r).pc kind ≠ some pc := by
  intro hk
  obtain ⟨c, hc, hret, -⟩ := h.stored hk
  rw [h.playing hp hphase] at hc
  rw [← Option.some.inj hc] at hret
  cases hret

section Leaving

variable {phase : PullPhase} (hleft : ∀ pc, phase ≠ .playing pc)
include hleft

/-- Once its pull has left `playStream`, no pull has the connection. -/
theorem idle_of_left : ∀ {id' p'}, (s.setPull id (some { p with phase := phase })).pull id' = some p' →
    p'.phase ≠ .playing pc := by
  intro id' p' hp' hphase'
  rw [pull_setPull] at hp'
  split_ifs at hp' with he
  · rw [← Option.some.inj hp'] at hphase'
    exact hleft pc hphase'
  · have hplay := h.playing hp' hphase'
    rw [h.playing hp hphase] at hplay
    simp only [Option.some.injEq, Conn.mk.injEq, and_true] at hplay
    obtain ⟨hpeer, -, hkind, hgen⟩ := hplay
    exact he (h.pullInj hp' hp hpeer.symm hkind.symm hgen.symm)

theorem Harmless.leavePlay : Harmless s (s.setPull id (some { p with phase := phase })) := by
  have hfit := h.fit hp
  have hbusy : p.phase ≠ .ended := by
    rw [hphase]
    exact PullPhase.noConfusion
  refine setPull h ⟨hfit.id_lt, hfit.peer_lt, hfit.owner, hfit.pullGen, hfit.alone⟩ hleft ?_
  intro _ hcur
  have hvacant := h.vacant hp hbusy hcur
  exact hvacant

/-- The pull goes on without its connection, which is closed. -/
theorem Harmless.giveUp :
    Harmless s ((s.closePC pc).setPull id (some { p with phase := phase })) := by
  have hclose : ((s.setPull id (some { p with phase := phase })).closePC pc).Sound :=
    (leavePlay h hp hphase hleft).sound.closePC (idle_of_left h hp hphase hleft)
      fun _ => not_stored_of_playing h hp hphase _ _
  refine ⟨hclose, fun hk pc' c' hc hret hopen => ?_, fun u r kind pc' hu hk => ⟨hu, hk⟩⟩
  change (s.closePC pc).conn pc' = some c' at hc
  rw [closePC, conn_modifyConn] at hc
  split_ifs at hc
  · obtain ⟨c, -, rfl⟩ := Option.map_eq_some_iff.1 hc
    cases hopen
  · exact hk pc' c' hc hret hopen

end Leaving

end Playing

theorem Harmless.playFailed (h : s.Sound) (id : PullId) : Harmless s (s.playFailed id) := by
  unfold MeetingPage.playFailed
  cases hp : s.pull id with
  | none => exact refl h
  | some p =>
    dsimp only
    cases hphase : p.phase with
    | playing pc =>
      refine giveUp h hp hphase fun pc' => ?_
      split_ifs <;> exact PullPhase.noConfusion
    | sleeping => exact refl h
    | ended => exact refl h

theorem Sound.store (h : s.Sound) (hc : s.conn pc = some c) (hret : c.returned = true)
    (hopen : c.closed = false) (hpeer : c.peer = r) (hkind : c.kind = kind)
    (hover : ∀ {id p}, s.pull id = some p → p.peer = r → p.kind = kind →
      (s.entry r).pullGen kind = p.pullGen → p.phase = .ended) :
    (s.setPC r kind (some pc)).Sound := by
  refine ⟨h.peerFresh, h.peerInj, h.connFresh, h.connOwner, h.pullFresh, h.pullOwner, ?_,
    h.pullInj, h.playing, ?_, ?_, ?_⟩
  · intro id p hp
    rw [pullGen_setPC]
    exact h.pullGen hp
  · intro id p hp hphase hcur
    rw [pullGen_setPC] at hcur
    rw [pc_setPC]
    split_ifs with he
    · refine absurd (hover hp he.1 he.2 ?_) hphase
      rw [← he.1, ← he.2]
      exact hcur
    · exact h.vacant hp hphase hcur
  · intro r' kind' pc' hk
    rw [pc_setPC] at hk
    split_ifs at hk with he
    · rw [← Option.some.inj hk]
      exact ⟨c, hc, hret, hpeer.trans he.1.symm, hkind.trans he.2.symm⟩
    · exact h.stored hk
  · intro u r' kind' pc' c' hu hk hc'
    change s.conn pc' = some c' at hc'
    rw [pc_setPC] at hk
    split_ifs at hk with he
    · rw [← Option.some.inj hk, hc] at hc'
      rw [← Option.some.inj hc']
      exact hopen
    · exact h.storedOpen hu hk hc'

/-! ### A connection comes back -/

section Played

variable (h : s.Sound) (hp : s.pull id = some p) (hphase : p.phase = .playing pc)
include hp hphase

theorem played_stale_eq (hgen : (s.entry p.peer).pullGen p.kind ≠ p.pullGen) :
    s.played id = ((s.setPull id (some { p with phase := .ended })).setReturned pc).closePC pc := by
  have hgen' : ((s.setReturned pc).entry p.peer).pullGen p.kind ≠ p.pullGen := hgen
  rw [played, hp]
  simp only [hphase]
  rw [if_pos hgen']
  rfl

theorem played_current_eq (hgen : (s.entry p.peer).pullGen p.kind = p.pullGen) :
    s.played id = (((s.setPull id (some { p with phase := .ended })).setReturned pc).setFailRetries
      p.peer p.kind 0).setPC p.peer p.kind (some pc) := by
  have hgen' : ¬((s.setReturned pc).entry p.peer).pullGen p.kind ≠ p.pullGen := not_not.2 hgen
  rw [played, hp]
  simp only [hphase]
  rw [if_neg hgen']
  rfl

include h

theorem Sound.returned :
    ((s.setPull id (some { p with phase := .ended })).setReturned pc).Sound := by
  have hleft : ∀ pc, PullPhase.ended ≠ .playing pc := fun _ => PullPhase.noConfusion
  have hover := (Harmless.leavePlay h hp hphase hleft).sound
  refine hover.modifyConn (fun _ => ⟨rfl, rfl, rfl⟩) (fun _ _ => rfl)
    (idle_of_left h hp hphase hleft) ?_
  exact fun _ hk _ => absurd hk (not_stored_of_playing h hp hphase _ _)

/-- A connection that comes too late is closed. -/
theorem Harmless.played_stale (hgen : (s.entry p.peer).pullGen p.kind ≠ p.pullGen) :
    Harmless s (s.played id) := by
  rw [played_stale_eq hp hphase hgen]
  have hret := h.returned hp hphase
  have hleft : ∀ pc, PullPhase.ended ≠ .playing pc := fun _ => PullPhase.noConfusion
  refine ⟨hret.closePC (idle_of_left h hp hphase hleft)
    fun _ => not_stored_of_playing h hp hphase _ _, fun hk pc' c' hc hret hopen => ?_,
    fun u r kind pc' hu hk => ⟨hu, hk⟩⟩
  change (((s.setReturned pc).closePC pc).conn pc') = some c' at hc
  rw [closePC, conn_modifyConn] at hc
  split_ifs at hc with he
  · obtain ⟨c, -, rfl⟩ := Option.map_eq_some_iff.1 hc
    cases hopen
  · rw [setReturned, conn_modifyConn, if_neg he] at hc
    exact hk pc' c' hc hret hopen

theorem conn_played (hgen : (s.entry p.peer).pullGen p.kind = p.pullGen) :
    (s.played id).conn pc' =
      if pc' = pc then
        some { peer := p.peer, userId := p.userId, kind := p.kind, pullGen := p.pullGen
               returned := true }
      else s.conn pc' := by
  rw [played_current_eq hp hphase hgen]
  change (s.setReturned pc).conn pc' = _
  rw [setReturned, conn_modifyConn, h.playing hp hphase]
  rfl

omit h in
theorem pc_played (hgen : (s.entry p.peer).pullGen p.kind = p.pullGen) :
    ((s.played id).entry r).pc kind =
      if r = p.peer ∧ kind = p.kind then some pc else (s.entry r).pc kind := by
  rw [played_current_eq hp hphase hgen, pc_setPC, pc_setFailRetries]
  rfl

omit h in
theorem peers_played (hgen : (s.entry p.peer).pullGen p.kind = p.pullGen) :
    (s.played id).peers = s.peers := by
  rw [played_current_eq hp hphase hgen]
  rfl

theorem Sound.played_current (hgen : (s.entry p.peer).pullGen p.kind = p.pullGen) :
    (s.played id).Sound := by
  rw [played_current_eq hp hphase hgen]
  have hret := (Harmless.setFailRetries (h.returned hp hphase) p.peer p.kind 0).sound
  have hconn : (s.setReturned pc).conn pc = some
      { peer := p.peer, userId := p.userId, kind := p.kind, pullGen := p.pullGen
        returned := true } := by
    rw [setReturned, conn_modifyConn, if_pos rfl, h.playing hp hphase]
    rfl
  refine hret.store hconn rfl rfl rfl rfl fun {id' p'} hp' hpeer hkind hgen' => ?_
  change (s.setPull id _).pull id' = some p' at hp'
  rw [pull_setPull] at hp'
  split_ifs at hp' with he
  · rw [← Option.some.inj hp']
  · refine absurd (h.pullInj hp' hp hpeer hkind ?_) he
    rw [setFailRetries, entry_modifyEntry, if_pos rfl] at hgen'
    exact hgen'.symm.trans hgen

end Played

theorem played_idle (hidle : ∀ p pc, s.pull id = some p → p.phase ≠ .playing pc) :
    s.played id = s := by
  rw [played]
  cases hp : s.pull id with
  | none => rfl
  | some p =>
    dsimp only
    cases hphase : p.phase with
    | playing pc => exact absurd hphase (hidle p pc hp)
    | sleeping => rfl
    | ended => rfl

/-! ### A peer leaves -/

theorem conn_closeStream : (s.closeStream r kind).conn pc =
    if (s.entry r).pc kind = some pc then (s.conn pc).map ({ · with closed := true })
    else s.conn pc := by
  unfold closeStream
  cases hk : (s.entry r).pc kind with
  | none => rfl
  | some pc' =>
    dsimp only
    rw [closePC, conn_modifyConn]
    by_cases he : pc = pc'
    · subst he
      rw [if_pos rfl, if_pos rfl]
    · rw [if_neg he, if_neg fun hs => he (Option.some.inj hs).symm]

theorem entry_closeStream : (s.closeStream r kind).entry = s.entry := by
  unfold closeStream
  split <;> rfl

theorem peers_closeStream : (s.closeStream r kind).peers = s.peers := by
  unfold closeStream
  split <;> rfl

def forgetPeer (s : MeetingPage) (u : UserID) : MeetingPage := { s with peers := s.peers.erase u }

theorem closeStream_forgetPeer :
    (s.forgetPeer u).closeStream r kind = (s.closeStream r kind).forgetPeer u := by
  unfold closeStream forgetPeer
  dsimp only
  cases (s.entry r).pc kind <;> rfl

theorem lookup_forgetPeer {u' : UserID} (hu : (s.forgetPeer u).peers.lookup u' = some r) :
    u' ≠ u ∧ s.peers.lookup u' = some r :=
  GoMap.lookup_erase_eq_some.1 hu

theorem Sound.forgetPeer (h : s.Sound) (u : UserID) : (s.forgetPeer u).Sound :=
  ⟨fun hu => h.peerFresh (lookup_forgetPeer hu).2,
    fun h1 h2 => h.peerInj (lookup_forgetPeer h1).2 (lookup_forgetPeer h2).2, h.connFresh,
    fun hc hu => h.connOwner hc (lookup_forgetPeer hu).2, h.pullFresh,
    fun hp hu => h.pullOwner hp (lookup_forgetPeer hu).2, h.pullGen, h.pullInj, h.playing,
    h.vacant, h.stored, fun hu => h.storedOpen (lookup_forgetPeer hu).2⟩

/-- Closing a stream of an entry that `state.peers` has forgotten. -/
theorem Sound.closeStream (h : s.Sound) (hr : ∀ u, s.peers.lookup u ≠ some r) (kind : Kind) :
    (s.closeStream r kind).Sound := by
  unfold MeetingPage.closeStream
  cases hk : (s.entry r).pc kind with
  | none => exact h
  | some pc =>
    obtain ⟨c, hc, hret, hpeer, -⟩ := h.stored hk
    refine h.closePC (h.idle_of_returned hc hret) fun {u r' kind'} hu hk' => ?_
    obtain ⟨c', hc', -, hpeer', -⟩ := h.stored hk'
    rw [hc] at hc'
    rw [← hpeer', ← Option.some.inj hc', hpeer] at hu
    exact hr u hu

theorem peerLeft_eq (hu : s.peers.lookup u = some r) :
    s.peerLeft u = ((s.forgetPeer u).closeStream r "cam").closeStream r "screen" := by
  rw [peerLeft, hu, closeStream_forgetPeer, closeStream_forgetPeer]
  rfl

theorem peerLeft_eq_none (hu : s.peers.lookup u = none) : s.peerLeft u = s.forgetPeer u := by
  rw [peerLeft, hu]
  rfl

theorem Sound.peerLeft (h : s.Sound) (u : UserID) : (s.peerLeft u).Sound := by
  cases hu : s.peers.lookup u with
  | none =>
    rw [peerLeft_eq_none hu]
    exact h.forgetPeer u
  | some r =>
    have hgone : ∀ u', (s.forgetPeer u).peers.lookup u' ≠ some r := fun u' hu' =>
      (lookup_forgetPeer hu').1 (h.peerInj (lookup_forgetPeer hu').2 hu)
    rw [peerLeft_eq hu]
    refine ((h.forgetPeer u).closeStream hgone "cam").closeStream ?_ "screen"
    rw [peers_closeStream]
    exact hgone

theorem Sound.step (h : s.Sound) (l : MeetingLabel) : (s.step l).Sound := by
  cases l with
  | joined peers => exact (Harmless.joined h peers).sound
  | peerJoined u => exact (Harmless.ensurePeer h u).sound
  | peerLeft u => exact h.peerLeft u
  | peerState u => exact (Harmless.ensurePeer h u).sound
  | peerStreamStarted u kind => exact (Harmless.peerStreamStarted h u kind).sound
  | peerStreamStopped u kind => exact (Harmless.peerStreamStopped h u kind).sound
  | connectionFailed pc => exact (Harmless.connectionFailed h pc).sound
  | retryExistingPeerPulls => exact (Harmless.retryExistingPeerPulls h).sound
  | playFailed id => exact (Harmless.playFailed h id).sound
  | slept id => exact (Harmless.slept h id).sound
  | settled id => exact (Harmless.settled h id).sound
  | played id =>
    by_cases hplay : ∃ p pc, s.pull id = some p ∧ p.phase = .playing pc
    · obtain ⟨p, pc, hp, hphase⟩ := hplay
      by_cases hgen : (s.entry p.peer).pullGen p.kind = p.pullGen
      · exact h.played_current hp hphase hgen
      · exact (Harmless.played_stale h hp hphase hgen).sound
    · change (s.played id).Sound
      rw [played_idle fun p pc hp hphase => hplay ⟨p, pc, hp, hphase⟩]
      exact h

end MeetingPage

end Meetkit
