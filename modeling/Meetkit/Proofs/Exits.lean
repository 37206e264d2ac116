import Meetkit.Proofs.ExitSteps

/-! The calls that take a client out of a room. The test and deletion in `removeClient` lets
one of them through for every insertion; what the others do for the client ends
there. -/

namespace Meetkit

namespace Exits

variable {s : Exits} {n : ℕ} {x : Trigger} {r : RoomRef}

/-! ### Every run -/

def attends (c : UserID) (r : RoomRef) : Reader Note Bool :=
  Reader.isOpen (Note.arrives c r) (Note.departs c r)

structure Sound (s : Exits) : Prop where
  members : ∀ r c, c ∈ (s.hub.room r).clients → r < s.hub.nextRoom
  table : ∀ id r, s.hub.rooms.lookup id = some r → r < s.hub.nextRoom
  entry : ∀ c r, (s.entry c).target = some r → r < s.hub.nextRoom
  present : ∀ c r, (attends c r).read s.log = decide (c ∈ (s.hub.room r).clients)
  /-- Who is taken out is there, and who is missed is not. -/
  checked : ∀ c r, (attends c r).Checked
    (fun b e => (e.departs c r = true → b = true) ∧ (e.misses c r = true → b = false)) s.log
  account : ∀ n x, s.triggers[n]? = some x → Account s.hub s.log n x
  fresh : ∀ n, s.triggers.length ≤ n → ∀ e ∈ s.log, e.ofCall n = false

theorem attends_ignores {e : Note} (h : e.Still s.hub) (c : UserID) (r : RoomRef) (b : Bool) :
    (attends c r).next b e = b :=
  Reader.isOpen_ignores (h c r).1 (h c r).2.1 b

theorem attends_still {es : List Note} {c : UserID} (hes : ∀ e ∈ es, e.Still s.hub) :
    (attends c r).read (s.log ++ es) = (attends c r).read s.log :=
  Reader.read_append_ignored fun e he => attends_ignores (hes e he) c r

theorem Sound.checked_still {es : List Note} {c : UserID} (hs : s.Sound)
    (hes : ∀ e ∈ es, e.Still s.hub) : (attends c r).Checked
      (fun b e => (e.departs c r = true → b = true) ∧ (e.misses c r = true → b = false))
      (s.log ++ es) := by
  refine (hs.checked c r).append (fun e he => attends_ignores (hes e he) c r) fun e he => ⟨fun h => ?_, fun h => ?_⟩
  · rw [(hes e he c r).2.1] at h
    cases h
  · rw [hs.present]
    exact decide_eq_false ((hes e he c r).2.2 h)

/-- A step that is nobody's among the calls and lets nobody in. -/
theorem Sound.quiet {s' : Exits} {es : List Note} (hs : s.Sound) (hlog : s'.log = s.log ++ es)
    (htriggers : s'.triggers = s.triggers) (hsteady : s.hub.Steady s'.hub)
    (hm : ∀ c, s.collecting c = true → s.hub.KeepsMedia s'.hub c)
    (hroom : ∀ r, (s'.hub.room r).clients = (s.hub.room r).clients)
    (htable : ∀ id r, s'.hub.rooms.lookup id = some r → r < s'.hub.nextRoom)
    (hentry : ∀ c r, (s'.entry c).target = some r → r < s'.hub.nextRoom)
    (hes : ∀ e ∈ es, (∀ n, e.ofCall n = false) ∧ e.Still s.hub) :
    s'.Sound where
  members r c hc := lt_of_lt_of_le (hs.members r c (hroom r ▸ hc)) hsteady.nextRoom
  table := htable
  entry := hentry
  present c r := by
    rw [hlog, attends_still fun e he => (hes e he).2, hs.present, hroom]
  checked c r := by
    rw [hlog]
    exact hs.checked_still fun e he => (hes e he).2
  account n x hx := by
    rw [htriggers] at hx
    rw [hlog]
    refine (hs.account n x hx).aside hsteady (fun hc => hm _ ?_) fun e he => (hes e he).1 n
    exact List.any_eq_true.2 ⟨x, List.mem_of_getElem? hx, by simp [hc]⟩
  fresh n hn e he := by
    rw [htriggers] at hn
    rw [hlog] at he
    rcases List.mem_append.1 he with he | he
    · exact hs.fresh n hn e he
    · exact (hes e he).1 n

theorem Sound.inserted {s' : Exits} {c : UserID} (hs : s.Sound) (hr : r < s.hub.nextRoom)
    (hlog : s'.log = s.log ++ [.arrived c r]) (htriggers : s'.triggers = s.triggers)
    (hhub : s'.hub = s.hub.addTo r c)
    (hentry : ∀ d t, (s'.entry d).target = some t → t < s.hub.nextRoom) : s'.Sound where
  members t d hd := by
    rw [hhub] at hd ⊢
    rcases Hub.mem_addTo.1 hd with hd | ⟨rfl, rfl⟩
    · exact hs.members t d hd
    · exact hr
  table := by rw [hhub]; exact hs.table
  entry := by rw [hhub]; exact hentry
  present d t := by
    rw [hlog, Reader.read_snoc, hs.present, hhub]
    by_cases hdt : c = d ∧ r = t
    · obtain ⟨rfl, rfl⟩ := hdt
      have hmem : c ∈ ((s.hub.addTo r c).room r).clients := Hub.mem_addTo.2 (Or.inr ⟨rfl, rfl⟩)
      simp [attends, Reader.isOpen, Note.arrives, hmem]
    · have hiff : d ∈ ((s.hub.addTo r c).room t).clients ↔ d ∈ (s.hub.room t).clients := by
        rw [Hub.mem_addTo]
        exact or_iff_left fun h => hdt ⟨h.2.symm, h.1.symm⟩
      have harr : Note.arrives d t (.arrived c r) = false := by
        simpa [Note.arrives] using hdt
      simp only [attends, Reader.isOpen, harr, Note.departs, hiff]
      simp
  checked d t := by
    rw [hlog]
    exact (hs.checked d t).snoc ⟨fun h => (by cases h), fun h => (by cases h)⟩
  account n x hx := by
    rw [htriggers] at hx
    rw [hlog, hhub]
    exact (hs.account n x hx).aside (s.hub.steady_addTo c r) (fun _ => .same rfl) (by
      simp [Note.ofCall, Note.stage])
  fresh n hn e he := by
    rw [htriggers] at hn
    rw [hlog] at he
    rcases List.mem_append.1 he with he | he
    · exact hs.fresh n hn e he
    · obtain rfl := List.mem_singleton.1 he
      rfl

theorem Sound.acts {s' : Exits} {x' : Trigger} {es : List Note} (hs : s.Sound)
    (hx : s.triggers[n]? = some x) (ha : Acts s n x s' x' es) : s'.Sound := by
  have hlt : n < s.triggers.length := (List.getElem?_eq_some_iff.1 hx).1
  have haccount : ∀ m y, s'.triggers[m]? = some y → Account s'.hub s'.log m y := by
    intro m y hy
    rw [ha.triggers] at hy
    by_cases hm : m = n
    · subst hm
      rw [List.getElem?_set_self hlt] at hy
      obtain rfl := Option.some.inj hy
      exact ha.account
    · rw [List.getElem?_set_ne (Ne.symm hm)] at hy
      rw [ha.log]
      exact (hs.account m y hy).aside ha.steady (fun _ => ha.media _) (ha.others m hm)
  have hfresh : ∀ m, s'.triggers.length ≤ m → ∀ e ∈ s'.log, e.ofCall m = false := by
    intro m hm e he
    rw [ha.triggers, List.length_set] at hm
    rw [ha.log] at he
    rcases List.mem_append.1 he with he | he
    · exact hs.fresh m hm e he
    · exact ha.others m (by omega) e he
  have htable : ∀ id r, s'.hub.rooms.lookup id = some r → r < s'.hub.nextRoom := fun id r hl =>
    lt_of_lt_of_le (hs.table id r (ha.table id r hl)) ha.steady.nextRoom
  have hentry : ∀ c r, (s'.entry c).target = some r → r < s'.hub.nextRoom := by
    intro c r hc
    rw [ha.entry] at hc
    exact lt_of_lt_of_le (hs.entry c r hc) ha.steady.nextRoom
  rcases ha.attendance with ⟨hroom, hes⟩ | ⟨t, streams, recordings, -, hmem, rfl, hhub⟩
  · refine ⟨fun r c hc => ?_, htable, hentry, fun c r => ?_, fun c r => ?_, haccount, hfresh⟩
    · rw [hroom] at hc
      exact lt_of_lt_of_le (hs.members r c hc) ha.steady.nextRoom
    · rw [ha.log, attends_still hes, hs.present, hroom]
    · rw [ha.log]
      exact hs.checked_still hes
  · refine ⟨fun r c hc => ?_, htable, hentry, fun c r => ?_, fun c r => ?_, haccount, hfresh⟩
    · rw [hhub] at hc
      exact lt_of_lt_of_le (hs.members r c (Hub.mem_removeFrom.1 hc).1) ha.steady.nextRoom
    · rw [ha.log, Reader.read_snoc, hs.present, hhub]
      by_cases hct : x.client = c ∧ t = r
      · obtain ⟨rfl, rfl⟩ := hct
        have hgone : x.client ∉ ((s.hub.removeFrom t x.client).room t).clients := fun h =>
          (Hub.mem_removeFrom.1 h).2 ⟨rfl, rfl⟩
        simp [attends, Reader.isOpen, Note.arrives, Note.departs, hgone]
      · have hiff : c ∈ ((s.hub.removeFrom t x.client).room r).clients ↔ c ∈ (s.hub.room r).clients := by
          rw [Hub.mem_removeFrom]
          exact and_iff_left fun h => hct ⟨h.2.symm, h.1.symm⟩
        have hdep : Note.departs c r (.departed n x.client t streams recordings) = false := by
          simpa [Note.departs] using hct
        simp only [attends, Reader.isOpen, Note.arrives, hdep, hiff]
        simp
    · rw [ha.log]
      refine (hs.checked c r).snoc ⟨fun hdep => ?_, fun h => (by cases h)⟩
      simp only [Note.departs, Bool.and_eq_true, decide_eq_true_eq] at hdep
      obtain ⟨rfl, rfl⟩ := hdep
      rw [hs.present]
      exact decide_eq_true hmem

theorem getOrCreateRoom_known {h : Hub} (id : RoomID) (mode : RoomMode)
    (hmembers : ∀ r c, c ∈ (h.room r).clients → r < h.nextRoom)
    (htable : ∀ id r, h.rooms.lookup id = some r → r < h.nextRoom) :
    h.Steady (h.getOrCreateRoom id mode).1 ∧
      (∀ r, ((h.getOrCreateRoom id mode).1.room r).clients = (h.room r).clients) ∧
      (∀ id' r, (h.getOrCreateRoom id mode).1.rooms.lookup id' = some r →
        r < (h.getOrCreateRoom id mode).1.nextRoom) ∧
      (h.getOrCreateRoom id mode).2 < (h.getOrCreateRoom id mode).1.nextRoom := by
  unfold Hub.getOrCreateRoom
  cases hl : h.rooms.lookup id with
  | some r => exact ⟨.refl h, fun _ => rfl, htable, htable id r hl⟩
  | none =>
    have hempty : (h.room h.nextRoom).clients = [] :=
      List.eq_nil_iff_forall_not_mem.2 fun c hc => lt_irrefl _ (hmembers _ c hc)
    refine ⟨⟨Nat.le_succ _, fun r hr => ?_⟩, fun r => ?_, fun id' r hr => ?_, Nat.lt_succ_self _⟩
    · dsimp only
      rw [Function.update_of_ne hr.ne]
    · dsimp only
      rw [Function.update_apply]
      split_ifs with hr
      · rw [hr, hempty]
      · rfl
    · dsimp only at hr ⊢
      rw [GoMap.lookup_insert_iff] at hr
      split_ifs at hr
      · obtain rfl := Option.some.inj hr
        exact Nat.lt_succ_self _
      · exact Nat.lt_succ_of_lt (htable id' r hr)

theorem setEntry_target {c d : UserID} {next : EntryStep} {k : RoomRef}
    (hold : ∀ d r, (s.entry d).target = some r → r < k) (hnext : ∀ r, next.target = some r → r < k)
    (h : ((s.setEntry c next).entry d).target = some r) : r < k := by
  by_cases hd : d = c
  · subst hd
    have hsame : (s.setEntry d next).entry d = next := Function.update_self ..
    rw [hsame] at h
    exact hnext r h
  · have hother : (s.setEntry c next).entry d = s.entry d := Function.update_of_ne hd ..
    rw [hother] at h
    exact hold d r h

theorem Sound.moves {s' : Exits} {es : List Note} {c : UserID} {next : EntryStep} (hs : s.Sound)
    (hlog : s'.log = s.log ++ es) (htriggers : s'.triggers = s.triggers) (hentry : s'.entry = s.entry)
    (hsteady : s.hub.Steady s'.hub) (hm : ∀ d, s.hub.KeepsMedia s'.hub d)
    (hroom : ∀ r, (s'.hub.room r).clients = (s.hub.room r).clients)
    (htable : ∀ id r, s'.hub.rooms.lookup id = some r → r < s'.hub.nextRoom)
    (hnext : ∀ r, next.target = some r → r < s'.hub.nextRoom)
    (hes : ∀ e ∈ es, (∀ n, e.ofCall n = false) ∧ e.Still s.hub) :
    (s'.setEntry c next).Sound := by
  refine hs.quiet hlog htriggers hsteady (fun d _ => hm d) hroom htable (fun d r hd => ?_) hes
  refine setEntry_target (fun d t ht => ?_) hnext hd
  rw [hentry] at ht
  exact lt_of_lt_of_le (hs.entry d t ht) hsteady.nextRoom

theorem sent_none (s : Exits) (l : List UserID) (msg : ServerMsg) :
    ∀ e ∈ l.map fun d => Note.sent none d msg, (∀ n, e.ofCall n = false) ∧
      e.Still s.hub := by
  intro e he
  refine ⟨fun n => ofCall_sent (by simp) msg e he, ?_⟩
  obtain ⟨b, -, rfl⟩ := List.mem_map.1 he
  exact fun _ _ => ⟨rfl, rfl, fun h => (by cases h)⟩

theorem Sound.enter (hs : s.Sound) (c : UserID) (ord : MapOrder) : (s.enter c ord).Sound := by
  have hstill : ∀ next : EntryStep, next.target = none → (s.setEntry c next).Sound := by
    intro next hnext
    exact hs.moves (List.append_nil _).symm rfl rfl (.refl _) (fun _ => .same rfl) (fun _ => rfl) hs.table
      (fun r hr => by rw [hnext] at hr; cases hr) (by simp)
  have hattach : ∀ (r : RoomRef) (next : EntryStep), next.target = none →
      ((s.setHub (s.hub.setClient c fun x => { x with room := some r })).setEntry c next).Sound := by
    intro r next hnext
    refine hs.moves (List.append_nil _).symm rfl rfl ⟨le_rfl, fun _ _ => rfl⟩ (fun _ => ?_)
      (fun _ => rfl) hs.table (fun r hr => by rw [hnext] at hr; cases hr) (by simp)
    rw [setHub_hub]
    exact Hub.keepsMedia_setClient fun _ => Or.inl ⟨rfl, rfl⟩
  have hsend : ∀ (l : List UserID) (msg : ServerMsg) (next : EntryStep), next.target = none →
      ((s.sendAll none l msg).setEntry c next).Sound := by
    intro l msg next hnext
    exact hs.moves rfl rfl rfl (.refl _) (fun _ => .same rfl) (fun _ => rfl) hs.table
      (fun r hr => by rw [hnext] at hr; cases hr) (sent_none _ _ _)
  cases hc : s.entry c with
  | away => simpa only [Exits.enter, hc] using hs
  | lookup id mode =>
    simp only [Exits.enter, hc]
    obtain ⟨h1, h2, h3, h4⟩ := getOrCreateRoom_known id mode hs.members hs.table
    refine hs.moves (List.append_nil _).symm rfl rfl h1 (fun _ => .same ?_) h2 h3 (fun r hr => ?_)
      (by simp)
    · rw [setHub_hub, Hub.getOrCreateRoom_client]
    · obtain rfl := Option.some.inj hr
      exact h4
  | insert r mode =>
    have hr : r < s.hub.nextRoom := hs.entry c r (by rw [hc]; rfl)
    simp only [Exits.enter, hc]
    split
    · exact hstill _ rfl
    · exact hs.inserted hr rfl rfl rfl fun d t ht =>
        setEntry_target hs.entry (fun _ h => (by cases h)) ht
  | snapshot r =>
    simp only [Exits.enter, hc]
    exact hstill _ rfl
  | joined r peers =>
    simp only [Exits.enter, hc]
    exact hsend _ _ _ rfl
  | peerJoined r =>
    simp only [Exits.enter, hc]
    split_ifs
    · exact hsend _ _ _ rfl
    · exact hstill _ rfl
  | rejected r =>
    simp only [Exits.enter, hc]
    refine hs.moves (List.append_nil _).symm rfl rfl (s.hub.steady_removeRoomIfEmpty r)
      (fun _ => .same ?_) (fun t => ?_) (fun id t hl => ?_) (fun r hr => (by cases hr)) (by simp)
    · rw [setHub_hub, Hub.removeRoomIfEmpty_client]
    · rw [setHub_hub, Hub.removeRoomIfEmpty_room]
    · rw [setHub_hub, Hub.removeRoomIfEmpty_nextRoom]
      exact hs.table id t (Hub.lookup_of_removeRoomIfEmpty hl)
  | observeLookup id =>
    simp only [Exits.enter, hc]
    cases hl : s.hub.getRoom id with
    | none => exact hstill _ rfl
    | some r =>
      exact hs.moves (List.append_nil _).symm rfl rfl (.refl _) (fun _ => .same rfl) (fun _ => rfl)
        hs.table (fun t ht => Option.some.inj ht ▸ hs.table id r hl) (by simp)
  | observeInsert r =>
    have hr : r < s.hub.nextRoom := hs.entry c r (by rw [hc]; rfl)
    simp only [Exits.enter, hc]
    split_ifs
    · exact hstill _ rfl
    · exact hs.inserted hr rfl rfl rfl fun d t ht =>
        setEntry_target hs.entry (fun _ h => (by cases h)) ht
  | observeAttach r =>
    simp only [Exits.enter, hc]
    exact hattach r _ rfl
  | observeSnapshot r =>
    simp only [Exits.enter, hc]
    exact hstill _ rfl
  | observeJoined r peers =>
    simp only [Exits.enter, hc]
    exact hsend _ _ _ rfl
  | attach r =>
    simp only [Exits.enter, hc]
    exact hattach r _ rfl

theorem Sound.start (hs : s.Sound) (c : UserID) {next : ExitStep} (hn : next.early = true) :
    (s.start c next).Sound := by
  refine ⟨hs.members, hs.table, hs.entry, hs.present, hs.checked, fun n x hx => ?_, fun n hn e he => ?_⟩
  · have hx' : (s.triggers ++ [({ client := c, next } : Trigger)])[n]? = some x := hx
    rcases lt_or_ge n s.triggers.length with hlt | hge
    · rw [List.getElem?_append_left hlt] at hx'
      exact hs.account n x hx'
    · have hnew : x = { client := c, next } := by
        rw [List.getElem?_append_right hge] at hx'
        have hmem := List.mem_of_getElem? hx'
        exact List.mem_singleton.1 hmem
      have hquiet := hs.fresh n hge
      subst hnew
      exact .early hn (trail_aside hquiet) ⟨fun d => told_aside hquiet, callsBy_aside hquiet, rfl, rfl, rfl⟩
  · have hn' : (s.triggers ++ [({ client := c, next } : Trigger)]).length ≤ n := hn
    rw [List.length_append] at hn'
    exact hs.fresh n (by omega) e he

theorem first_early (how : SweepKind) : how.first.early = true := by
  cases how <;> rfl

theorem Sound.still {s' : Exits} (hs : s.Sound) (hhub : s'.hub = s.hub) (hlog : s'.log = s.log)
    (htriggers : s'.triggers = s.triggers) (hentry : s'.entry = s.entry) : s'.Sound := by
  refine hs.quiet (by rw [hlog]; exact (List.append_nil _).symm) htriggers ?_ (fun c _ => ?_) ?_ ?_ ?_
    (by simp)
  all_goals rw [hhub]
  · exact .refl _
  · exact .same rfl
  · exact fun _ => rfl
  · exact hs.table
  · rw [hentry]
    exact hs.entry

theorem Sound.step (hs : s.Sound) (l : ExitLabel) : (s.step l).Sound := by
  cases l with
  | write c y =>
    simp only [Exits.step]
    by_cases hc : s.collecting c = true
    · rw [if_pos hc]; exact hs
    · rw [if_neg hc]
      refine hs.quiet (List.append_nil _).symm rfl ⟨le_rfl, fun _ _ => rfl⟩ (fun d hd => .same ?_)
        (fun _ => rfl) hs.table hs.entry (by simp)
      rw [setHub_hub]
      exact Hub.setClient_ne _ _ _ _ fun h => hc (h ▸ hd)
  | join c id mode =>
    simp only [Exits.step]
    split
    · split_ifs
      · exact hs
      · exact hs.moves (List.append_nil _).symm rfl rfl (.refl _) (fun _ => .same rfl) (fun _ => rfl)
          hs.table (fun r hr => (by cases hr)) (by simp)
    · exact hs
  | observe o id =>
    simp only [Exits.step]
    split
    · split_ifs
      · exact hs
      · exact hs.moves (List.append_nil _).symm rfl rfl (.refl _) (fun _ => .same rfl) (fun _ => rfl)
          hs.table (fun r hr => (by cases hr)) (by simp)
    · exact hs
  | enter c ord => exact hs.enter c ord
  | cleanup c => exact hs.start c rfl
  | leave c => exact hs.start c rfl
  | kick id c reason =>
    simp only [Exits.step]
    split
    · exact hs
    · split_ifs
      · exact hs
      · exact hs.start c rfl
  | dissolve id reason ord =>
    simp only [Exits.step]
    split
    · exact hs
    · split_ifs
      · exact hs
      · exact hs.still rfl rfl rfl rfl
      · exact hs.still rfl rfl rfl rfl
  | run n ord =>
    simp only [Exits.step]
    cases hx : s.triggers[n]? with
    | none => exact hs
    | some x =>
      obtain ⟨x', es, ha⟩ := exec_acts ord (hs.account n x hx) hx hs.members
      exact hs.acts hx ha
  | sweep k =>
    simp only [Exits.step, sweep]
    split
    · exact hs
    · split_ifs
      · exact hs
      · split
        · exact hs.still rfl rfl rfl rfl
        · refine Sound.start ?_ _ (first_early _)
          exact hs.still rfl rfl rfl rfl
  | tell n =>
    simp only [Exits.step]
    split
    · exact hs
    · rename_i x hx
      split
      · exact hs
      · rename_i call calls hcalls
        exact hs.acts hx (tell_acts hcalls (hs.account n x hx))

theorem sound (clients : UserID → Client) (is : List ExitLabel) : ((exits clients).run is).Sound := by
  refine Machine.run_invariant ?_ (fun s l hs => hs.step l) is
  refine ⟨fun r c hc => (by cases hc), fun id r hl => (by cases hl), fun c r hr => (by cases hr),
    fun c r => ?_, fun c r => Reader.checked_nil, fun n x hx => (by cases hx), fun n _ e he => (by cases he)⟩
  rfl

end Exits

/-! ### What the notes of a run say -/

section Said

variable {h : Hub} {log : List Note} {n : ℕ} {x : Trigger} {r : RoomRef}

theorem mem_trail {e : Note} : e ∈ trail n log ↔ e ∈ log ∧ e.stage n = true :=
  List.mem_filter

theorem stage_of_departedBy {e : Note} (h : e.departedBy n = true) : e.stage n = true := by
  cases e <;> first | exact h | cases h

theorem countP_departedBy (log : List Note) :
    log.countP (Note.departedBy n) = (trail n log).countP (Note.departedBy n) := by
  rw [trail, List.countP_filter]
  refine List.countP_congr fun e _ => ?_
  rw [Bool.and_eq_true]
  exact ⟨fun h => ⟨h, stage_of_departedBy h⟩, fun h => h.1⟩

theorem ofCall_of_stage {e : Note} (h : e.stage n = true) : e.ofCall n = true := by
  unfold Note.ofCall
  rw [h, Bool.true_or]

theorem stage_departed (n : ℕ) (c : UserID) (r : RoomRef) (streams : GoMap Kind StreamID)
    (recordings : GoMap Kind Bool) :
    (Note.departed n c r streams recordings).stage n = true := decide_eq_true rfl

theorem Account.departed {c : UserID} {streams : GoMap Kind StreamID}
    {recordings : GoMap Kind Bool} (ha : Account h log n x)
    (hmem : .departed n c r streams recordings ∈ trail n log) :
    (trail n log).countP (Note.departedBy n) = 1 ∧ c = x.client ∧
      Departing h log n x r streams recordings := by
  cases ha with
  | early _ ht _ | idle _ ht _ => simp [ht] at hmem
  | found _ ht _ => simp [ht] at hmem
  | missed _ ht _ => simp [ht] at hmem
  | leaving _ ht hd =>
    rw [ht] at hmem ⊢
    simp only [List.mem_cons, List.not_mem_nil, or_false, reduceCtorEq, false_or] at hmem
    obtain ⟨-, rfl, rfl, rfl, rfl⟩ := Note.departed.inj hmem
    exact ⟨by simp [Note.departedBy], rfl, hd⟩
  | left _ ht hd =>
    rw [ht] at hmem ⊢
    simp only [List.mem_cons, List.not_mem_nil, or_false, reduceCtorEq, false_or] at hmem
    obtain ⟨-, rfl, rfl, rfl, rfl⟩ := Note.departed.inj hmem
    exact ⟨by simp [Note.departedBy], rfl, hd⟩

theorem Account.unspent (ha : Account h log n x)
    (hn : ∀ e ∈ log, e.departedBy n = false) : Unspent log n x := by
  have hzero : (trail n log).countP (Note.departedBy n) = 0 := by
    rw [← countP_departedBy, List.countP_eq_zero]
    exact fun e he => by simp [hn e he]
  cases ha with
  | early _ _ hu | found _ _ hu | idle _ _ hu | missed _ _ hu => exact hu
  | leaving _ ht _ | left _ ht _ =>
    rw [ht] at hzero
    simp [Note.departedBy] at hzero

/-- A call that found its client and has returned took it out or missed it. -/
theorem Account.ends {c : UserID} (ha : Account h log n x) (hf : .found n c r ∈ trail n log)
    (hr : .returned n ∈ trail n log) : ∃ e : Note, (e.departs c r = true ∨ e.misses c r = true) ∧
      trail n log = [.found n c r, e, .returned n] ∧ .found n c r ≠ e := by
  cases ha with
  | early _ ht _ | idle _ ht _ => simp [ht] at hf
  | found _ ht _ | leaving _ ht _ => simp [ht] at hr
  | missed _ ht _ =>
    rw [ht] at hf ⊢
    simp only [List.mem_cons, List.not_mem_nil, or_false, reduceCtorEq] at hf
    obtain ⟨-, rfl, rfl⟩ := Note.found.inj hf
    exact ⟨_, Or.inr (by simp [Note.misses]), rfl, by simp⟩
  | left _ ht _ =>
    rw [ht] at hf ⊢
    simp only [List.mem_cons, List.not_mem_nil, or_false, reduceCtorEq] at hf
    obtain ⟨-, rfl, rfl⟩ := Note.found.inj hf
    exact ⟨_, Or.inl (by simp [Note.departs]), rfl, by simp⟩

/-- What lies between the two ends of a list. -/
theorem mem_of_ends {α : Type} {a b c : α} {l m t : List α} (h : [a, b, c] = l ++ (m ++ t))
    (ha : a ∈ m) (hc : c ∈ m) (hab : a ≠ b) (hac : a ≠ c) : b ∈ m := by
  cases l with
  | nil =>
    obtain _ | ⟨x, _ | ⟨y, m⟩⟩ := m
    · cases ha
    · rw [List.mem_singleton] at ha hc
      exact absurd (ha.trans hc.symm) hac
    · obtain ⟨-, htail⟩ := List.cons.inj h
      obtain ⟨rfl, -⟩ := List.cons.inj htail
      simp
  | cons a' l =>
    obtain ⟨rfl, hrest⟩ := List.cons.inj h
    have hmem : a ∈ [b, c] := by
      rw [hrest]
      simp [ha]
    simp [hab, hac] at hmem

end Said

namespace Exits

variable {s : Exits} {n : ℕ} {x : Trigger} {r : RoomRef}

theorem Sound.caller {e : Note} (hs : s.Sound) (he : e ∈ s.log) (hn : e.ofCall n = true) :
    ∃ x, s.triggers[n]? = some x := by
  rcases lt_or_ge n s.triggers.length with hlt | hge
  · exact ⟨_, List.getElem?_eq_getElem hlt⟩
  · rw [hs.fresh n hge e he] at hn
    cases hn

/-- What the call `n` has done for `c`, which had `streams` and `recordings` when it was
taken out of `r`: every stream stopped is told once and before the departure, every
recording is stopped and every stream closed once. -/
def SeenOff (s : Exits) (n : ℕ) (c : UserID) (r : RoomRef) (streams : GoMap Kind StreamID)
    (recordings : GoMap Kind Bool) : Prop :=
  ∃ entries : List (Kind × StreamID), entries.Nodup ∧
    (∀ e ∈ entries, streams.lookup e.1 = some e.2) ∧
    (∀ d, (told n d s.log).Sublist (entries.map (streamStopped c) ++ [.peerLeft c])) ∧
    callsBy n s.log <+: farewell (s.hub.room r).id recordings entries

theorem seenOff_of_departing {streams : GoMap Kind StreamID} {recordings : GoMap Kind Bool}
    (hd : Departing s.hub s.log n x r streams recordings) :
    s.SeenOff n x.client r streams recordings := by
  have hcalls := hd.calls
  rw [hd.plan, List.append_assoc] at hcalls
  exact ⟨x.entries, hd.nodup, hd.held, fun d => (List.sublist_append_left _ _).trans (hd.told d),
    ⟨_, hcalls⟩⟩

theorem Sound.departed {c : UserID} {streams : GoMap Kind StreamID} {recordings : GoMap Kind Bool}
    (hs : s.Sound) (he : .departed n c r streams recordings ∈ s.log) :
    s.log.countP (Note.departedBy n) = 1 ∧ s.SeenOff n c r streams recordings := by
  have hstage := stage_departed n c r streams recordings
  obtain ⟨x, hx⟩ := hs.caller he (ofCall_of_stage hstage)
  obtain ⟨hcount, rfl, hd⟩ := (hs.account n x hx).departed (mem_trail.2 ⟨he, hstage⟩)
  rw [countP_departedBy]
  exact ⟨hcount, seenOff_of_departing hd⟩

/-- A call that takes nobody out tells its client at most, and ZLM nothing. -/
theorem Sound.spent_by_departed (hs : s.Sound) (hn : ∀ e ∈ s.log, e.departedBy n = false) :
    (∀ d, told n d s.log = []) ∧ callsBy n s.log = [] := by
  rcases lt_or_ge n s.triggers.length with hlt | hge
  · have hu := (hs.account n _ (List.getElem?_eq_getElem hlt)).unspent hn
    exact ⟨hu.told, hu.called⟩
  · exact ⟨fun d => told_aside (hs.fresh n hge), callsBy_aside (hs.fresh n hge)⟩

/-! ### Stays -/

/-- From one insertion to the next. -/
theorem Sound.stay {c : UserID} {pre seg post : List Note} (hs : s.Sound)
    (hlog : s.log = pre ++ .arrived c r :: (seg ++ post)) (hseg : ∀ e ∈ seg, e.arrives c r = false) :
    seg.countP (Note.departs c r) ≤ 1 ∧
      ∀ n, .found n c r ∈ seg → .returned n ∈ seg → seg.countP (Note.departs c r) = 1 := by
  have hsplit : s.log = (pre ++ [.arrived c r] ++ seg) ++ post := by simp [hlog]
  have hcheck := hs.checked c r
  have hopen : (attends c r).read (pre ++ [.arrived c r]) = true := by
    rw [Reader.read_snoc]
    simp [attends, Reader.isOpen, Note.arrives]
  have hcount : ∀ {seg' post'}, seg = seg' ++ post' → seg'.countP (Note.departs c r) +
      ((attends c r).read (pre ++ [.arrived c r] ++ seg')).toNat = 1 := by
    rintro seg' post' rfl
    have hleft : s.log = (pre ++ [.arrived c r] ++ seg') ++ (post' ++ post) := by simp [hsplit]
    have h := Reader.closings_eq ((hleft ▸ hcheck).left.mono fun _ _ h => h.1)
      fun e he => hseg e (by simp [he])
    refine h.trans ?_
    exact congrArg Bool.toNat hopen
  have hall := hcount (List.append_nil seg).symm
  refine ⟨by omega, fun n hfound hreturned => ?_⟩
  have hstage : (Note.found n c r).stage n = true := decide_eq_true rfl
  obtain ⟨x, hx⟩ := hs.caller (by simp [hlog, hfound]) (ofCall_of_stage hstage)
  have htrail : trail n s.log = trail n (pre ++ [.arrived c r]) ++ (trail n seg ++ trail n post) := by
    rw [hsplit, trail_append, trail_append, List.append_assoc]
  have hf : .found n c r ∈ trail n seg := mem_trail.2 ⟨hfound, hstage⟩
  have hr : .returned n ∈ trail n seg := mem_trail.2 ⟨hreturned, decide_eq_true rfl⟩
  have hf' : .found n c r ∈ trail n s.log := by rw [htrail]; simp [hf]
  have hr' : .returned n ∈ trail n s.log := by rw [htrail]; simp [hr]
  obtain ⟨e, he, hends, hne⟩ := (hs.account n x hx).ends hf' hr'
  have hmem : e ∈ seg := (mem_trail.1 (mem_of_ends (hends.symm.trans htrail) hf hr hne (by simp))).1
  rcases he with he | he
  · have hpos := List.countP_pos_iff.2 ⟨e, hmem, he⟩
    omega
  · -- whoever is missed had been taken out before
    obtain ⟨seg', post', rfl⟩ := List.append_of_mem hmem
    have hgone := (hcheck (pre ++ [.arrived c r] ++ seg') e (post' ++ post) (by simp [hlog])).2 he
    have hbefore := hcount rfl
    rw [hgone] at hbefore
    rw [List.countP_append] at hall ⊢
    have hzero : (false : Bool).toNat = 0 := rfl
    omega

/-! ### The calls that come too late -/

/-- Rooms and queues stay as they are, but for a notice to `c`. -/
structure Spares (s : Exits) (c : Option UserID) (s' : Exits) : Prop where
  room : s'.hub.room = s.hub.room
  rooms : s'.hub.rooms = s.hub.rooms
  queue : ∀ d, queueOf d s'.log = queueOf d s.log ∨
    c = some d ∧ ∃ m : ServerMsg, m.isNotice = true ∧ queueOf d s'.log = queueOf d s.log ++ [m]

theorem Spares.of_log {s' : Exits} {c : Option UserID} {es : List Note}
    (hroom : s'.hub.room = s.hub.room) (hrooms : s'.hub.rooms = s.hub.rooms)
    (hlog : s'.log = s.log ++ es) (hes : ∀ d, queueOf d es = []) : s.Spares c s' := by
  refine ⟨hroom, hrooms, fun d => Or.inl ?_⟩
  rw [hlog, queueOf_append, hes d, List.append_nil]

/-- A notice is queued for its client alone. -/
theorem queueOf_notice (c d : UserID) (msg : ServerMsg) :
    queueOf d (([c].filter fun d => !(s.hub.client d).closed).map fun d => .sent (some n) d msg) = [] ∨
      c = d ∧ queueOf d (([c].filter fun d => !(s.hub.client d).closed).map fun d =>
        .sent (some n) d msg) = [msg] := by
  by_cases hclosed : (s.hub.client c).closed = true
  · left
    rw [List.filter_cons_of_neg (by simp [hclosed])]
    rfl
  · rw [List.filter_cons_of_pos (by simpa using hclosed)]
    by_cases hd : c = d
    · subst hd
      exact Or.inr ⟨rfl, by simp [queueOf, Note.queues]⟩
    · left
      simp [queueOf, Note.queues, hd]

theorem Spares.of_notice {s' : Exits} {es : List Note} {c : UserID} {msg : ServerMsg}
    (hmsg : msg.isNotice = true) (hroom : s'.hub.room = s.hub.room)
    (hrooms : s'.hub.rooms = s.hub.rooms) (hes : ∀ d, queueOf d es = [])
    (hlog : s'.log = s.log ++
      (([c].filter fun d => !(s.hub.client d).closed).map fun d => .sent (some n) d msg) ++ es) :
    s.Spares (some c) s' := by
  refine ⟨hroom, hrooms, fun d => ?_⟩
  rw [hlog, queueOf_append, queueOf_append, hes d, List.append_nil]
  rcases queueOf_notice (s := s) (n := n) c d msg with h | ⟨rfl, h⟩
  · left
    rw [h, List.append_nil]
  · exact Or.inr ⟨rfl, msg, hmsg, by rw [h]⟩

/-- What a call does that neither has taken its client out nor does so now. -/
theorem exec_spares (ord : MapOrder) (ha : Account s.hub s.log n x)
    (hn : ∀ e ∈ (s.exec n x ord).log, e.departedBy n = false)
    (hgrows : s.log <+: (s.exec n x ord).log) : s.Spares (some x.client) (s.exec n x ord) := by
  have hlater : ∀ {r}, x.next.leaving = some r → False := by
    intro r hr
    obtain ⟨streams, recordings, ht, -⟩ := ha.of_leaving hr
    have hmem : .departed n x.client r streams recordings ∈ trail n s.log := by
      rw [ht]
      simp
    have h := hn _ (hgrows.subset (mem_trail.1 hmem).1)
    simp [Note.departedBy] at h
  cases hnext : x.next with
  | cleanup =>
    simp only [exec, hnext]
    split_ifs
    · exact .of_log rfl rfl rfl fun d => rfl
    · exact .of_log rfl rfl (List.append_nil _).symm fun d => rfl
  | cleanupRoom =>
    simp only [exec, hnext]
    split
    · exact .of_log rfl rfl rfl fun d => rfl
    · exact .of_log rfl rfl rfl fun d => rfl
  | forceKick reason =>
    simp only [exec, hnext]
    by_cases hconn : (s.hub.client x.client).hasConn = true
    · rw [if_pos hconn]
      exact .of_notice rfl rfl rfl (fun d => rfl) rfl
    · rw [if_neg hconn]
      exact .of_log rfl rfl (List.append_nil _).symm fun d => rfl
  | dismiss message =>
    simp only [exec, hnext]
    exact .of_notice rfl rfl rfl (fun d => rfl) (List.append_nil _).symm
  | leaveRoom =>
    simp only [exec, hnext]
    split
    · exact .of_log rfl rfl rfl fun d => rfl
    · exact .of_log rfl rfl rfl fun d => rfl
  | removeClient r =>
    by_cases hc : x.client ∉ (s.hub.room r).clients
    · simp only [exec, hnext]
      rw [if_pos hc]
      exact .of_log rfl rfl (List.append_assoc ..) fun d => rfl
    · have hlog : (s.exec n x ord).log = s.log ++ [.departed n x.client r
          (s.hub.client x.client).streams (s.hub.client x.client).recordings] := by
        simp only [exec, hnext]
        rw [if_neg hc]
        rfl
      have h := hn (.departed n x.client r (s.hub.client x.client).streams
        (s.hub.client x.client).recordings) (by rw [hlog]; simp)
      simp [Note.departedBy] at h
  | collect | stopped | spawn | activity | observers | dismissing | drop =>
    exact (hlater (by rw [hnext]; rfl)).elim
  | returned =>
    simp only [exec, hnext]
    exact .of_log rfl rfl (List.append_nil _).symm fun d => rfl

end Exits

def ExitLabel.actor : ExitLabel → Option ℕ
  | .run n _ | .tell n => some n
  | _ => none

namespace Exits

variable {s : Exits}

def clientOf (s : Exits) (l : ExitLabel) : Option UserID :=
  l.actor.bind fun n => (s.triggers[n]?).map (·.client)

theorem Sound.spares (hs : s.Sound) (l : ExitLabel) (hl : ∀ c ord, l ≠ .enter c ord)
    (hn : ∀ n, l.actor = some n → ∀ e ∈ (s.step l).log, e.departedBy n = false) :
    s.Spares (s.clientOf l) (s.step l) := by
  have hself : ∀ c, s.Spares c s := fun c => .of_log rfl rfl (List.append_nil _).symm fun d => rfl
  have hsame : ∀ {s' : Exits} {c : Option UserID}, s'.hub.room = s.hub.room →
      s'.hub.rooms = s.hub.rooms → s'.log = s.log → s.Spares c s' := by
    intro s' c h1 h2 h3
    exact .of_log h1 h2 (h3.trans (List.append_nil _).symm) fun d => rfl
  cases l with
  | enter c ord => exact absurd rfl (hl c ord)
  | write c y =>
    simp only [Exits.step]
    split_ifs
    · exact hself _
    · exact hsame rfl rfl rfl
  | join c id mode | observe c id =>
    simp only [Exits.step]
    split
    · split_ifs
      · exact hself _
      · exact hsame rfl rfl rfl
    · exact hself _
  | cleanup c | leave c => exact hsame rfl rfl rfl
  | kick id c reason =>
    simp only [Exits.step]
    split
    · exact hself _
    · split_ifs
      · exact hself _
      · exact hsame rfl rfl rfl
  | dissolve id reason ord =>
    simp only [Exits.step]
    split
    · exact hself _
    · split_ifs
      · exact hself _
      · exact hsame rfl rfl rfl
      · exact hsame rfl rfl rfl
  | sweep k =>
    simp only [Exits.step, sweep]
    split
    · exact hself _
    · split_ifs
      · exact hself _
      · split
        · exact hsame rfl rfl rfl
        · exact hsame rfl rfl rfl
  | run n ord =>
    cases hx : s.triggers[n]? with
    | none =>
      have hstep : s.step (.run n ord) = s := by simp only [Exits.step, hx]
      rw [hstep]
      exact hself _
    | some x =>
      have hstep : s.step (.run n ord) = s.exec n x ord := by simp only [Exits.step, hx]
      have hclient : s.clientOf (.run n ord) = some x.client := by
        simp [clientOf, ExitLabel.actor, hx]
      obtain ⟨x', es, ha⟩ := exec_acts ord (hs.account n x hx) hx hs.members
      rw [hstep, hclient]
      rw [hstep] at hn
      exact exec_spares ord (hs.account n x hx) (hn n rfl) ⟨es, ha.log.symm⟩
  | tell n =>
    simp only [Exits.step]
    split
    · exact hself _
    · rename_i x hx
      split
      · exact hself _
      · exact .of_log rfl rfl rfl fun d => rfl

end Exits

/-- However many calls there are to take a client out of a room, one of them takes effect
for each time it was inserted. A call that finds the client's room and returns has taken
it out or come after one that had. The call tells everybody at most once about each
stream that the client had at that moment, and after that about its departure, and stops
each recording and closes each stream once; the others change no room and no queue,
but for a notice to the client. -/
theorem departure_takes_effect_once (clients : UserID → Client) (is : List ExitLabel) :
    let s := (exits clients).run is
    (∀ c r pre seg post, s.log = pre ++ .arrived c r :: (seg ++ post) →
        (∀ e ∈ seg, e.arrives c r = false) →
        seg.countP (Note.departs c r) ≤ 1 ∧
          ∀ n, .found n c r ∈ seg → .returned n ∈ seg → seg.countP (Note.departs c r) = 1) ∧
      (∀ n c r streams recordings, .departed n c r streams recordings ∈ s.log →
        s.log.countP (Note.departedBy n) = 1 ∧ s.SeenOff n c r streams recordings) ∧
      (∀ n, (∀ e ∈ s.log, e.departedBy n = false) →
        (∀ d, told n d s.log = []) ∧ callsBy n s.log = []) ∧
      ∀ l, (∀ c ord, l ≠ .enter c ord) →
        (∀ n, l.actor = some n → ∀ e ∈ (s.step l).log, e.departedBy n = false) →
        s.Spares (s.clientOf l) (s.step l) := by
  intro s
  have hs : s.Sound := Exits.sound clients is
  exact ⟨fun c r pre seg post hlog hseg => hs.stay hlog hseg, fun n c r streams recordings he =>
    hs.departed he, fun n hn => hs.spent_by_departed hn, fun l hl hn => hs.spares l hl hn⟩

namespace Exits

def watched : List ExitLabel :=
  .join "m" "R" .meeting :: List.replicate 6 (.enter "m" {}) ++
    .observe "o" "R" :: List.replicate 6 (.enter "o" {})

def pair (c : UserID) : Client := { isObserver := c = "o", hasConn := c = "m" }

/-- Two `LeaveRoom` for one observer: the second finds no room and returns before the first has
taken the observer out. -/
def overtaken : List ExitLabel :=
  watched ++ [.leave "o", .leave "o", .run 0 {}, .run 1 {}]

/-- The member's departure has listed the observer, who then leaves. -/
def listed : List ExitLabel :=
  watched ++ .cleanup "m" :: List.replicate 8 (.run 0 {}) ++
    [.sweep 0, .leave "o", .run 2 {}, .run 2 {}, .run 2 {}]

end Exits

open Exits in
/-- A call may return before anybody has taken its client out, and one that takes nobody
out may still tell its client that the room ended. -/
theorem departure_returns_early :
    let early := (exits pair).run overtaken
    let before := (exits pair).run listed
    let after := (exits pair).run (listed ++ [.run 1 {}, .run 1 {}])
    (early.log.countP (Note.arrives "o" 0) = 1 ∧
      (early.triggers[1]?).map (fun x => (x.client, x.next)) = some ("o", .returned) ∧
      early.log.countP (Note.departs "o" 0) = 0) ∧
    (after.triggers[1]?).map (fun x => (x.client, x.next)) = some ("o", .returned) ∧
      after.log.countP (Note.departedBy 1) = 0 ∧
      queueOf "o" after.log = queueOf "o" before.log ++ [.observeEnded "业务已结束"] := by
  decide +kernel

end Meetkit
