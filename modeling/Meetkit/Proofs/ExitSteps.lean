import Meetkit.Model.Exits
import Meetkit.Lib.Reader

/-! One call that takes a client out of a room, step by step: what the notes of a run say
about it is what it has done. -/

namespace Meetkit

/-- What a client is told when it is about to be taken out. -/
def ServerMsg.isNotice : ServerMsg → Bool
  | .observeEnded _ | .adminKicked _ => true
  | _ => false

namespace Note

def arrives (c : UserID) (r : RoomRef) : Note → Bool
  | .arrived d t => d = c && t = r
  | _ => false

def departs (c : UserID) (r : RoomRef) : Note → Bool
  | .departed _ d t _ _ => d = c && t = r
  | _ => false

def misses (c : UserID) (r : RoomRef) : Note → Bool
  | .missed _ d t => d = c && t = r
  | _ => false

/-- The call `n` has taken its client out of a room. -/
def departedBy (n : ℕ) : Note → Bool
  | .departed m _ _ _ _ => m = n
  | _ => false

/-- How far the call `n` has come. -/
def stage (n : ℕ) : Note → Bool
  | .found m _ _ | .departed m _ _ _ _ | .missed m _ _ | .returned m => m = n
  | _ => false

/-- What the call `n` queues for `d` besides notices. -/
def tells (n : ℕ) (d : UserID) : Note → Option ServerMsg
  | .sent (some m) e msg => if m = n ∧ e = d ∧ msg.isNotice = false then some msg else none
  | _ => none

def calls (n : ℕ) : Note → Option ZlmCall
  | .called m call => if m = n then some call else none
  | _ => none

def queues (d : UserID) : Note → Option ServerMsg
  | .sent _ e msg => if e = d then some msg else none
  | _ => none

/-- The doing of the call `n`. -/
def ofCall (n : ℕ) (e : Note) : Bool :=
  e.stage n || match e with
    | .sent m _ _ => m = some n
    | .called m _ => m = n
    | _ => false

/-- Nobody comes or goes, and whom it misses is not there. -/
def Still (h : Hub) (e : Note) : Prop :=
  ∀ c r, e.arrives c r = false ∧ e.departs c r = false ∧
    (e.misses c r = true → c ∉ (h.room r).clients)

end Note

/-- How far the call `n` has come, step by step. -/
def trail (n : ℕ) (log : List Note) : List Note := log.filter (Note.stage n)

def told (n : ℕ) (d : UserID) (log : List Note) : List ServerMsg := log.filterMap (Note.tells n d)

def callsBy (n : ℕ) (log : List Note) : List ZlmCall := log.filterMap (Note.calls n)

/-- What is queued for a client. -/
def queueOf (d : UserID) (log : List Note) : List ServerMsg := log.filterMap (Note.queues d)

def streamStopped (c : UserID) (e : Kind × StreamID) : ServerMsg := .peerStreamStopped ⟨c, e.1, e.2⟩

/-- The calls to ZLM for the streams of a departed client. -/
def farewell (app : RoomID) (recordings : GoMap Kind Bool) (entries : List (Kind × StreamID)) :
    List ZlmCall :=
  (entries.filter fun e => recordings.lookup e.1 = some true).map (fun e => .stopRecord app e.2) ++
    entries.map fun e => .closeStream app e.2

section Notes

variable {n m : ℕ} {c d : UserID} {r : RoomRef} {log es : List Note} {e : Note}

theorem trail_append : trail n (log ++ es) = trail n log ++ trail n es := List.filter_append ..
theorem told_append : told n d (log ++ es) = told n d log ++ told n d es := List.filterMap_append
theorem callsBy_append : callsBy n (log ++ es) = callsBy n log ++ callsBy n es :=
  List.filterMap_append
theorem queueOf_append : queueOf d (log ++ es) = queueOf d log ++ queueOf d es :=
  List.filterMap_append

theorem Note.stage_of_other (h : e.ofCall n = false) : e.stage n = false := by
  unfold Note.ofCall at h
  exact (Bool.or_eq_false_iff.1 h).1

theorem Note.tells_of_other (h : e.ofCall n = false) : e.tells n d = none := by
  cases e with
  | sent m' d' msg =>
    have hm : m' ≠ some n := by simpa [Note.ofCall, Note.stage] using h
    cases m' with
    | none => rfl
    | some m' => exact if_neg fun hc => hm (by rw [hc.1])
  | _ => rfl

theorem Note.calls_of_other (h : e.ofCall n = false) : e.calls n = none := by
  cases e with
  | called m' call => exact if_neg (by simpa [Note.ofCall, Note.stage] using h)
  | _ => rfl

theorem trail_aside (h : ∀ e ∈ es, e.ofCall n = false) : trail n es = [] :=
  List.filter_eq_nil_iff.2 fun e he => by rw [Note.stage_of_other (h e he)]; exact Bool.false_ne_true

theorem told_aside (h : ∀ e ∈ es, e.ofCall n = false) : told n d es = [] :=
  List.filterMap_eq_nil_iff.2 fun e he => Note.tells_of_other (h e he)

theorem callsBy_aside (h : ∀ e ∈ es, e.ofCall n = false) : callsBy n es = [] :=
  List.filterMap_eq_nil_iff.2 fun e he => Note.calls_of_other (h e he)

/-- Every recipient of a message gets it once. -/
theorem told_sent {l : List UserID} (hl : l.Nodup) {msg : ServerMsg} (hm : msg.isNotice = false) :
    told n d (l.map fun d => .sent (some n) d msg) = if d ∈ l then [msg] else [] := by
  rw [told, List.filterMap_map]
  induction l with
  | nil => rfl
  | cons b l ih =>
    obtain ⟨hb, hl⟩ := List.nodup_cons.1 hl
    have hrest := ih hl
    by_cases hbd : b = d
    · subst hbd
      have htells : Note.tells n b (.sent (some n) b msg) = some msg := if_pos ⟨rfl, rfl, hm⟩
      rw [if_neg hb] at hrest
      rw [List.filterMap_cons_some (by exact htells), hrest, if_pos List.mem_cons_self]
    · have htells : Note.tells n d (.sent (some n) b msg) = none := if_neg fun hc => hbd hc.2.1
      rw [List.filterMap_cons_none (by exact htells), hrest]
      simp [Ne.symm hbd]

theorem told_notice {l : List UserID} {msg : ServerMsg} (hm : msg.isNotice = true) :
    told n d (l.map fun d => .sent (some m) d msg) = [] := by
  refine List.filterMap_eq_nil_iff.2 fun e he => ?_
  obtain ⟨b, -, rfl⟩ := List.mem_map.1 he
  exact if_neg fun hc => by simp [hm] at hc

theorem trail_sent (l : List UserID) (k : Option ℕ) (msg : ServerMsg) :
    trail n (l.map fun d => .sent k d msg) = [] := by
  refine List.filter_eq_nil_iff.2 fun e he => ?_
  obtain ⟨b, -, rfl⟩ := List.mem_map.1 he
  exact Bool.false_ne_true

theorem callsBy_sent (l : List UserID) (k : Option ℕ) (msg : ServerMsg) :
    callsBy n (l.map fun d => .sent k d msg) = [] := by
  refine List.filterMap_eq_nil_iff.2 fun e he => ?_
  obtain ⟨b, -, rfl⟩ := List.mem_map.1 he
  rfl

theorem ofCall_sent {l : List UserID} {k : Option ℕ} (hk : k ≠ some n) (msg : ServerMsg) :
    ∀ e ∈ l.map fun d => Note.sent k d msg, e.ofCall n = false := by
  intro e he
  obtain ⟨b, -, rfl⟩ := List.mem_map.1 he
  simpa [Note.ofCall, Note.stage] using hk

end Notes

/-! ### Calls -/

/-- The room a join is about to put its client in. -/
def EntryStep.target : EntryStep → Option RoomRef
  | .insert r _ | .observeInsert r => some r
  | _ => none

namespace ExitStep

/-- The call has not looked for its client in a room. -/
def early : ExitStep → Bool
  | .cleanup | .cleanupRoom | .forceKick _ | .dismiss _ | .leaveRoom => true
  | _ => false

/-- The room the client has been taken out of. -/
def leaving : ExitStep → Option RoomRef
  | .collect r | .stopped r _ | .spawn r | .activity r | .observers r | .dismissing r _ | .drop r =>
    some r
  | _ => none

theorem leaving_of_early {e : ExitStep} (h : e.early = true) : e.leaving = none := by
  cases e <;> first | rfl | cases h

end ExitStep

namespace Trigger

/-- What the room is told. -/
def news (x : Trigger) : List ServerMsg := x.entries.map (streamStopped x.client) ++ [.peerLeft x.client]

def untold (x : Trigger) : List ServerMsg :=
  match x.next with
  | .collect _ => x.news
  | .stopped _ todo => todo.map (streamStopped x.client) ++ [.peerLeft x.client]
  | _ => []

/-- What ZLM is told. -/
def plan (x : Trigger) : List ZlmCall :=
  x.recordSids.map (.stopRecord x.app) ++ x.entries.map fun e => .closeStream x.app e.2

def unspawned (x : Trigger) : List ZlmCall :=
  match x.next with
  | .collect _ | .stopped _ _ | .spawn _ => x.plan
  | _ => []

end Trigger

/-- The call has had no effect outside its client. -/
structure Unspent (log : List Note) (n : ℕ) (x : Trigger) : Prop where
  told : ∀ d, told n d log = []
  called : callsBy n log = []
  calls : x.calls = []
  entries : x.entries = []
  recordSids : x.recordSids = []

/-- The call has taken its client, which had `streams` and `recordings`, out of `r`. -/
structure Departing (h : Hub) (log : List Note) (n : ℕ) (x : Trigger) (r : RoomRef)
    (streams : GoMap Kind StreamID) (recordings : GoMap Kind Bool) : Prop where
  known : r < h.nextRoom
  fresh : x.next.collects = true → x.entries = [] ∧ x.recordSids = []
  kept : x.next.collects = true →
    (h.client x.client).streams = streams ∧ (h.client x.client).recordings = recordings ∨
      (h.client x.client).streams = ∅ ∧ (h.client x.client).recordings = ∅
  nodup : x.entries.Nodup
  held : ∀ e ∈ x.entries, streams.lookup e.1 = some e.2
  plan : x.plan = farewell (h.room r).id recordings x.entries
  told : ∀ d, (told n d log ++ x.untold).Sublist x.news
  calls : callsBy n log ++ x.calls ++ x.unspawned = x.plan

/-- What the notes say of a call is what it has done. -/
inductive Account (h : Hub) (log : List Note) (n : ℕ) (x : Trigger) : Prop
  | early (hn : x.next.early = true) (ht : trail n log = []) (hu : Unspent log n x)
  | found {r : RoomRef} (hn : x.next = .removeClient r) (ht : trail n log = [.found n x.client r])
    (hu : Unspent log n x)
  | leaving {r : RoomRef} {streams : GoMap Kind StreamID} {recordings : GoMap Kind Bool}
    (hn : x.next.leaving = some r)
    (ht : trail n log = [.found n x.client r, .departed n x.client r streams recordings])
    (hd : Departing h log n x r streams recordings)
  | idle (hn : x.next = .returned) (ht : trail n log = [.returned n]) (hu : Unspent log n x)
  | missed {r : RoomRef} (hn : x.next = .returned)
    (ht : trail n log = [.found n x.client r, .missed n x.client r, .returned n])
    (hu : Unspent log n x)
  | left {r : RoomRef} {streams : GoMap Kind StreamID} {recordings : GoMap Kind Bool}
    (hn : x.next = .returned)
    (ht : trail n log =
      [.found n x.client r, .departed n x.client r streams recordings, .returned n])
    (hd : Departing h log n x r streams recordings)

/-- Rooms that there are keep their ids. -/
structure Hub.Steady (h h' : Hub) : Prop where
  nextRoom : h.nextRoom ≤ h'.nextRoom
  ids : ∀ r < h.nextRoom, (h'.room r).id = (h.room r).id

/-- The client publishes and records the same, or nothing any more. -/
def Hub.KeepsMedia (h h' : Hub) (c : UserID) : Prop :=
  (h'.client c).streams = (h.client c).streams ∧ (h'.client c).recordings = (h.client c).recordings ∨
    (h'.client c).streams = ∅ ∧ (h'.client c).recordings = ∅

section Aside

variable {h h' : Hub} {log es : List Note} {n : ℕ} {x : Trigger} {r : RoomRef}
  {streams : GoMap Kind StreamID} {recordings : GoMap Kind Bool}

theorem Hub.Steady.refl (h : Hub) : h.Steady h := ⟨le_rfl, fun _ _ => rfl⟩

theorem Unspent.aside (hu : Unspent log n x) (hes : ∀ e ∈ es, e.ofCall n = false) :
    Unspent (log ++ es) n x where
  told d := by rw [told_append, hu.told d, told_aside hes]; rfl
  called := by rw [callsBy_append, hu.called, callsBy_aside hes]; rfl
  calls := hu.calls
  entries := hu.entries
  recordSids := hu.recordSids

theorem Departing.aside (hd : Departing h log n x r streams recordings) (hs : h.Steady h')
    (hm : x.next.collects = true → h.KeepsMedia h' x.client) (hes : ∀ e ∈ es, e.ofCall n = false) :
    Departing h' (log ++ es) n x r streams recordings where
  known := lt_of_lt_of_le hd.known hs.nextRoom
  fresh := hd.fresh
  kept hc := by
    rcases hm hc with ⟨h1, h2⟩ | h1
    · rw [h1, h2]
      exact hd.kept hc
    · exact Or.inr h1
  nodup := hd.nodup
  held := hd.held
  plan := by rw [hs.ids r hd.known]; exact hd.plan
  told d := by rw [told_append, told_aside hes, List.append_nil]; exact hd.told d
  calls := by rw [callsBy_append, callsBy_aside hes, List.append_nil]; exact hd.calls

/-- A call's account stands while others act. -/
theorem Account.aside (ha : Account h log n x) (hs : h.Steady h')
    (hm : x.next.collects = true → h.KeepsMedia h' x.client) (hes : ∀ e ∈ es, e.ofCall n = false) :
    Account h' (log ++ es) n x := by
  have htrail : trail n (log ++ es) = trail n log := by
    rw [trail_append, trail_aside hes, List.append_nil]
  cases ha with
  | early hn ht hu => exact .early hn (htrail.trans ht) (hu.aside hes)
  | found hn ht hu => exact .found hn (htrail.trans ht) (hu.aside hes)
  | leaving hn ht hd => exact .leaving hn (htrail.trans ht) (hd.aside hs hm hes)
  | idle hn ht hu => exact .idle hn (htrail.trans ht) (hu.aside hes)
  | missed hn ht hu => exact .missed hn (htrail.trans ht) (hu.aside hes)
  | left hn ht hd => exact .left hn (htrail.trans ht) (hd.aside hs hm hes)

end Aside

section Own

variable {h h' : Hub} {log es : List Note} {n : ℕ} {x y : Trigger} {r : RoomRef}
  {streams : GoMap Kind StreamID} {recordings : GoMap Kind Bool}

theorem Account.of_early (ha : Account h log n x) (hx : x.next.early = true) :
    trail n log = [] ∧ Unspent log n x := by
  cases ha with
  | early _ ht hu => exact ⟨ht, hu⟩
  | leaving hn => rw [ExitStep.leaving_of_early hx] at hn; cases hn
  | found hn | idle hn | missed hn | left hn => rw [hn] at hx; cases hx

theorem Account.of_found (ha : Account h log n x) (hx : x.next = .removeClient r) :
    trail n log = [.found n x.client r] ∧ Unspent log n x := by
  cases ha with
  | found hn ht hu =>
    obtain rfl := ExitStep.removeClient.inj (hx.symm.trans hn)
    exact ⟨ht, hu⟩
  | early hn | leaving hn | idle hn | missed hn | left hn => rw [hx] at hn; cases hn

theorem Account.of_leaving (ha : Account h log n x) (hx : x.next.leaving = some r) :
    ∃ streams recordings,
      trail n log = [.found n x.client r, .departed n x.client r streams recordings] ∧
        Departing h log n x r streams recordings := by
  cases ha with
  | leaving hn ht hd =>
    obtain rfl := Option.some.inj (hx.symm.trans hn)
    exact ⟨_, _, ht, hd⟩
  | early hn => rw [ExitStep.leaving_of_early hn] at hx; cases hx
  | found hn | idle hn | missed hn | left hn => rw [hn] at hx; cases hx

/-- A step that only tells its client something. -/
theorem Unspent.own (hu : Unspent log n x) (ht : ∀ d, Meetkit.told n d es = [])
    (hc : callsBy n es = []) (next : ExitStep) : Unspent (log ++ es) n { x with next } where
  told d := by rw [told_append, hu.told d, ht d]; rfl
  called := by rw [callsBy_append, hu.called, hc]; rfl
  calls := hu.calls
  entries := hu.entries
  recordSids := hu.recordSids

theorem Trigger.plan_nil (he : x.entries = []) (hr : x.recordSids = []) : x.plan = [] := by
  rw [plan, he, hr]
  rfl

theorem Trigger.unspawned_nil (hp : x.plan = []) : x.unspawned = [] := by
  unfold unspawned
  split <;> first | exact hp | rfl

/-- It has just taken its client out. -/
theorem Unspent.departing (hu : Unspent log n x) (hr : r < h.nextRoom)
    (hk : (h.client x.client).streams = streams ∧ (h.client x.client).recordings = recordings)
    (hn : x.untold.Sublist x.news) : Departing h log n x r streams recordings where
  known := hr
  fresh _ := ⟨hu.entries, hu.recordSids⟩
  kept _ := Or.inl hk
  nodup := by rw [hu.entries]; exact List.nodup_nil
  held := by rw [hu.entries]; simp
  plan := by rw [Trigger.plan_nil hu.entries hu.recordSids, hu.entries]; rfl
  told d := by rw [hu.told d]; exact hn
  calls := by
    have hp := Trigger.plan_nil hu.entries hu.recordSids
    rw [hu.called, hu.calls, Trigger.unspawned_nil hp, hp]
    rfl

/-- It goes on without telling anybody. -/
theorem Departing.go (hd : Departing h log n x r streams recordings) {next : ExitStep}
    (hs : h.Steady h') (hc : next.collects = false)
    (hu : ({ x with next } : Trigger).untold.Sublist x.untold)
    (hn : ({ x with next } : Trigger).unspawned = x.unspawned) :
    Departing h' log n { x with next } r streams recordings where
  known := lt_of_lt_of_le hd.known hs.nextRoom
  fresh h1 := by rw [hc] at h1; cases h1
  kept h1 := by rw [hc] at h1; cases h1
  nodup := hd.nodup
  held := hd.held
  plan := by rw [hs.ids r hd.known]; exact hd.plan
  told d := ((List.Sublist.refl _).append hu).trans (hd.told d)
  calls := by rw [hn]; exact hd.calls

/-- It tells the next thing to those who are there. -/
theorem Departing.tell (hd : Departing h log n x r streams recordings) {next : ExitStep}
    {msg : ServerMsg} {l : List UserID} (hl : l.Nodup) (hmsg : msg.isNotice = false)
    (hc : next.collects = false) (hu : x.untold = msg :: ({ x with next } : Trigger).untold)
    (hn : ({ x with next } : Trigger).unspawned = x.unspawned) :
    Departing h (log ++ l.map fun d => .sent (some n) d msg) n { x with next } r streams recordings where
  known := hd.known
  fresh h1 := by rw [hc] at h1; cases h1
  kept h1 := by rw [hc] at h1; cases h1
  nodup := hd.nodup
  held := hd.held
  plan := hd.plan
  told d := by
    have hold := hd.told d
    rw [hu] at hold
    rw [told_append, told_sent hl hmsg]
    refine List.Sublist.trans ?_ hold
    rw [List.append_assoc]
    refine (List.Sublist.refl _).append ?_
    split_ifs
    · exact List.Sublist.refl _
    · exact List.sublist_cons_self _ _
  calls := by rw [callsBy_append, callsBy_sent, List.append_nil, hn]; exact hd.calls

end Own

/-! ### One step of a call -/

section Hubs

variable (h : Hub) (c d : UserID) (r : RoomRef)

theorem Hub.steady_removeFrom : h.Steady (h.removeFrom r c) := ⟨le_rfl, fun t _ => (h.removeFrom_kept r t c).1⟩

theorem Hub.steady_addTo : h.Steady (h.addTo r c) := ⟨le_rfl, fun t _ => (h.addTo_kept r t c).1⟩

theorem Hub.steady_removeRoomIfEmpty : h.Steady (h.removeRoomIfEmpty r) :=
  ⟨by rw [removeRoomIfEmpty_nextRoom], fun _ _ => by rw [removeRoomIfEmpty_room]⟩

variable {h c d}

theorem Hub.KeepsMedia.same {h' : Hub} (hc : h'.client d = h.client d) : h.KeepsMedia h' d :=
  Or.inl ⟨by rw [hc], by rw [hc]⟩

theorem Hub.keepsMedia_setClient {f : Client → Client}
    (hf : ∀ y : Client, (f y).streams = y.streams ∧ (f y).recordings = y.recordings ∨
      (f y).streams = ∅ ∧ (f y).recordings = ∅) : h.KeepsMedia (h.setClient c f) d := by
  unfold KeepsMedia
  rw [Hub.setClient_client]
  split_ifs with hd
  · rw [hd]; exact hf _
  · exact Or.inl ⟨rfl, rfl⟩

end Hubs

namespace Exits

/-- The call `n` goes from `x` to `x'` and notes `es`. -/
structure Acts (s : Exits) (n : ℕ) (x : Trigger) (s' : Exits) (x' : Trigger) (es : List Note) :
    Prop where
  triggers : s'.triggers = s.triggers.set n x'
  entry : s'.entry = s.entry
  client : x'.client = x.client
  log : s'.log = s.log ++ es
  steady : s.hub.Steady s'.hub
  media : ∀ c, s.hub.KeepsMedia s'.hub c
  others : ∀ m, m ≠ n → ∀ e ∈ es, e.ofCall m = false
  account : Account s'.hub s'.log n x'
  table : ∀ id r, s'.hub.rooms.lookup id = some r → s.hub.rooms.lookup id = some r
  /-- Nobody enters, and nobody leaves except in the critical section of `removeClient`. -/
  attendance : s'.hub.room = s.hub.room ∧
      (∀ e ∈ es, e.Still s.hub) ∨
    ∃ r streams recordings, x.next = .removeClient r ∧ x.client ∈ (s.hub.room r).clients ∧
      es = [.departed n x.client r streams recordings] ∧ s'.hub = s.hub.removeFrom r x.client

section Updates

variable (s : Exits) (n : ℕ) (x : Trigger) (e : Note) (h : Hub)

@[simp] theorem setTrigger_log : (s.setTrigger n x).log = s.log := rfl
@[simp] theorem setTrigger_hub : (s.setTrigger n x).hub = s.hub := rfl
@[simp] theorem setHub_log : (s.setHub h).log = s.log := rfl
@[simp] theorem setHub_hub : (s.setHub h).hub = h := rfl
@[simp] theorem note_log : (s.note e).log = s.log ++ [e] := rfl
@[simp] theorem note_hub : (s.note e).hub = s.hub := rfl
@[simp] theorem returns_hub : (s.returns n x).hub = s.hub := rfl

end Updates

variable {s : Exits} {n : ℕ} {x : Trigger} {r : RoomRef}

/-- A call that has had no effect goes on without one. -/
theorem acts_unspent {s' : Exits} {next : ExitStep} {es : List Note} (hu : Unspent s.log n x)
    (htriggers : s'.triggers = s.triggers.set n { x with next }) (hentry : s'.entry = s.entry)
    (hlog : s'.log = s.log ++ es) (hroom : s'.hub.room = s.hub.room)
    (hnext : s'.hub.nextRoom = s.hub.nextRoom) (hrooms : s'.hub.rooms = s.hub.rooms)
    (hm : ∀ c, s.hub.KeepsMedia s'.hub c) (ht : ∀ d, told n d es = []) (hc : callsBy n es = [])
    (hes : ∀ e ∈ es, (∀ m, m ≠ n → e.ofCall m = false) ∧
      e.Still s.hub)
    (ha : Unspent (s.log ++ es) n { x with next } →
      Account s'.hub (s.log ++ es) n { x with next }) :
    Acts s n x s' { x with next } es where
  triggers := htriggers
  entry := hentry
  client := rfl
  log := hlog
  steady := ⟨hnext.ge, fun r _ => by rw [hroom]⟩
  media := hm
  others m hne e he := (hes e he).1 m hne
  account := by rw [hlog]; exact ha (hu.own ht hc next)
  table id r hl := hrooms ▸ hl
  attendance := Or.inl ⟨hroom, fun e he => (hes e he).2⟩

theorem returned_ofCall {m : ℕ} (hm : m ≠ n) : (Note.returned n).ofCall m = false := by
  simp [Note.ofCall, Note.stage, hm.symm]

theorem found_ofCall {m : ℕ} (hm : m ≠ n) (c : UserID) : (Note.found n c r).ofCall m = false := by
  simp [Note.ofCall, Note.stage, hm.symm]

theorem trail_returned : trail n [.returned n] = [.returned n] :=
  List.filter_cons_of_pos (by simp [Note.stage])

theorem trail_found (c : UserID) : trail n [.found n c r] = [.found n c r] :=
  List.filter_cons_of_pos (by simp [Note.stage])

theorem sent_own (s : Exits) (l : List UserID) (msg : ServerMsg) :
    ∀ e ∈ l.map fun d => Note.sent (some n) d msg, (∀ m, m ≠ n → e.ofCall m = false) ∧
      e.Still s.hub := by
  intro e he
  refine ⟨fun m hm => ofCall_sent (fun h => hm (Option.some.inj h).symm) msg e he, ?_⟩
  obtain ⟨b, -, rfl⟩ := List.mem_map.1 he
  exact fun _ _ => ⟨rfl, rfl, fun h => (by cases h)⟩

theorem returned_own (s : Exits) : ∀ e ∈ [Note.returned n], (∀ m, m ≠ n → e.ofCall m = false) ∧
    e.Still s.hub := by
  intro e he
  obtain rfl := List.mem_singleton.1 he
  exact ⟨fun m hm => returned_ofCall hm, fun _ _ => ⟨rfl, rfl, fun h => (by cases h)⟩⟩

/-- It has not found its client anywhere. -/
theorem acts_returns (ht : trail n s.log = []) (hu : Unspent s.log n x) :
    Acts s n x (s.returns n x) { x with next := .returned } [.returned n] := by
  refine acts_unspent hu rfl rfl rfl rfl rfl rfl (fun c => .same rfl) (fun d => rfl) rfl (returned_own s)
    fun hu' => .idle rfl ?_ hu'
  rw [trail_append, ht, trail_returned]
  rfl

theorem acts_finds {f : Client → Client}
    (hf : ∀ y : Client, (f y).streams = y.streams ∧ (f y).recordings = y.recordings)
    (ht : trail n s.log = []) (hu : Unspent s.log n x) (r : RoomRef) :
    Acts s n x ((s.setHub (s.hub.setClient x.client f)).finds n x r)
      { x with next := .removeClient r } [.found n x.client r] := by
  refine acts_unspent hu rfl rfl rfl rfl rfl rfl
    (fun c => Hub.keepsMedia_setClient fun y => Or.inl (hf y)) (fun d => rfl) rfl ?_
    fun hu' => .found rfl ?_ hu'
  · intro e he
    obtain rfl := List.mem_singleton.1 he
    exact ⟨fun m hm => found_ofCall hm _, fun _ _ => ⟨rfl, rfl, fun h => (by cases h)⟩⟩
  · rw [trail_append, ht, trail_found]
    rfl

/-- It goes on looking. -/
theorem acts_early {f : Client → Client} {next : ExitStep} (hnext : next.early = true)
    (hf : ∀ y : Client, (f y).streams = y.streams ∧ (f y).recordings = y.recordings)
    (ht : trail n s.log = []) (hu : Unspent s.log n x) :
    Acts s n x ((s.setHub (s.hub.setClient x.client f)).setTrigger n { x with next }) { x with next } [] := by
  refine acts_unspent hu rfl rfl (List.append_nil _).symm rfl rfl rfl
    (fun c => Hub.keepsMedia_setClient fun y => Or.inl (hf y)) (fun d => rfl) rfl (by simp)
    fun hu' => .early hnext ?_ hu'
  rw [List.append_nil]
  exact ht

/-- It tells its client that it will be taken out. -/
theorem acts_notice {next : ExitStep} {msg : ServerMsg} (hnext : next.early = true)
    (hmsg : msg.isNotice = true) (ht : trail n s.log = []) (hu : Unspent s.log n x) (l : List UserID) :
    Acts s n x ((s.sendAll (some n) l msg).setTrigger n { x with next }) { x with next }
      ((l.filter fun d => !(s.hub.client d).closed).map fun d => .sent (some n) d msg) := by
  refine acts_unspent hu rfl rfl rfl rfl rfl rfl (fun c => .same rfl) (fun d => told_notice hmsg)
    (callsBy_sent _ _ _) (sent_own _ _ _) fun hu' => .early hnext ?_ hu'
  rw [trail_append, ht, trail_sent]
  rfl

theorem acts_farewell {msg : ServerMsg} (hmsg : msg.isNotice = true) (ht : trail n s.log = [])
    (hu : Unspent s.log n x) (l : List UserID) :
    Acts s n x ((s.sendAll (some n) l msg).returns n x) { x with next := .returned }
      (((l.filter fun d => !(s.hub.client d).closed).map fun d => .sent (some n) d msg) ++
        [.returned n]) := by
  refine acts_unspent hu rfl rfl (List.append_assoc ..) rfl rfl rfl (fun c => .same rfl)
    (fun d => ?_) ?_ ?_ fun hu' => .idle rfl ?_ hu'
  · rw [told_append, told_notice hmsg]
    rfl
  · rw [callsBy_append, callsBy_sent]
    rfl
  · intro e he
    rcases List.mem_append.1 he with he | he
    · exact sent_own _ _ _ e he
    · exact returned_own s e he
  · rw [trail_append, trail_append, ht, trail_sent, trail_returned]
    rfl

theorem exec_early (ord : MapOrder) (ha : Account s.hub s.log n x) (hx : x.next.early = true) :
    ∃ x' es, Acts s n x (s.exec n x ord) x' es := by
  obtain ⟨ht, hu⟩ := ha.of_early hx
  have hid : s.setHub (s.hub.setClient x.client id) = s := by rw [Hub.setClient_id]; rfl
  cases hnext : x.next with
  | cleanup =>
    simp only [exec, hnext]
    split_ifs
    · exact ⟨_, _, acts_returns ht hu⟩
    · exact ⟨_, _, acts_early rfl (fun _ => ⟨rfl, rfl⟩) ht hu⟩
  | cleanupRoom =>
    simp only [exec, hnext]
    split
    · exact ⟨_, _, acts_returns ht hu⟩
    · rename_i r _
      have h : Acts s n x ((s.setHub (s.hub.setClient x.client id)).finds n x r) _ _ :=
        acts_finds (fun _ => ⟨rfl, rfl⟩) ht hu r
      rw [hid] at h
      exact ⟨_, _, h⟩
  | forceKick reason =>
    simp only [exec, hnext]
    by_cases hconn : (s.hub.client x.client).hasConn = true
    · rw [if_pos hconn]
      exact ⟨_, _, acts_farewell rfl ht hu _⟩
    · rw [if_neg hconn]
      have h : Acts s n x ((s.setHub (s.hub.setClient x.client id)).setTrigger n
          { x with next := .leaveRoom }) _ _ := acts_early rfl (fun _ => ⟨rfl, rfl⟩) ht hu
      rw [hid] at h
      exact ⟨_, _, h⟩
  | dismiss message =>
    simp only [exec, hnext]
    exact ⟨_, _, acts_notice rfl rfl ht hu _⟩
  | leaveRoom =>
    simp only [exec, hnext]
    split
    · exact ⟨_, _, acts_returns ht hu⟩
    · refine ⟨_, _, acts_finds ?_ ht hu _⟩
      exact fun _ => ⟨rfl, rfl⟩
  | removeClient | collect | stopped | spawn | activity | observers | dismissing | drop | returned =>
    rw [hnext] at hx; cases hx

theorem exec_removes (ord : MapOrder) (ha : Account s.hub s.log n x) (hx : x.next = .removeClient r)
    (hk : ∀ r c, c ∈ (s.hub.room r).clients → r < s.hub.nextRoom) :
    ∃ x' es, Acts s n x (s.exec n x ord) x' es := by
  obtain ⟨ht, hu⟩ := ha.of_found hx
  simp only [exec, hx]
  by_cases hc : x.client ∉ (s.hub.room r).clients
  · rw [if_pos hc]
    refine ⟨{ x with next := .returned }, [.missed n x.client r, .returned n],
      acts_unspent hu rfl rfl (List.append_assoc ..) rfl rfl rfl (fun c => .same rfl) (fun d => rfl)
        rfl ?_ fun hu' => .missed (r := r) rfl ?_ hu'⟩
    · intro e he
      rcases List.mem_cons.1 he with rfl | he
      · refine ⟨fun m hm => by simp [Note.ofCall, Note.stage, hm.symm], fun d t => ⟨rfl, rfl, fun h => ?_⟩⟩
        simp only [Note.misses, Bool.and_eq_true, decide_eq_true_eq] at h
        obtain ⟨rfl, rfl⟩ := h
        exact hc
      · exact returned_own s e he
    · rw [trail_append, ht]
      simp [trail, Note.stage]
  · rw [if_neg hc]
    rw [not_not] at hc
    refine ⟨{ x with next := if s.hub.isObserver x.client then .drop r else .collect r },
      [.departed n x.client r (s.hub.client x.client).streams (s.hub.client x.client).recordings],
      rfl, rfl, rfl, rfl, s.hub.steady_removeFrom x.client r, fun c => .same rfl, ?_, ?_,
      fun _ _ hl => hl, Or.inr ⟨r, _, _, hx, hc, rfl, rfl⟩⟩
    · intro m hm e he
      obtain rfl := List.mem_singleton.1 he
      simp [Note.ofCall, Note.stage, hm.symm]
    · have hd : Departing (s.hub.removeFrom r x.client)
          (s.log ++ [.departed n x.client r (s.hub.client x.client).streams
            (s.hub.client x.client).recordings]) n
          { x with next := if s.hub.isObserver x.client then .drop r else .collect r } r
          (s.hub.client x.client).streams (s.hub.client x.client).recordings := by
        refine (hu.own (fun d => rfl) rfl _).departing (hk r _ hc) ⟨rfl, rfl⟩ ?_
        split_ifs
        · exact List.nil_sublist _
        · exact List.Sublist.refl _
      refine .leaving ?_ ?_ hd
      · dsimp only
        split_ifs <;> rfl
      · rw [setTrigger_log, note_log, setHub_log, trail_append, ht]
        simp [trail, Note.stage]

/-- A call that has taken its client out goes on. -/
theorem acts_leaving {s' : Exits} {x' : Trigger} {es : List Note} {streams : GoMap Kind StreamID}
    {recordings : GoMap Kind Bool} (ht : trail n s.log =
      [.found n x.client r, .departed n x.client r streams recordings])
    (htriggers : s'.triggers = s.triggers.set n x') (hentry : s'.entry = s.entry)
    (hclient : x'.client = x.client) (hlog : s'.log = s.log ++ es) (hroom : s'.hub.room = s.hub.room)
    (hnext : s'.hub.nextRoom = s.hub.nextRoom)
    (hrooms : ∀ id r, s'.hub.rooms.lookup id = some r → s.hub.rooms.lookup id = some r)
    (hm : ∀ c, s.hub.KeepsMedia s'.hub c)
    (hes : ∀ e ∈ es, (∀ m, m ≠ n → e.ofCall m = false) ∧
      e.Still s.hub)
    (ha : x'.next.leaving = some r ∧ trail n es = [] ∨
      x'.next = .returned ∧ trail n es = [.returned n])
    (hd : Departing s'.hub (s.log ++ es) n x' r streams recordings) : Acts s n x s' x' es where
  triggers := htriggers
  entry := hentry
  client := hclient
  log := hlog
  steady := ⟨hnext.ge, fun r _ => by rw [hroom]⟩
  media := hm
  others m hne e he := (hes e he).1 m hne
  account := by
    rw [hlog]
    rcases ha with ⟨hn, hes⟩ | ⟨hn, hes⟩
    · refine .leaving hn ?_ hd
      rw [trail_append, ht, hes, hclient]
      rfl
    · refine .left hn ?_ hd
      rw [trail_append, ht, hes, hclient]
      rfl
  table := hrooms
  attendance := Or.inl ⟨hroom, fun e he => (hes e he).2⟩

/-- The goroutine of a call makes its next call. -/
theorem tell_acts {call : ZlmCall} {calls : List ZlmCall} (hcalls : x.calls = call :: calls)
    (ha : Account s.hub s.log n x) :
    Acts s n x ((s.note (.called n call)).setTrigger n { x with calls }) { x with calls }
      [.called n call] := by
  have htrail : trail n (s.log ++ [.called n call]) = trail n s.log := by
    rw [trail_append]
    exact List.append_nil _
  have hbusy : ¬Unspent s.log n x := by
    intro hu
    rw [hu.calls] at hcalls
    cases hcalls
  have hmade : ∀ {r streams recordings}, Departing s.hub s.log n x r streams recordings →
      Departing s.hub (s.log ++ [.called n call]) n { x with calls } r streams recordings := by
    intro r streams recordings hd
    refine ⟨hd.known, hd.fresh, hd.kept, hd.nodup, hd.held, hd.plan, fun d => ?_, ?_⟩
    · have hnil : told n d [.called n call] = [] := rfl
      rw [told_append, hnil, List.append_nil]
      exact hd.told d
    · have hone : callsBy n [.called n call] = [call] := by simp [callsBy, Note.calls]
      have hall := hd.calls
      rw [hcalls] at hall
      rw [callsBy_append, hone, List.append_assoc (callsBy n s.log)]
      exact hall
  refine ⟨rfl, rfl, rfl, rfl, .refl _, fun c => .same rfl, fun m hm e he => ?_, ?_, fun _ _ hl => hl,
    Or.inl ⟨rfl, by simp [Note.Still, Note.arrives, Note.departs, Note.misses]⟩⟩
  · obtain rfl := List.mem_singleton.1 he
    simp [Note.ofCall, Note.stage, hm.symm]
  · cases ha with
    | leaving hn ht hd => exact .leaving hn (htrail.trans ht) (hmade hd)
    | left hn ht hd => exact .left hn (htrail.trans ht) (hmade hd)
    | early _ _ hu | found _ _ hu | idle _ _ hu | missed _ _ hu => exact absurd hu hbusy

theorem set_self (hx : s.triggers[n]? = some x) : s.triggers = s.triggers.set n x := by
  obtain ⟨hn, rfl⟩ := List.getElem?_eq_some_iff.1 hx
  exact (List.set_getElem_self hn).symm

/-- It goes on without telling anybody. -/
theorem acts_on {s' : Exits} {next : ExitStep} {streams : GoMap Kind StreamID}
    {recordings : GoMap Kind Bool} (ht : trail n s.log =
      [.found n x.client r, .departed n x.client r streams recordings])
    (hd : Departing s.hub s.log n x r streams recordings) (hn : next.leaving = some r)
    (htriggers : s'.triggers = s.triggers.set n { x with next }) (hentry : s'.entry = s.entry)
    (hlog : s'.log = s.log) (hhub : s'.hub = s.hub) (hc : next.collects = false)
    (hu : ({ x with next } : Trigger).untold.Sublist x.untold)
    (hsp : ({ x with next } : Trigger).unspawned = x.unspawned) :
    Acts s n x s' { x with next } [] := by
  refine acts_leaving ht htriggers hentry rfl (by simp [hlog]) (by rw [hhub]) (by rw [hhub])
    (fun _ _ hl => hhub ▸ hl) (fun c => .same (by rw [hhub])) (by simp) (Or.inl ⟨hn, rfl⟩) ?_
  rw [List.append_nil, hhub]
  exact hd.go (.refl _) hc hu hsp

theorem broadcast_nodup (h : Hub) (ord : MapOrder) (r : RoomRef) (p q : UserID → Bool) :
    (((h.clientsOf ord r).filter p).filter q).Nodup :=
  ((h.clientsOf_nodup ord r).filter _).filter _

theorem exec_collect (ord : MapOrder) {streams : GoMap Kind StreamID}
    {recordings : GoMap Kind Bool} (hx : x.next = .collect r) (ht : trail n s.log =
      [.found n x.client r, .departed n x.client r streams recordings])
    (hd : Departing s.hub s.log n x r streams recordings) :
    ∃ x' es, Acts s n x (s.exec n x ord) x' es := by
  have hcol : x.next.collects = true := by rw [hx]; rfl
  obtain ⟨he, hr⟩ := hd.fresh hcol
  have hplan : x.plan = [] := Trigger.plan_nil he hr
  have hcalls := hd.calls
  rw [hplan, Trigger.unspawned_nil hplan, List.append_nil, List.append_eq_nil_iff] at hcalls
  have huntold : x.untold = x.news := by simp [Trigger.untold, hx]
  have htold : ∀ d, told n d s.log = [] := by
    intro d
    have hlen := (hd.told d).length_le
    rw [huntold, List.length_append] at hlen
    exact List.length_eq_zero_iff.1 (by omega)
  simp only [exec, hx]
  refine ⟨_, [], acts_leaving ht rfl rfl rfl (List.append_nil _).symm rfl rfl (fun _ _ hl => hl)
    (fun c => ?_) (by simp) (Or.inl ⟨rfl, rfl⟩) ?_⟩
  · rw [setTrigger_hub, setHub_hub]
    exact Hub.keepsMedia_setClient fun y => Or.inr ⟨rfl, rfl⟩
  have hheld : ∀ e ∈ (s.hub.client x.client).streams.range (ord.streams x.client),
      streams.lookup e.1 = some e.2 := by
    intro e hmem
    have hl := GoMap.mem_range.1 hmem
    rcases hd.kept hcol with ⟨hk, -⟩ | ⟨hk, -⟩
    · rwa [hk] at hl
    · rw [hk] at hl
      cases hl
  refine ⟨hd.known, fun h => (by cases h), fun h => (by cases h), GoMap.range_nodup _ _, hheld, ?_,
    fun d => ?_, ?_⟩
  · rcases hd.kept hcol with ⟨-, hk⟩ | ⟨hk, -⟩
    · simp [Trigger.plan, farewell, hk]
    · have hnil : (s.hub.client x.client).streams.range (ord.streams x.client) = [] := by
        rw [hk]
        rfl
      simp [Trigger.plan, farewell, hnil]
  · rw [List.append_nil, htold d]
    exact List.Sublist.refl _
  · rw [List.append_nil, hcalls.1]
    simp [hcalls.2, Trigger.unspawned]

theorem exec_leaving (ord : MapOrder) (ha : Account s.hub s.log n x) (hx : x.next.leaving = some r)
    (hs : s.triggers[n]? = some x) : ∃ x' es, Acts s n x (s.exec n x ord) x' es := by
  obtain ⟨streams, recordings, ht, hd⟩ := ha.of_leaving hx
  cases hnext : x.next with
  | collect t =>
    obtain rfl : t = r := by simpa [hnext, ExitStep.leaving] using hx
    exact exec_collect ord hnext ht hd
  | stopped t todo =>
    obtain rfl : t = r := by simpa [hnext, ExitStep.leaving] using hx
    cases todo with
    | cons e todo =>
      simp only [exec, hnext]
      refine ⟨{ x with next := .stopped t todo }, _, acts_leaving ht rfl rfl rfl rfl rfl rfl
        (fun _ _ hl => hl) (fun c => .same rfl) (sent_own _ _ _) (Or.inl ⟨rfl, trail_sent _ _ _⟩)
        (hd.tell (broadcast_nodup _ _ _ _ _) rfl rfl ?_ ?_)⟩
      · simp [Trigger.untold, hnext, streamStopped]
      · simp [Trigger.unspawned, hnext, Trigger.plan]
    | nil =>
      have hu : x.untold = .peerLeft x.client :: ({ x with next := .spawn t } : Trigger).untold := by
        simp [Trigger.untold, hnext]
      have hsp : ({ x with next := .spawn t } : Trigger).unspawned = x.unspawned := by
        simp [Trigger.unspawned, hnext, Trigger.plan]
      simp only [exec, hnext]
      by_cases hb : (s.hub.room t).isBroadcast = true
      · rw [if_pos hb]
        exact ⟨{ x with next := .spawn t }, _, acts_leaving ht rfl rfl rfl rfl rfl rfl
          (fun _ _ hl => hl) (fun c => .same rfl) (sent_own _ _ _) (Or.inl ⟨rfl, trail_sent _ _ _⟩)
          (hd.tell (broadcast_nodup _ _ _ _ _) rfl rfl hu hsp)⟩
      · rw [if_neg hb]
        refine ⟨_, _, acts_on ht hd rfl rfl rfl rfl rfl rfl ?_ hsp⟩
        rw [hu]
        exact List.sublist_cons_self _ _
  | spawn t =>
    obtain rfl : t = r := by simpa [hnext, ExitStep.leaving] using hx
    simp only [exec, hnext]
    refine ⟨_, [], acts_leaving ht rfl rfl rfl (List.append_nil _).symm rfl rfl (fun _ _ hl => hl)
      (fun c => .same rfl) (by simp) (Or.inl ⟨rfl, rfl⟩) ?_⟩
    have hcalls := hd.calls
    have huns : x.unspawned = x.plan := by simp [Trigger.unspawned, hnext]
    rw [huns, List.append_left_eq_self, List.append_eq_nil_iff] at hcalls
    rw [List.append_nil]
    refine ⟨hd.known, fun h => (by cases h), fun h => (by cases h), hd.nodup, hd.held, hd.plan,
      fun d => ?_, ?_⟩
    · refine List.Sublist.trans ?_ (hd.told d)
      exact (List.Sublist.refl _).append (List.nil_sublist _)
    · rw [hcalls.1]
      simp [Trigger.unspawned, Trigger.plan]
  | activity t =>
    obtain rfl : t = r := by simpa [hnext, ExitStep.leaving] using hx
    simp only [exec, hnext]
    split_ifs
    · exact ⟨_, _, acts_on ht hd rfl rfl rfl rfl rfl rfl (List.nil_sublist _)
        (by simp [Trigger.unspawned, hnext])⟩
    · exact ⟨_, _, acts_on ht hd rfl rfl rfl rfl rfl rfl (List.nil_sublist _)
        (by simp [Trigger.unspawned, hnext])⟩
  | observers t =>
    obtain rfl : t = r := by simpa [hnext, ExitStep.leaving] using hx
    simp only [exec, hnext]
    exact ⟨_, _, acts_on ht hd rfl rfl rfl rfl rfl rfl (List.nil_sublist _)
      (by simp [Trigger.unspawned, hnext])⟩
  | dismissing t k =>
    obtain rfl : t = r := by simpa [hnext, ExitStep.leaving] using hx
    simp only [exec, hnext]
    split_ifs
    · exact ⟨_, _, acts_on ht hd rfl rfl rfl rfl rfl rfl (List.nil_sublist _)
        (by simp [Trigger.unspawned, hnext])⟩
    · refine ⟨{ x with next := .dismissing t k }, _, acts_on ht hd rfl ?_ rfl rfl rfl rfl
        (List.nil_sublist _) (by simp [Trigger.unspawned, hnext])⟩
      have hself : ({ x with next := .dismissing t k } : Trigger) = x := by rw [← hnext]
      rw [hself]
      exact set_self hs
  | drop t =>
    obtain rfl : t = r := by simpa [hnext, ExitStep.leaving] using hx
    simp only [exec, hnext]
    refine ⟨{ x with next := .returned }, [.returned n], acts_leaving ht rfl rfl rfl rfl
      (Hub.removeRoomIfEmpty_room _ _) (Hub.removeRoomIfEmpty_nextRoom _ _)
      (fun _ _ hl => Hub.lookup_of_removeRoomIfEmpty hl)
      (fun c => .same (by rw [returns_hub, setHub_hub, Hub.removeRoomIfEmpty_client])) (returned_own s)
      (Or.inr ⟨rfl, trail_returned⟩) ?_⟩
    have hgo : Departing (s.hub.removeRoomIfEmpty t) s.log n { x with next := .returned } t streams
        recordings := hd.go (s.hub.steady_removeRoomIfEmpty t) rfl (List.nil_sublist _)
          (by simp [Trigger.unspawned, hnext])
    refine ⟨hgo.known, hgo.fresh, hgo.kept, hgo.nodup, hgo.held, hgo.plan, fun d => ?_, ?_⟩
    · have hnil : told n d [.returned n] = [] := rfl
      rw [told_append, hnil, List.append_nil]
      exact hgo.told d
    · have hnil : callsBy n [.returned n] = [] := rfl
      rw [callsBy_append, hnil, List.append_nil]
      exact hgo.calls
  | _ => rw [hnext] at hx; cases hx

/-- Whatever a call does next, its account stands. -/
theorem exec_acts (ord : MapOrder) (ha : Account s.hub s.log n x) (hs : s.triggers[n]? = some x)
    (hk : ∀ r c, c ∈ (s.hub.room r).clients → r < s.hub.nextRoom) :
    ∃ x' es, Acts s n x (s.exec n x ord) x' es := by
  have hsame : x.next = .returned → ∃ x' es, Acts s n x (s.exec n x ord) x' es := by
    intro hn
    simp only [exec, hn]
    refine ⟨x, [], set_self hs, rfl, rfl, (List.append_nil _).symm, .refl _, fun c => .same rfl,
      by simp, ha, fun _ _ hl => hl, Or.inl ⟨rfl, by simp⟩⟩
  cases ha with
  | early hn ht hu => exact exec_early ord (.early hn ht hu) hn
  | found hn ht hu => exact exec_removes ord (.found hn ht hu) hn hk
  | leaving hn ht hd => exact exec_leaving ord (.leaving hn ht hd) hn hs
  | idle hn | missed hn | left hn => exact hsame hn

end Exits

end Meetkit
