import Mathlib.Data.Option.Defs
import Meetkit.Proofs.Entry

/-! What the home page's check tells about observers. Two hubs with the same business
clients in the same rooms answer every form alike, but for one loop: the search for the
nickname does not skip the observers, as the one of the join does. -/

namespace Meetkit

/-- The same mode and the same business clients, with the same fields. A client's own
pointer to its room is not compared. -/
structure Hub.SameRoom (h h' : Hub) (r r' : RoomRef) : Prop where
  mode : (h'.room r').mode = (h.room r).mode
  members : ∀ c, c ∈ h'.members r' ↔ c ∈ h.members r
  fields : ∀ c ∈ h.members r,
    { h'.client c with room := none } = { h.client c with room := none }

/-- The hubs differ in their observers at most. -/
structure Hub.SameMembers (h h' : Hub) : Prop where
  token : h'.token = h.token
  rooms : ∀ id, Option.Rel (h.SameRoom h') (h.rooms.lookup id) (h'.rooms.lookup id)

namespace Hub

variable {h h' : Hub} {r r' : RoomRef} {n biz room nickname streamID token : String}

def MemberNamed (h : Hub) (r : RoomRef) (n : String) : Prop :=
  ∃ c ∈ h.members r, (h.client c).nickname = n

def ObserverNamed (h : Hub) (r : RoomRef) (n : String) : Prop :=
  ∃ c ∈ (h.room r).clients, h.isObserver c = true ∧ (h.client c).nickname = n

instance : Decidable (h.ObserverNamed r n) :=
  inferInstanceAs (Decidable (∃ c ∈ (h.room r).clients,
    h.isObserver c = true ∧ (h.client c).nickname = n))

theorem hasNickname_iff :
    h.hasNickname r n = true ↔ h.MemberNamed r n ∨ h.ObserverNamed r n := by
  rw [hasNickname, List.any_eq_true]
  constructor
  · rintro ⟨c, hc, hname⟩
    cases hob : h.isObserver c with
    | false => exact Or.inl ⟨c, mem_members.2 ⟨hc, hob⟩, of_decide_eq_true hname⟩
    | true => exact Or.inr ⟨c, hc, hob, of_decide_eq_true hname⟩
  · rintro (⟨c, hc, hname⟩ | ⟨c, hc, -, hname⟩)
    · exact ⟨c, (mem_members.1 hc).1, decide_eq_true hname⟩
    · exact ⟨c, hc, decide_eq_true hname⟩

theorem hasPushMember_iff :
    h.hasPushMember r = true ↔ ∃ c ∈ h.members r, (h.client c).soloRole = some .push := by
  simp [hasPushMember, and_assoc]

theorem hasStreamID_iff (hw : h.WellFormed) {s : StreamID} :
    h.hasStreamID r s = true ↔
      ∃ c ∈ h.members r, (h.client c).streams.entries.any (fun e => e.2 = s) = true := by
  rw [hasStreamID, List.any_eq_true]
  constructor
  · rintro ⟨c, hc, hs⟩
    refine ⟨c, mem_members.2 ⟨hc, ?_⟩, hs⟩
    by_contra hob
    rw [Bool.not_eq_false] at hob
    rw [(hw.silent c hob).1] at hs
    cases hs
  · rintro ⟨c, hc, hs⟩
    exact ⟨c, (mem_members.1 hc).1, hs⟩

namespace SameRoom

variable (hs : h.SameRoom h' r r')

include hs

theorem exists_member {P : Client → Prop} (hP : ∀ x : Client, P { x with room := none } ↔ P x) :
    (∃ c ∈ h'.members r', P (h'.client c)) ↔ ∃ c ∈ h.members r, P (h.client c) := by
  refine exists_congr fun c => ?_
  rw [hs.members]
  refine and_congr_right fun hc => ?_
  rw [← hP, hs.fields c hc, hP]

theorem memberNamed : h'.MemberNamed r' n ↔ h.MemberNamed r n :=
  hs.exists_member (P := fun x => x.nickname = n) fun _ => Iff.rfl

theorem hasPushMember : h'.hasPushMember r' = h.hasPushMember r := by
  rw [Bool.eq_iff_iff, hasPushMember_iff, hasPushMember_iff]
  exact hs.exists_member (P := fun x => x.soloRole = some .push) fun _ => Iff.rfl

theorem hasStreamID (hw : h.WellFormed) (hw' : h'.WellFormed) (s : StreamID) :
    h'.hasStreamID r' s = h.hasStreamID r s := by
  rw [Bool.eq_iff_iff, hasStreamID_iff hw, hasStreamID_iff hw']
  exact hs.exists_member (P := fun x => x.streams.entries.any (fun e => e.2 = s) = true)
    fun _ => Iff.rfl

end SameRoom

/-- The check gets as far as looking for the nickname in the room. -/
def LooksForName (h : Hub) (biz nickname : String) (streamID : StreamID) (r : RoomRef) : Prop :=
  nickname ≠ "" ∧ (h.room r).mode = bizToMode biz ∧
    (biz = "meeting" ∨ biz = "call" ∨ biz = "push" ∧ h.hasPushMember r = false ∨
      biz = "play" ∧ streamID ≠ "" ∧ h.hasStreamID r streamID = true)

section Check

variable (hs : h.SameRoom h' r r') (hw : h.WellFormed) (hw' : h'.WellFormed) (hsize : 0 < h.size r)
  (hsize' : 0 < h'.size r')

include hs hw hw' hsize hsize'

theorem checkEntrant_same (hbiz : biz = "meeting" ∨ biz = "call" ∨ biz = "push") :
    h'.checkEntrant biz (some r') nickname streamID = h.checkEntrant biz (some r) nickname streamID ↔
      (h.LooksForName biz nickname streamID r →
        h'.hasNickname r' nickname = h.hasNickname r nickname) := by
  have hplay : biz ≠ "play" := by
    rcases hbiz with rfl | rfl | rfl <;> decide
  simp only [checkEntrant, hs.mode, hs.hasPushMember, hs.hasStreamID hw hw', hsize, hsize', true_and,
    LooksForName, hplay, false_and, or_false]
  by_cases hmode : (h.room r).mode = bizToMode biz
  swap
  · simp [hmode]
  by_cases hpush : biz = "push" ∧ h.hasPushMember r = true
  · simp [hmode, hpush]
  by_cases hname : nickname = ""
  · simp [hmode, hpush, hname]
  have hlooks : biz = "meeting" ∨ biz = "call" ∨ biz = "push" ∧ h.hasPushMember r = false := by
    rcases hbiz with hb | hb | hb
    · exact Or.inl hb
    · exact Or.inr (Or.inl hb)
    · refine Or.inr (Or.inr ⟨hb, ?_⟩)
      simpa [hb] using hpush
  simp only [hmode, hpush, hname, hlooks, not_true, ne_eq, not_false_eq_true, if_false, true_and,
    and_true, true_implies]
  cases h.hasNickname r nickname <;> cases h'.hasNickname r' nickname
  · simp
  · simp only [if_true, Bool.false_eq_true, if_false]
    split_ifs <;> simp [errUserInUse, errStreamIDInUse]
  · simp only [if_true, Bool.false_eq_true, if_false]
    split_ifs <;> simp [errUserInUse, errStreamIDInUse]
  · simp

theorem checkPlayer_same :
    h'.checkPlayer (some r') nickname streamID = h.checkPlayer (some r) nickname streamID ↔
      (h.LooksForName "play" nickname streamID r →
        h'.hasNickname r' nickname = h.hasNickname r nickname) := by
  simp only [checkPlayer, hs.mode, hs.hasStreamID hw hw', hsize.ne', hsize'.ne', false_or,
    LooksForName]
  by_cases hmode : (h.room r).mode = .solo
  swap
  · simp [hmode, bizToMode]
  by_cases hstream : streamID = "" ∨ h.hasStreamID r streamID = false
  · have hlooks : ¬(streamID ≠ "" ∧ h.hasStreamID r streamID = true) := by
      rintro ⟨hne, hhas⟩
      rcases hstream with hnil | hnone
      · exact hne hnil
      · rw [hnone] at hhas
        cases hhas
    simp [hmode, hstream, hlooks]
  have hlooks : streamID ≠ "" ∧ h.hasStreamID r streamID = true := by
    simpa [not_or] using hstream
  by_cases hname : nickname = ""
  · simp [hmode, hlooks, hname]
  cases h.hasNickname r nickname <;> cases h'.hasNickname r' nickname <;>
    simp [hmode, hlooks, hname, bizToMode]

end Check

/-- The answer turns on an observer: the check looks for the nickname in a room, no
business client there bears it, and an observer does in one of the hubs only. -/
def ObserverTells (h h' : Hub) (biz room nickname streamID token : String) : Prop :=
  h.validateToken token = none ∧ Text.trimSpace room ≠ "" ∧
    ∃ r r', h.getRoom (Text.trimSpace room) = some r ∧ h'.getRoom (Text.trimSpace room) = some r' ∧
      h.LooksForName (Text.trimSpace biz) (Text.trimSpace nickname) (Text.trimSpace streamID) r ∧
      ¬h.MemberNamed r (Text.trimSpace nickname) ∧
      ¬(h.ObserverNamed r (Text.trimSpace nickname) ↔
        h'.ObserverNamed r' (Text.trimSpace nickname))

theorem SameRoom.hasNickname_iff (hs : h.SameRoom h' r r') :
    h'.hasNickname r' n = h.hasNickname r n ↔
      (¬h.MemberNamed r n → (h.ObserverNamed r n ↔ h'.ObserverNamed r' n)) := by
  rw [Bool.eq_iff_iff, Hub.hasNickname_iff, Hub.hasNickname_iff, hs.memberNamed]
  by_cases hm : h.MemberNamed r n
  · simp [hm]
  · simp only [hm, false_or, not_false_eq_true, true_implies]
    exact Iff.comm

theorem size_pos (ht : h.Tenanted) {id : RoomID} (hr : h.rooms.lookup id = some r) : 0 < h.size r := by
  refine List.length_pos_iff.2 fun hnil => ht id r hr ?_
  rw [members, hnil]
  rfl

theorem SameMembers.checkEntry_same (hs : h.SameMembers h') (hw : h.WellFormed)
    (hw' : h'.WellFormed) (ht : h.Tenanted) (ht' : h'.Tenanted) :
    h'.checkEntry biz room nickname streamID token = h.checkEntry biz room nickname streamID token ↔
      ¬h.ObserverTells h' biz room nickname streamID token := by
  have htoken : h'.validateToken token = h.validateToken token := by
    rw [validateToken, validateToken, hs.token]
  rw [checkEntry, checkEntry, htoken]
  cases hv : h.validateToken token with
  | some e => exact iff_of_true rfl fun htells => by cases hv.symm.trans htells.1
  | none =>
    dsimp only
    by_cases hroom : Text.trimSpace room = ""
    · rw [if_pos hroom, if_pos hroom]
      exact iff_of_true rfl fun htells => htells.2.1 hroom
    rw [if_neg hroom, if_neg hroom]
    have hrel := hs.rooms (Text.trimSpace room)
    rw [getRoom, getRoom]
    generalize hr : h.rooms.lookup (Text.trimSpace room) = o at hrel
    generalize hr' : h'.rooms.lookup (Text.trimSpace room) = o' at hrel
    have htells : ∀ {r r'}, h.getRoom (Text.trimSpace room) = some r →
        h'.getRoom (Text.trimSpace room) = some r' → h.SameRoom h' r r' →
        (¬h.ObserverTells h' biz room nickname streamID token ↔
          (h.LooksForName (Text.trimSpace biz) (Text.trimSpace nickname)
            (Text.trimSpace streamID) r →
            h'.hasNickname r' (Text.trimSpace nickname) =
              h.hasNickname r (Text.trimSpace nickname))) := by
      intro r r' hr hr' hsame
      rw [hsame.hasNickname_iff]
      constructor
      · intro hnot hlooks hmember
        by_contra hdiff
        exact hnot ⟨hv, hroom, r, r', hr, hr', hlooks, hmember, hdiff⟩
      · rintro himp ⟨-, -, s, s', hs, hs', hlooks, hmember, hdiff⟩
        cases hr.symm.trans hs
        cases hr'.symm.trans hs'
        exact hdiff (himp hlooks hmember)
    cases hrel with
    | none =>
      refine iff_of_true ?_ ?_
      · simp only [checkEntrant, checkPlayer]
      · rintro ⟨-, -, s, s', hs, -⟩
        cases hr.symm.trans hs
    | some hsame =>
      have hsize := size_pos ht hr
      have hsize' := size_pos ht' hr'
      rw [htells hr hr' hsame]
      split_ifs with hbiz hplay
      · exact checkEntrant_same hsame hw hw' hsize hsize' hbiz
      · rw [hplay]
        exact checkPlayer_same hsame hw hw' hsize hsize'
      · refine iff_of_true rfl ?_
        rintro ⟨-, -, hb | hb | ⟨hb, -⟩ | ⟨hb, -⟩⟩
        · exact absurd (Or.inl hb) hbiz
        · exact absurd (Or.inr (Or.inl hb)) hbiz
        · exact absurd (Or.inr (Or.inr hb)) hbiz
        · exact absurd hb hplay

end Hub

/-- Two reachable servers with the same business clients answer a form alike unless
the answer turns on the name of an observer. -/
theorem entry_check_hides_observers_iff (serverToken : String) (is is' : List Input)
    (hsame : ((server serverToken).run is).hub.SameMembers ((server serverToken).run is').hub)
    (biz room nickname streamID token : String) :
    ((server serverToken).run is').hub.checkEntry biz room nickname streamID token =
        ((server serverToken).run is).hub.checkEntry biz room nickname streamID token ↔
      ¬((server serverToken).run is).hub.ObserverTells ((server serverToken).run is').hub
        biz room nickname streamID token := by
  have hs := server_settled serverToken is
  have hs' := server_settled serverToken is'
  exact hsame.checkEntry_same hs.sound.hub hs'.sound.hub hs.tenanted hs'.tenanted

def unwatched : List Input := [.connect "alice", .join "alice" "1001"]

def watched : List Input :=
  unwatched ++ [.observeOpen 0 "root", .observeJoin 0 "5f0c0a1e-77aa" "1001"]

theorem watched_sameMembers :
    ((server "").run unwatched).hub.SameMembers ((server "").run watched).hub := by
  have hroom : ((server "").run unwatched).hub.SameRoom ((server "").run watched).hub 0 0 := by
    have hmembers : ((server "").run watched).hub.members 0 =
        ((server "").run unwatched).hub.members 0 := by decide +kernel
    have halice : ((server "").run unwatched).hub.members 0 = ["alice"] := by decide +kernel
    refine ⟨by decide +kernel, fun c => by rw [hmembers], fun c hc => ?_⟩
    rw [halice, List.mem_singleton] at hc
    rw [hc]
    rfl
  have hrooms : ((server "").run unwatched).hub.rooms.entries = [⟨"1001", 0⟩] := by decide +kernel
  have hrooms' : ((server "").run watched).hub.rooms.entries = [⟨"1001", 0⟩] := by decide +kernel
  refine ⟨by decide +kernel, fun id => ?_⟩
  rw [AList.lookup, AList.lookup, hrooms, hrooms']
  by_cases hid : id = "1001"
  · subst hid
    exact .some hroom
  · rw [List.dlookup_eq_none.2]
    · exact .none
    · simpa using hid

theorem watched_room_answers_bob_alike :
    ((server "").run watched).hub.checkEntry "meeting" "1001" "Bob" "" "" =
      ((server "").run unwatched).hub.checkEntry "meeting" "1001" "Bob" "" "" := by
  refine (entry_check_hides_observers_iff "" unwatched watched watched_sameMembers "meeting" "1001"
    "Bob" "" "").2 ?_
  rintro ⟨-, -, r, r', hr, hr', -, -, hdiff⟩
  have hzero : ((server "").run unwatched).hub.getRoom (Text.trimSpace "1001") = some 0 := by
    decide +kernel
  have hzero' : ((server "").run watched).hub.getRoom (Text.trimSpace "1001") = some 0 := by
    decide +kernel
  cases hr.symm.trans hzero
  cases hr'.symm.trans hzero'
  exact hdiff (by decide +kernel)

/-- The nickname that only the observer bears is refused. -/
theorem observer_name_is_taken :
    ((server "").run unwatched).hub.SameMembers ((server "").run watched).hub ∧
      ((server "").run unwatched).hub.checkEntry "meeting" "1001" "observer-5f0c0a1e" "" "" = none ∧
      ((server "").run watched).hub.checkEntry "meeting" "1001" "observer-5f0c0a1e" "" "" =
        some (.text errUserInUse) :=
  ⟨watched_sameMembers, by decide +kernel, by decide +kernel⟩

end Meetkit
