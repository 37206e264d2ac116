import Meetkit.Proofs.Threads

/-! Admission holds in every interleaving: a call has two members at most, the
members of a room go by different nicknames and a solo room has one publisher at
most. The fields it was decided on do not change while a client is a member. -/

namespace Meetkit

structure Hub.Admitted (h : Hub) : Prop where
  call : ∀ r, (h.room r).mode = .call → (h.members r).length ≤ 2
  nickname : ∀ r, ∀ c ∈ h.members r, ∀ d ∈ h.members r,
    (h.client c).nickname = (h.client d).nickname → c = d
  push : ∀ r, (h.room r).mode = .solo → ∀ c ∈ h.members r, ∀ d ∈ h.members r,
    (h.client c).soloRole = some .push → (h.client d).soloRole = some .push → c = d

namespace Hub.Admitted

variable {h h' : Hub} {r : RoomRef} {c : UserID} {mode : RoomMode}

/-- Rooms that lose members, and members that keep nickname and role. -/
theorem shrink (ha : h.Admitted) (hmembers : ∀ r, (h'.members r).Sublist (h.members r))
    (hmode : ∀ r, h'.members r = [] ∨ (h'.room r).mode = (h.room r).mode)
    (hsame : ∀ r, ∀ c ∈ h'.members r, (h'.client c).nickname = (h.client c).nickname ∧
      (h'.client c).soloRole = (h.client c).soloRole) : h'.Admitted where
  call r hr := by
    rcases hmode r with hnil | hm
    · rw [hnil]; exact Nat.zero_le 2
    · exact (hmembers r).length_le.trans (ha.call r (hm.symm.trans hr))
  nickname r c hc d hd hcd := by
    rw [(hsame r c hc).1, (hsame r d hd).1] at hcd
    exact ha.nickname r c ((hmembers r).subset hc) d ((hmembers r).subset hd) hcd
  push r hr c hc d hd hpc hpd := by
    rcases hmode r with hnil | hm
    · rw [hnil] at hc; exact absurd hc List.not_mem_nil
    · rw [(hsame r c hc).2] at hpc
      rw [(hsame r d hd).2] at hpd
      exact ha.push r (hm.symm.trans hr) c ((hmembers r).subset hc) d ((hmembers r).subset hd) hpc hpd


end Hub.Admitted

theorem Hub.Admitted.enter {h : Hub} (ha : h.Admitted) {r : RoomRef} {c : UserID} {mode : RoomMode}
    (hadm : h.admission r c mode = none) : (h.addTo r c).Admitted := by
  have hmode := fun t => (h.addTo_kept r t c).2
  have hmem : ∀ {t d}, d ∈ (h.addTo r c).members t → d ∈ h.members t ∨ d = c ∧ t = r := fun hd =>
    (Hub.mem_members_addTo.1 hd).imp id fun h => ⟨h.1, h.2.1⟩
  have hclient : (h.addTo r c).client = h.client := rfl
  refine ⟨fun t ht => ?_, fun t d hd e he hde => ?_, fun t ht d hd e he hpd hpe => ?_⟩
  · rw [hmode] at ht
    by_cases hin : c ∈ (h.room r).clients
    · rw [Sys.addTo_of_mem hin]
      exact ha.call t ht
    · rw [Sys.members_addTo r t hin]
      split_ifs with hc
      · have hlt := admission_capacity hadm (hc.1 ▸ ht)
        rw [List.length_cons]
        exact hlt
      · exact ha.call t ht
  · rw [hclient] at hde
    rcases hmem hd with hd' | ⟨rfl, rfl⟩
    · rcases hmem he with he' | ⟨rfl, rfl⟩
      · exact ha.nickname t d hd' e he' hde
      · exact absurd hde (admission_nickname hadm hd')
    · rcases hmem he with he' | ⟨rfl, -⟩
      · exact absurd hde.symm (admission_nickname hadm he')
      · rfl
  · rw [hmode] at ht
    rw [hclient] at hpd hpe
    rcases hmem hd with hd' | ⟨rfl, rfl⟩
    · rcases hmem he with he' | ⟨rfl, rfl⟩
      · exact ha.push t ht d hd' e he' hpd hpe
      · exact absurd hpd (admission_push hadm ht hpe hd')
    · rcases hmem he with he' | ⟨rfl, -⟩
      · exact absurd hpe (admission_push hadm ht hpd he')
      · rfl

theorem Sys.Move.admitted {s s' : Sys} {l : Label} (ha : s.hub.Admitted)
    (hm : Sys.Move s l s') : s'.hub.Admitted := by
  cases hm with
  | calm h =>
    exact ha.shrink h.members (fun r => Or.inr (h.mode r)) fun r c hc =>
      ⟨(h.frozen r c hc).1, (h.frozen r c hc).2.1⟩
  | @found c id mode hl =>
    refine ha.shrink (Sys.members_getOrCreateRoom s.hub id mode) (fun r => ?_) fun r c hc => ?_
    · exact (Sys.getOrCreateRoom_room s.hub id mode r).imp (fun h => h) (congrArg Room.mode)
    · rw [Sys.setLoop_hub, Hub.getOrCreateRoom_client]
      exact ⟨rfl, rfl⟩
  | entered hl hadm => exact ha.enter hadm
  | dropped hl hhub hhome hpending =>
    rw [hhub]
    refine ha.shrink (fun r => ?_) (fun r => Or.inr (by simp)) fun r c hc => by simp
    simp [Hub.members, Hub.isObserver]

/-- In every interleaving of joins, departures, kicks, dissolutions and observers,
every room keeps the limits its admission checks stand for. -/
theorem rooms_keep_limits (token : String) (ls : List Label) (r : RoomRef) :
    let h := ((threads token).run ls).hub
    ((h.room r).mode = .call → (h.members r).length ≤ 2) ∧
    (∀ c ∈ h.members r, ∀ d ∈ h.members r,
      (h.client c).nickname = (h.client d).nickname → c = d) ∧
    ((h.room r).mode = .solo → ∀ c ∈ h.members r, ∀ d ∈ h.members r,
      (h.client c).soloRole = some .push → (h.client d).soloRole = some .push → c = d) := by
  have ha : ((threads token).run ls).Sane ∧ ((threads token).run ls).hub.Admitted := by
    refine Machine.run_invariant (P := fun s : Sys => s.Sane ∧ s.hub.Admitted)
      ⟨threads_sane token [], ?_⟩
      (fun s l ⟨hs, ha⟩ => ⟨hs.step l, (hs.move l).admitted ha⟩) ls
    exact ⟨fun _ _ => Nat.zero_le 2, fun _ _ hc => (nomatch hc), fun _ _ _ hc => (nomatch hc)⟩
  exact ⟨ha.2.call r, ha.2.nickname r, ha.2.push r⟩

end Meetkit
