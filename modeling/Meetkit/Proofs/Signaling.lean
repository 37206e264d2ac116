import Std.Data.String.ToNat
import Meetkit.Model.Signaling
import Meetkit.Proofs.Replies

/-! Requests of a page and the messages that settle them. In the page, an entry of
`pending` and a timer go together, and a promise loses them when it is settled. On the
way, every message under a request id comes out of the one handling of that request. -/

namespace Meetkit

theorem reqID_injective : Function.Injective reqID := fun _ _ h =>
  Nat.repr_injective (String.append_right_inj "r" |>.1 h)

theorem reqID_ne_empty (n : ℕ) : reqID n ≠ "" := by
  intro h
  have hlen := congrArg String.length h
  rw [reqID, String.length_append] at hlen
  have hr : "r".length = 1 := rfl
  have he : "".length = 0 := rfl
  omega

namespace Signaling

/-- The promises that were settled. -/
def settled (s : Signaling) : List ℕ := s.settlements.map Settlement.promise

/-- What the page keeps of the requests it sent, where `R` holds of the settlements by
replies. -/
structure Paired (asked : List (ℕ × Envelope)) (R : Settlement → Prop) (s : Signaling) : Prop where
  ids : asked.map (·.2.reqID) = (List.range s.reqSeq).map fun k => reqID (k + 1)
  timer : ∀ q n, s.pending.lookup q = some n ↔ s.timers.lookup n = some q
  sent : ∀ q n, s.pending.lookup q = some n → ∃ a ∈ asked, a.1 = n ∧ a.2.reqID = q
  kept : ∀ a ∈ asked, s.pending.lookup a.2.reqID = some a.1 ∨ a.1 ∈ s.settled
  unsettled : ∀ q n, s.pending.lookup q = some n → n ∉ s.settled
  once : s.settled.Nodup
  numbered : ∀ n ∈ s.settled, n < s.promises
  fresh : ∀ a ∈ asked, a.1 < s.promises
  replied : ∀ x ∈ s.settlements, x.outcome.isReply = true → R x

namespace Paired

variable {asked : List (ℕ × Envelope)} {R : Settlement → Prop} {s : Signaling} {q : String} {n : ℕ}
  {o : Outcome}

theorem mono {R' : Settlement → Prop} (hs : s.Paired asked R) (hR : ∀ x, R x → R' x) :
    s.Paired asked R' where
  __ := hs
  replied x hx h := hR x (hs.replied x hx h)

theorem distinct (hs : s.Paired asked R) : (asked.map (·.2.reqID)).Nodup := by
  rw [hs.ids]
  exact List.nodup_range.map fun k l hkl => Nat.succ.inj (reqID_injective hkl)

theorem settle (hs : s.Paired asked R) (h : s.pending.lookup q = some n)
    (ho : o.isReply = true → R ⟨n, o⟩) : (s.settle q n o).Paired asked R := by
  have hsettled : (s.settle q n o).settled = s.settled ++ [n] := List.map_append
  have hpending : ∀ q' n', (s.settle q n o).pending.lookup q' = some n' →
      q' ≠ q ∧ s.pending.lookup q' = some n' :=
    fun _ _ => GoMap.lookup_erase_eq_some.1
  refine ⟨hs.ids, ?_, ?_, ?_, ?_, ?_, ?_, hs.fresh, ?_⟩
  · intro q' n'
    simp only [Signaling.settle, GoMap.lookup_erase_iff]
    by_cases hq : q' = q
    · subst hq
      by_cases hn : n' = n
      · simp [hn]
      · have hne : ¬s.timers.lookup n' = some q' := by
          rw [← hs.timer, h]
          exact fun h' => hn (Option.some.inj h').symm
        simp [hn, hne]
    · by_cases hn : n' = n
      · subst hn
        have hne : ¬s.pending.lookup q' = some n' := by
          rw [hs.timer, (hs.timer q n').1 h]
          exact fun h' => hq (Option.some.inj h').symm
        simp [hq, hne]
      · simp only [hq, hn, if_false]
        exact hs.timer q' n'
  · exact fun q' n' h' => hs.sent q' n' (hpending q' n' h').2
  · intro a ha
    rw [hsettled, List.mem_append, List.mem_singleton]
    rcases hs.kept a ha with hkept | hdone
    · by_cases hq : a.2.reqID = q
      · rw [hq, h] at hkept
        exact Or.inr (Or.inr (Option.some.inj hkept).symm)
      · left
        rw [Signaling.settle, GoMap.lookup_erase_iff, if_neg hq]
        exact hkept
    · exact Or.inr (Or.inl hdone)
  · intro q' n' h' hmem
    obtain ⟨hq, hq'⟩ := hpending q' n' h'
    rw [hsettled, List.mem_append, List.mem_singleton] at hmem
    rcases hmem with hmem | rfl
    · exact hs.unsettled q' n' hq' hmem
    · rw [hs.timer, (hs.timer q n').1 h] at hq'
      exact hq (Option.some.inj hq').symm
  · rw [hsettled, ← List.concat_eq_append]
    exact hs.once.concat (hs.unsettled q n h)
  · intro m hm
    rw [hsettled, List.mem_append, List.mem_singleton] at hm
    rcases hm with hm | rfl
    · exact hs.numbered m hm
    · obtain ⟨a, ha, rfl, -⟩ := hs.sent q m h
      exact hs.fresh a ha
  · intro x hx
    rcases List.mem_append.1 hx with hx | hx
    · exact hs.replied x hx
    · rw [List.mem_singleton.1 hx]
      exact ho

theorem timeout (hs : s.Paired asked R) : (s.timeout n).Paired asked R := by
  unfold Signaling.timeout
  cases h : s.timers.lookup n with
  | none => exact hs
  | some q => exact hs.settle ((hs.timer q n).2 h) (fun h => (by cases h))

/-- What becomes of the entries of `pending` in turn. -/
theorem dismiss : ∀ (l : List (Σ _ : String, ℕ)) {s : Signaling}, s.Paired asked R → l.NodupKeys →
    (∀ e ∈ l, s.pending.lookup e.1 = some e.2) →
    let v := l.foldl (fun s e => s.settle e.1 e.2 .connectionClosed) s
    v.Paired asked R ∧ v.ws = s.ws ∧
      ∀ q, v.pending.lookup q = if q ∈ l.keys then none else s.pending.lookup q := by
  intro l
  induction l with
  | nil => intro s hs _ _; exact ⟨hs, rfl, fun q => rfl⟩
  | cons e l ih =>
    intro s hs hl hpending
    obtain ⟨hnotin, hl⟩ := List.nodupKeys_cons.1 hl
    have he := hs.settle (o := .connectionClosed) (hpending e (by simp)) (fun h => (by cases h))
    have hrest : ∀ e' ∈ l, (s.settle e.1 e.2 .connectionClosed).pending.lookup e'.1 = some e'.2 := by
      intro e' he'
      have hne : e'.1 ≠ e.1 := fun heq => hnotin (heq ▸ List.mem_keys_of_mem he')
      rw [Signaling.settle, GoMap.lookup_erase_iff, if_neg hne]
      exact hpending e' (by simp [he'])
    obtain ⟨hv, hws, hlookup⟩ := ih he hl hrest
    refine ⟨hv, hws, fun q => ?_⟩
    rw [List.foldl_cons, hlookup q, Signaling.settle, GoMap.lookup_erase_iff]
    by_cases hq : q = e.1
    · subst hq
      simp
    · by_cases hmem : q ∈ l.keys <;> simp [hq, hmem]

theorem onClose (hs : s.Paired asked R) :
    s.onClose.Paired asked R ∧ ∀ q, s.onClose.pending.lookup q = none := by
  have hclosed : ({ s with ws := .closed } : Signaling).Paired asked R :=
    ⟨hs.ids, hs.timer, hs.sent, hs.kept, hs.unsettled, hs.once, hs.numbered, hs.fresh, hs.replied⟩
  have hkeys : s.pending.entries.reverse.NodupKeys :=
    (List.perm_nodupKeys (List.reverse_perm _)).2 s.pending.nodupKeys
  obtain ⟨hv, -, hlookup⟩ := dismiss s.pending.entries.reverse hclosed hkeys fun e he =>
    AList.mem_lookup_iff.2 (List.mem_reverse.1 he)
  refine ⟨hv, fun q => (hlookup q).trans ?_⟩
  split_ifs with hq
  · rfl
  · refine AList.lookup_eq_none.2 fun hmem => hq ?_
    rw [List.keys, List.map_reverse, List.mem_reverse]
    exact hmem

/-- A request that finds the socket closed. -/
theorem rejected (hs : s.Paired asked R) :
    ({ s with promises := s.promises + 1,
              settlements := s.settlements ++ [⟨s.promises, .notOpen⟩] } : Signaling).Paired asked R := by
  have hnew : s.promises ∉ s.settled := fun hmem => lt_irrefl _ (hs.numbered _ hmem)
  have hsettled : List.map Settlement.promise (s.settlements ++ [⟨s.promises, .notOpen⟩]) =
      s.settled ++ [s.promises] := List.map_append
  refine ⟨hs.ids, hs.timer, hs.sent, ?_, ?_, ?_, ?_, ?_, ?_⟩
  · intro a ha
    rw [Signaling.settled, hsettled, List.mem_append]
    exact (hs.kept a ha).imp_right Or.inl
  · intro q n h
    rw [Signaling.settled, hsettled, List.mem_append, List.mem_singleton]
    rintro (hmem | rfl)
    · exact hs.unsettled q n h hmem
    · obtain ⟨a, ha, hn, -⟩ := hs.sent q _ h
      exact absurd (hs.fresh a ha) (by omega)
  · rw [Signaling.settled, hsettled, ← List.concat_eq_append]
    exact hs.once.concat hnew
  · intro n hn
    rw [Signaling.settled, hsettled, List.mem_append, List.mem_singleton] at hn
    rcases hn with hn | rfl
    · exact Nat.lt_succ_of_lt (hs.numbered n hn)
    · exact Nat.lt_succ_self _
  · exact fun a ha => Nat.lt_succ_of_lt (hs.fresh a ha)
  · intro x hx h
    rcases List.mem_append.1 hx with hx | hx
    · exact hs.replied x hx h
    · rw [List.mem_singleton.1 hx] at h
      cases h

/-- A request that is sent, under an id that no earlier one has. -/
theorem requested (hs : s.Paired asked R) (body : Body) :
    ({ s with promises := s.promises + 1, reqSeq := s.reqSeq + 1,
              timers := s.timers.insert s.promises (reqID (s.reqSeq + 1)),
              pending := s.pending.insert (reqID (s.reqSeq + 1)) s.promises } : Signaling).Paired
      (asked ++ [(s.promises, ⟨reqID (s.reqSeq + 1), body⟩)]) R := by
  have hid : ∀ a ∈ asked, a.2.reqID ≠ reqID (s.reqSeq + 1) := by
    intro a ha heq
    have hmem : a.2.reqID ∈ asked.map (·.2.reqID) := List.mem_map_of_mem ha
    rw [hs.ids, heq] at hmem
    obtain ⟨k, hk, hkeq⟩ := List.mem_map.1 hmem
    have := reqID_injective hkeq
    rw [List.mem_range] at hk
    omega
  have hnew : ∀ q n, s.pending.lookup q = some n → q ≠ reqID (s.reqSeq + 1) ∧ n ≠ s.promises := by
    intro q n h
    obtain ⟨a, ha, rfl, rfl⟩ := hs.sent q n h
    exact ⟨hid a ha, (hs.fresh a ha).ne⟩
  refine ⟨?_, ?_, ?_, ?_, ?_, hs.once, ?_, ?_, hs.replied⟩
  · rw [List.map_append, hs.ids, List.range_succ, List.map_append]
    rfl
  · intro q n
    simp only [GoMap.lookup_insert_iff]
    by_cases hq : q = reqID (s.reqSeq + 1)
    · have hne : ¬s.timers.lookup n = some q := fun h => (hnew q n ((hs.timer q n).2 h)).1 hq
      by_cases hn : n = s.promises
      · simp [hq, hn]
      · rw [if_pos hq, if_neg hn]
        exact ⟨fun h => absurd (Option.some.inj h).symm hn, fun h => absurd h hne⟩
    · by_cases hn : n = s.promises
      · rw [if_neg hq, if_pos hn]
        exact ⟨fun h => absurd hn (hnew q n h).2, fun h => absurd (Option.some.inj h).symm hq⟩
      · rw [if_neg hq, if_neg hn]
        exact hs.timer q n
  · intro q n h
    rw [GoMap.lookup_insert_iff] at h
    split_ifs at h with hq
    · exact ⟨_, List.mem_append_right _ (List.mem_singleton_self _), Option.some.inj h, hq.symm⟩
    · obtain ⟨a, ha, hna⟩ := hs.sent q n h
      exact ⟨a, List.mem_append_left _ ha, hna⟩
  · intro a ha
    rw [GoMap.lookup_insert_iff]
    rcases List.mem_append.1 ha with ha | ha
    · rw [if_neg (hid a ha)]
      exact hs.kept a ha
    · rw [List.mem_singleton.1 ha, if_pos rfl]
      exact Or.inl rfl
  · intro q n h hmem
    rw [GoMap.lookup_insert_iff] at h
    split_ifs at h with hq
    · obtain rfl := Option.some.inj h
      exact lt_irrefl _ (hs.numbered _ hmem)
    · exact hs.unsettled q n h hmem
  · exact fun n hn => Nat.lt_succ_of_lt (hs.numbered n hn)
  · intro a ha
    rcases List.mem_append.1 ha with ha | ha
    · exact Nat.lt_succ_of_lt (hs.fresh a ha)
    · rw [List.mem_singleton.1 ha]
      exact Nat.lt_succ_self _

theorem onMessage (hs : s.Paired asked R) {m : ServerMsg}
    (hm : ∀ n, q ≠ "" → s.pending.lookup q = some n → R ⟨n, .reply m⟩) :
    (s.onMessage q m).Paired asked R := by
  unfold Signaling.onMessage
  by_cases hws : s.ws ≠ .opened
  · rw [if_pos hws]
    exact hs
  · rw [if_neg hws]
    cases h : if q ≠ "" then s.pending.lookup q else none with
    | none =>
      exact ⟨hs.ids, hs.timer, hs.sent, hs.kept, hs.unsettled, hs.once, hs.numbered, hs.fresh, hs.replied⟩
    | some n =>
      split_ifs at h with hq
      exact hs.settle h fun _ => hm n hq h

end Paired

/-- Nothing is pending any more when the socket is closed. -/
def Drained (s : Signaling) : Prop := s.ws = .closed → ∀ q, s.pending.lookup q = none

namespace Drained

variable {s : Signaling}

theorem settle (hs : s.Drained) (q : String) (n : ℕ) (o : Outcome) : (s.settle q n o).Drained := by
  intro hws q'
  rw [Signaling.settle, GoMap.lookup_erase_iff, hs hws q', ite_self]

theorem timeout (hs : s.Drained) (n : ℕ) : (s.timeout n).Drained := by
  unfold Signaling.timeout
  split
  · exact hs
  · exact hs.settle _ _ _

theorem onMessage (hs : s.Drained) (q : String) (m : ServerMsg) : (s.onMessage q m).Drained := by
  unfold Signaling.onMessage
  split
  · exact hs
  · split
    · exact hs.settle _ _ _
    · exact hs

theorem close (hs : s.Drained) : s.close.Drained := by
  intro hws
  refine hs ?_
  by_contra hne
  rw [Signaling.close, if_neg hne] at hws
  cases hws

end Drained

/-- What a message settles was pending under the id of the message. -/
theorem mem_onMessage {s : Signaling} {q : String} {m : ServerMsg} {x : Settlement}
    (hx : x ∈ (s.onMessage q m).settlements) :
    x ∈ s.settlements ∨ s.pending.lookup q = some x.promise := by
  unfold Signaling.onMessage at hx
  by_cases hws : s.ws ≠ .opened
  · rw [if_pos hws] at hx
    exact Or.inl hx
  · rw [if_neg hws] at hx
    cases h : if q ≠ "" then s.pending.lookup q else none with
    | none =>
      rw [h] at hx
      exact Or.inl hx
    | some n =>
      rw [h] at hx
      split_ifs at h
      refine (List.mem_append.1 hx).imp_right fun hx => ?_
      rw [List.mem_singleton.1 hx]
      exact h

end Signaling

namespace Link

/-- A message settled the promise of a request, and the server queued it under the id
of that request while it handled the request. -/
def Replied (s : Link) (x : Settlement) : Prop :=
  ∃ e msgs m, (x.promise, e) ∈ s.asked ∧ (e, msgs) ∈ s.served ∧ (e.reqID, m) ∈ msgs ∧
    x.outcome = .reply m

/-- The messages between the page and the server, in both directions. -/
structure InFlight (c : UserID) (s : Link) : Prop where
  sound : s.world.Sound
  business : s.world.hub.isObserver c = false
  up : ((s.served.map Prod.fst ++ s.up).filter fun e => e.reqID ≠ "") = s.asked.map Prod.snd
  own : ∀ v ∈ s.served, (answers v.2).length ≤ 1 ∧ ∀ y ∈ answers v.2, y.1 = v.1.reqID
  log : replies c s.world.log = s.served.flatMap fun v => answers v.2
  down : ∀ y ∈ answers s.down, ∃ v ∈ s.served, y ∈ v.2

structure Correlated (c : UserID) (s : Link) : Prop extends s.InFlight c where
  page : s.page.Paired s.asked s.Replied
  drained : s.page.Drained

section Steps

variable {c : UserID} {s : Link}

theorem replies_step (hw : s.world.Sound) (i : Input) :
    replies c (s.world.step i).log = replies c s.world.log ++ answers (s.queued c i) := by
  rw [step_log hw, replies_append]
  rfl

theorem InFlight.server (hs : s.InFlight c) {i : Input} (hi : i.spares c = true) :
    ({ s with world := s.world.step i, down := s.down ++ s.queued c i } : Link).InFlight c := by
  have hmute : replies c (s.world.step i).log = replies c s.world.log := by
    refine World.Mute.replies (step_mute hs.sound hs.business fun e hop => ?_)
    rw [Input.spares, hop] at hi
    simp at hi
  have hqueued : answers (s.queued c i) = [] := by
    rw [replies_step hs.sound] at hmute
    simpa using hmute
  refine { hs with sound := (step_turn (i := i) hs.sound).sound hs.sound, business := ?_, log := ?_, down := ?_ }
  · refine step_business hs.sound hs.business fun k q p hop => ?_
    rw [Input.spares, hop] at hi
    simp at hi
  · exact hmute.trans hs.log
  · rw [answers_append, hqueued, List.append_nil]
    exact hs.down

theorem InFlight.serve (hs : s.InFlight c) {e : Envelope} {up : List Envelope} {env : Env}
    (hup : s.up = e :: up) :
    let i : Input := { op := .receive c e, env }
    ({ s with world := s.world.step i, up, down := s.down ++ s.queued c i,
              served := s.served ++ [(e, s.queued c i)] } : Link).InFlight c := by
  intro i
  have hanswers : World.Answers c e.reqID s.world (s.world.step i) := step_answers hs.sound e
  obtain ⟨l, hl, hlen, hall⟩ := hanswers
  obtain rfl : answers (s.queued c i) = l := by
    rw [replies_step hs.sound] at hl
    exact List.append_cancel_left hl
  refine { sound := (step_turn (i := i) hs.sound).sound hs.sound, business := ?_, up := ?_, own := ?_, log := ?_, down := ?_ }
  · exact step_business hs.sound hs.business fun k q p hop => (by cases hop)
  · rw [← hs.up, hup]
    simp
  · intro v hv
    rcases List.mem_append.1 hv with hv | hv
    · exact hs.own v hv
    · rw [List.mem_singleton.1 hv]
      exact ⟨hlen, hall⟩
  · rw [hl, hs.log, List.flatMap_append, List.flatMap_singleton]
  · intro y hy
    rw [answers_append, List.mem_append] at hy
    rcases hy with hy | hy
    · obtain ⟨v, hv, hvy⟩ := hs.down y hy
      exact ⟨v, List.mem_append_left _ hv, hvy⟩
    · exact ⟨_, List.mem_append_right _ (List.mem_singleton_self _), (mem_answers.1 hy).1⟩

/-- A message that was queued under the id of a request in flight answers it. -/
theorem Correlated.replied (hs : s.Correlated c) {q : String} {m : ServerMsg} {n : ℕ}
    (hdown : (q, m) ∈ s.down) (hq : q ≠ "") (hn : s.page.pending.lookup q = some n) :
    s.Replied ⟨n, .reply m⟩ := by
  obtain ⟨⟨e, msgs⟩, hv, hmem⟩ := hs.down (q, m) (mem_answers.2 ⟨hdown, hq⟩)
  have hid : q = e.reqID := (hs.own _ hv).2 (q, m) (mem_answers.2 ⟨hmem, hq⟩)
  obtain ⟨a, ha, rfl, haq⟩ := hs.page.sent q n hn
  have hasked : e ∈ s.asked.map Prod.snd := by
    rw [← hs.up, List.mem_filter, List.mem_append]
    exact ⟨Or.inl (List.mem_map_of_mem hv), by simpa [← hid] using hq⟩
  obtain ⟨b, hb, rfl⟩ := List.mem_map.1 hasked
  obtain rfl : a = b := List.inj_on_of_nodup_map hs.page.distinct ha hb (haq.trans hid)
  exact ⟨a.2, msgs, m, ha, hv, hid ▸ hmem, rfl⟩

theorem correlated_step (hs : s.Correlated c) (i : LinkLabel) : (s.step c i).Correlated c := by
  cases i with
  | server i =>
    simp only [step]
    split_ifs with hi
    · exact { hs.toInFlight.server hi with page := hs.page, drained := hs.drained }
    · exact hs
  | serve env =>
    simp only [step]
    cases hup : s.up with
    | nil => exact hs
    | cons e up =>
      dsimp only
      split_ifs
      · refine { hs.toInFlight.serve hup with page := hs.page.mono ?_, drained := hs.drained }
        rintro x ⟨e', msgs, m, ha, hv, hx⟩
        exact ⟨e', msgs, m, ha, List.mem_append_left _ hv, hx⟩
      · exact hs
  | drop n =>
    refine { hs with down := fun y hy => ?_ }
    obtain ⟨hy, hne⟩ := mem_answers.1 hy
    exact hs.down y (mem_answers.2 ⟨List.mem_of_mem_eraseIdx hy, hne⟩)
  | opened =>
    simp only [step]
    split_ifs
    · exact { hs with page := { hs.page with }, drained := fun h => (by cases h) }
    · exact hs
  | request body =>
    simp only [step, Signaling.request]
    by_cases hws : s.page.ws ≠ .opened
    · rw [if_pos hws]
      exact { hs with page := hs.page.rejected, drained := hs.drained }
    · rw [if_neg hws]
      refine { hs with up := ?_, page := (hs.page.requested body).mono ?_, drained := fun h => ?_ }
      · have hne : reqID (s.page.reqSeq + 1) ≠ "" := reqID_ne_empty _
        rw [← List.append_assoc, List.filter_append, hs.up, List.map_append]
        simp [hne]
      · rintro x ⟨e, msgs, m, ha, hv⟩
        exact ⟨e, msgs, m, List.mem_append_left _ ha, hv⟩
      · exact absurd (h : s.page.ws = .closed) (by rw [not_not.1 hws]; decide)
  | send body =>
    simp only [step, Signaling.send]
    by_cases hws : s.page.ws ≠ .opened
    · rw [if_pos hws]
      exact hs
    · rw [if_neg hws]
      refine { hs with up := ?_ }
      rw [← List.append_assoc, List.filter_append, hs.up]
      simp
  | message =>
    simp only [step]
    cases hdown : s.down with
    | nil => exact hs
    | cons y down =>
      obtain ⟨q, m⟩ := y
      dsimp only
      split_ifs
      · exact hs
      · have hhead : (q, m) ∈ s.down := by rw [hdown]; exact List.mem_cons_self
        refine { hs with down := fun y hy => ?_, page := ?_, drained := hs.drained.onMessage q m }
        · refine hs.down y ?_
          rw [mem_answers] at hy ⊢
          rw [hdown]
          exact hy.imp_left (List.mem_cons_of_mem _)
        · exact hs.page.onMessage fun n hq hn => hs.replied hhead hq hn
  | timeout n => exact { hs with page := hs.page.timeout, drained := hs.drained.timeout n }
  | close => exact { hs with page := { hs.page with }, drained := hs.drained.close }
  | closed =>
    simp only [step]
    split_ifs
    · exact hs
    · exact { hs with page := hs.page.onClose.1, drained := fun _ => hs.page.onClose.2 }

end Steps

theorem correlated_run (token : String) (c : UserID) (ls : List LinkLabel) :
    ((link token c).run ls).Correlated c := by
  refine Machine.run_invariant (P := Correlated c) ?_ (fun s i hs => correlated_step hs i) ls
  exact {
    sound := server_sound token []
    business := rfl
    up := rfl
    own := fun _ hv => absurd hv List.not_mem_nil
    log := rfl
    down := fun _ hy => absurd hy List.not_mem_nil
    page := {
      ids := rfl
      timer := fun _ _ => ⟨fun h => (by cases h), fun h => (by cases h)⟩
      sent := fun _ _ h => (by cases h)
      kept := fun _ ha => absurd ha List.not_mem_nil
      unsettled := fun _ _ h => (by cases h)
      once := List.nodup_nil
      numbered := fun _ hn => absurd hn List.not_mem_nil
      fresh := fun _ ha => absurd ha List.not_mem_nil
      replied := fun _ hx => absurd hx List.not_mem_nil }
    drained := fun h => (by cases h) }

/-- The messages that answer requests, request by request. -/
theorem answered_sublist : ∀ {served : List (Envelope × List (String × ServerMsg))},
    (∀ v ∈ served, (answers v.2).length ≤ 1 ∧ ∀ y ∈ answers v.2, y.1 = v.1.reqID) →
      ((served.flatMap fun v => answers v.2).map Prod.fst).Sublist
        ((served.map fun v => v.1.reqID).filter (· ≠ "")) := by
  intro served
  induction served with
  | nil => intro _; exact List.Sublist.refl _
  | cons v served ih =>
    intro hown
    obtain ⟨hlen, hid⟩ := hown v List.mem_cons_self
    have hrest := ih fun u hu => hown u (List.mem_cons_of_mem _ hu)
    rw [List.flatMap_cons, List.map_append, List.map_cons]
    cases hv : answers v.2 with
    | nil => exact hrest.trans ((List.sublist_cons_self _ _).filter _)
    | cons y l =>
      have hy : y ∈ answers v.2 := by rw [hv]; exact List.mem_cons_self
      have hl : l = [] := by
        rw [hv, List.length_cons] at hlen
        exact List.length_eq_zero_iff.1 (by omega)
      have hne : v.1.reqID ≠ "" := hid y hy ▸ (mem_answers.1 hy).2
      rw [hl, List.filter_cons_of_pos (by simpa using hne), List.map_singleton, hid y hy]
      exact hrest.cons_cons _

theorem Correlated.handled_once {c : UserID} {s : Link} (hs : s.Correlated c) :
    ((s.served.map fun v => v.1.reqID).filter (· ≠ "")).Nodup := by
  have hasked : ((s.asked.map Prod.snd).map Envelope.reqID).Nodup := by
    rw [List.map_map]
    exact hs.page.distinct
  have hserved : ((s.served.map Prod.fst).filter fun e => e.reqID ≠ "").Sublist
      (s.asked.map Prod.snd) := by
    rw [← hs.up, List.filter_append]
    exact List.sublist_append_left _ _
  have hids : ((s.served.map fun v => v.1.reqID).filter (· ≠ "")) =
      ((s.served.map Prod.fst).filter fun e => e.reqID ≠ "").map Envelope.reqID := by
    rw [List.filter_map, List.filter_map, List.map_map]
    rfl
  rw [hids]
  exact hasked.sublist (hserved.map _)

end Link

/-- The answer to the first request comes after its timeout and settles nothing. -/
example : ((link "" "a").run
    [.server { op := .connect "a" }, .opened, .request (.unknown "x"), .request (.unknown "y"),
      .serve {}, .timeout 0, .serve {}, .message, .message]).page.settlements =
    [⟨0, .timedOut⟩, ⟨1, .refused (.quoted "unknown message type " "y")⟩] := by decide +kernel

end Meetkit
