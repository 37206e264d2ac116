import Meetkit.Model.Dashboard

/-! A dashboard broadcast sends to a copy of the client set. Seen as posting, the copy
settles where the broadcast sends, and a connection that closes while a copy still
has it breaks the only rule there is. -/

namespace Meetkit

namespace Dashboard

/-- The broadcasts as senders: each owes a send to what is left of its copy. -/
def posts (d : Dashboard) : Posts ℕ ConnID String where
  chan := d.send
  owed n := ((d.broadcasts[n]?).map Broadcast.todo).getD []
  panicked := d.panicked

def runStep (d : Dashboard) (n : ℕ) (raw : Option String) (rank : ConnID → ℕ) :
    PostStep ℕ ConnID String :=
  match d.broadcasts[n]? with
  | some .marshal =>
    match raw with
    | none => .commit n []
    | some _ => .commit n (rangeBy rank d.clients)
  | some (.sending raw (_ :: _)) => .offer n raw
  | _ => .rest

/-- What a step of the dashboard is to the queues. -/
def postStep (d : Dashboard) : DashboardLabel → PostStep ℕ ConnID String
  | .push k (some raw) => if d.conn k = .pushing then .post k raw else .rest
  | .close k => if d.conn k = .closeSend then .close k else .rest
  | .write k => .receive k
  | .broadcast n raw rank => d.runStep n raw rank
  | _ => .rest

/-- No broadcast still has to send to a connection that closes its queue now. -/
def unowed (d : Dashboard) : DashboardLabel → Bool
  | .close k => d.conn k ≠ .closeSend || d.broadcasts.all fun b => k ∉ b.todo
  | _ => true

/-- A queue is closed last, and a connection leaves the client set before. -/
structure Orderly (d : Dashboard) : Prop where
  gone : ∀ k, (d.send k).closed = true → d.conn k = .gone
  clients : ∀ k ∈ d.clients, d.conn k ≠ .away ∧ d.conn k ≠ .closeSend ∧ d.conn k ≠ .gone

section Posts

variable (d : Dashboard) (k : ConnID) (n : ℕ)

@[simp] theorem posts_setConn (x : DashConn) : (d.setConn k x).posts = d.posts := rfl

@[simp] theorem posts_setSend (f : Channel String → Channel String) :
    (d.setSend k f).posts = d.posts.setChan k f := rfl

@[simp] theorem posts_offer (raw : String) : (d.offer k raw).posts = d.posts.send k raw := rfl

theorem posts_setBroadcast {b b' : Broadcast} (hb : d.broadcasts[n]? = some b) :
    (d.setBroadcast n b').posts = d.posts.setOwed n b'.todo := by
  obtain ⟨hn, -⟩ := List.getElem?_eq_some_iff.1 hb
  refine Posts.ext rfl (funext fun m => ?_) rfl
  simp only [posts, setBroadcast, Posts.setOwed, Function.update_apply]
  split_ifs with hm
  · subst hm
    rw [List.getElem?_set_self hn]
    rfl
  · rw [List.getElem?_set_ne (Ne.symm hm)]

theorem posts_owed {b : Broadcast} (hb : d.broadcasts[n]? = some b) : d.posts.owed n = b.todo := by
  simp only [posts, hb, Option.map_some, Option.getD_some]

/-- A broadcast that starts owes nothing yet. -/
theorem owed_append {b : Broadcast} (hb : b.todo = []) (m : ℕ) :
    (((d.broadcasts ++ [b])[m]?).map Broadcast.todo).getD [] =
      ((d.broadcasts[m]?).map Broadcast.todo).getD [] := by
  rcases lt_trichotomy m d.broadcasts.length with hm | hm | hm
  · rw [List.getElem?_append_left hm]
  · subst hm
    simp [hb]
  · rw [List.getElem?_eq_none (by simp; omega), List.getElem?_eq_none hm.le]

theorem posts_setOwed_self {ks : List ConnID} (hks : d.posts.owed n = ks) :
    d.posts.setOwed n ks = d.posts := by
  subst hks
  exact Posts.ext rfl (Function.update_eq_self n _) rfl

end Posts

theorem runBroadcast_posts (d : Dashboard) (n : ℕ) (raw : Option String) (rank : ConnID → ℕ) :
    (d.runBroadcast n raw rank).posts = d.posts.step (d.runStep n raw rank) := by
  unfold runBroadcast runStep
  cases hb : d.broadcasts[n]? with
  | none => rfl
  | some b =>
    have howed := d.posts_owed n hb
    cases b with
    | fired =>
      change (d.setBroadcast n .marshal).posts = d.posts
      rw [d.posts_setBroadcast n hb]
      exact d.posts_setOwed_self n howed
    | marshal =>
      cases raw with
      | none => exact d.posts_setBroadcast n hb
      | some raw => exact d.posts_setBroadcast n hb
    | sending raw todo =>
      cases todo with
      | nil => rfl
      | cons k todo =>
        dsimp only
        rw [posts_offer, d.posts_setBroadcast n hb]
        simp only [Posts.step, howed, Broadcast.todo]

theorem step_posts (d : Dashboard) (l : DashboardLabel) :
    (d.step l).posts = d.posts.step (d.postStep l) := by
  cases l with
  | register k => simp only [step, postStep]; split_ifs <;> rfl
  | push k raw =>
    cases raw with
    | none => simp only [step, postStep]; split_ifs <;> rfl
    | some raw => simp only [step, postStep]; split_ifs <;> rfl
  | refresh k => simp only [step, postStep]; split_ifs <;> rfl
  | readError k => simp only [step, postStep]; split_ifs <;> rfl
  | close k =>
    simp only [step, postStep]
    cases d.conn k <;> rfl
  | write k => rfl
  | statsChanged =>
    simp only [step, postStep, scheduleHubPush]
    split_ifs <;> rfl
  | fire =>
    simp only [step, postStep]
    split_ifs
    · exact Posts.ext rfl (funext (d.owed_append rfl)) rfl
    · rfl
  | audited => exact Posts.ext rfl (funext (d.owed_append rfl)) rfl
  | broadcast n raw rank => exact d.runBroadcast_posts n raw rank

/-! ### Orderly connections -/

theorem orderly_init : ({} : Dashboard).Orderly :=
  ⟨fun _ hk => (by cases hk), fun _ hk => absurd hk List.not_mem_nil⟩

section Orderly

variable {d : Dashboard} {k : ConnID}

theorem Orderly.setSend (ho : d.Orderly) {f : Channel String → Channel String}
    (hf : (f (d.send k)).closed = (d.send k).closed) : (d.setSend k f).Orderly := by
  refine ⟨fun j hj => ho.gone j ?_, ho.clients⟩
  simp only [Dashboard.setSend, Function.update_apply] at hj
  split_ifs at hj with hjk
  · rw [hjk, ← hf]; exact hj
  · exact hj

/-- A connection moves between the phases it has while it is a client. -/
theorem Orderly.setConn (ho : d.Orderly) {x : DashConn} (hk : d.conn k ≠ .gone)
    (hx : x ≠ .away ∧ x ≠ .closeSend ∧ x ≠ .gone) : (d.setConn k x).Orderly := by
  refine ⟨fun j hj => ?_, fun j hj => ?_⟩
  · have hgone := ho.gone j hj
    have hjk : j ≠ k := by rintro rfl; exact hk hgone
    simp only [Dashboard.setConn, Function.update_of_ne hjk]
    exact hgone
  · simp only [Dashboard.setConn, Function.update_apply]
    split_ifs
    · exact hx
    · exact ho.clients j hj

theorem Orderly.offer (ho : d.Orderly) (raw : String) : (d.offer k raw).Orderly := by
  have h := ho.setSend (k := k) (f := (·.offer raw)) (Channel.offer_closed _ raw)
  exact ⟨h.gone, h.clients⟩

theorem Orderly.register (ho : d.Orderly) (hk : d.conn k = .away) : (d.register k).Orderly := by
  have h := ho.setConn (k := k) (x := .pushing) (by simp [hk]) (by decide)
  refine ⟨h.gone, fun j hj => ?_⟩
  simp only [Dashboard.register, List.mem_insert_iff] at hj
  rcases hj with rfl | hj
  · simp [Dashboard.register, Dashboard.setConn]
  · exact h.clients j hj

theorem Orderly.unregister (ho : d.Orderly) (hk : d.conn k = .unregister) :
    (d.unregister k).Orderly := by
  refine ⟨fun j hj => ?_, fun j hj => ?_⟩
  · have hgone := ho.gone j hj
    have hjk : j ≠ k := by rintro rfl; rw [hk] at hgone; cases hgone
    simp only [Dashboard.unregister, Dashboard.setConn, Function.update_of_ne hjk]
    exact hgone
  · simp only [Dashboard.unregister, List.mem_filter, decide_eq_true_eq] at hj
    simp only [Dashboard.unregister, Dashboard.setConn, Function.update_of_ne hj.2]
    exact ho.clients j hj.1

theorem Orderly.closeSend (ho : d.Orderly) (hk : d.conn k = .closeSend) :
    ((d.setConn k .gone).setSend k (·.close)).Orderly := by
  refine ⟨fun j hj => ?_, fun j hj => ?_⟩
  · simp only [Dashboard.setSend, Dashboard.setConn, Function.update_apply] at hj ⊢
    split_ifs at hj ⊢
    · rfl
    · exact ho.gone j hj
  · have hj' := ho.clients j hj
    have hjk : j ≠ k := by rintro rfl; exact hj'.2.1 hk
    simp only [Dashboard.setSend, Dashboard.setConn, Function.update_of_ne hjk]
    exact hj'

theorem Orderly.runBroadcast (ho : d.Orderly) (n : ℕ) (raw : Option String) (rank : ConnID → ℕ) :
    (d.runBroadcast n raw rank).Orderly := by
  unfold Dashboard.runBroadcast
  split
  · exact ⟨ho.gone, ho.clients⟩
  · split
    · exact ⟨ho.gone, ho.clients⟩
    · exact ⟨ho.gone, ho.clients⟩
  · rename_i raw k todo _
    have hset : (d.setBroadcast n (.sending raw todo)).Orderly := ⟨ho.gone, ho.clients⟩
    exact hset.offer raw
  · exact ho

theorem Orderly.step (ho : d.Orderly) (l : DashboardLabel) : (d.step l).Orderly := by
  cases l with
  | register k =>
    simp only [Dashboard.step]
    split_ifs with hk
    · exact ho.register hk
    · exact ho
  | push k raw =>
    simp only [Dashboard.step]
    split_ifs with hk
    · have hread := ho.setConn (k := k) (x := .reading) (by simp [hk]) (by decide)
      cases raw with
      | none => exact hread
      | some raw => exact hread.offer raw
    · exact ho
  | refresh k =>
    simp only [Dashboard.step]
    split_ifs with hk
    · exact ho.setConn (by simp [hk]) (by decide)
    · exact ho
  | readError k =>
    simp only [Dashboard.step]
    split_ifs with hk
    · exact ho.setConn (by simp [hk]) (by decide)
    · exact ho
  | close k =>
    simp only [Dashboard.step]
    split
    · rename_i hk
      exact ho.unregister hk
    · rename_i hk
      exact ho.closeSend hk
    · exact ho
  | write k => exact ho.setSend (Channel.receive_closed _)
  | statsChanged =>
    simp only [Dashboard.step, scheduleHubPush]
    split_ifs
    · exact ho
    · exact ⟨ho.gone, ho.clients⟩
  | fire =>
    simp only [Dashboard.step]
    split_ifs
    · exact ⟨ho.gone, ho.clients⟩
    · exact ho
  | audited => exact ⟨ho.gone, ho.clients⟩
  | broadcast n raw rank => exact ho.runBroadcast n raw rank

/-- What is still served has an open queue. -/
theorem Orderly.isOpen (ho : d.Orderly) (hk : d.conn k ≠ .gone) : (d.send k).closed = false := by
  by_contra hclosed
  exact hk (ho.gone k (by simpa using hclosed))

/-- A broadcast copies open queues only, and a snapshot goes to an open one. -/
theorem Orderly.lawful (ho : d.Orderly) (l : DashboardLabel) : d.posts.Lawful (d.postStep l) := by
  cases l with
  | push k raw =>
    cases raw with
    | none => trivial
    | some raw =>
      simp only [postStep]
      split_ifs with hk
      · exact ho.isOpen (by simp [hk])
      · trivial
  | close k => simp only [postStep]; split_ifs <;> trivial
  | broadcast n raw rank =>
    simp only [postStep, runStep]
    split
    · cases raw with
      | none => exact fun k hk => absurd hk List.not_mem_nil
      | some raw => exact fun k hk => ho.isOpen (ho.clients k (mem_rangeBy.1 hk)).2.2
    · trivial
    · trivial
  | _ => trivial

end Orderly

theorem patient_of_unowed (d : Dashboard) (l : DashboardLabel) (hl : d.unowed l = true) :
    d.posts.Patient (d.postStep l) := by
  cases l with
  | close k =>
    simp only [postStep]
    split_ifs with hk
    · intro n hn
      simp only [unowed, hk, ne_eq, not_true, decide_false, Bool.false_or, List.all_eq_true,
        decide_eq_true_eq] at hl
      cases hb : d.broadcasts[n]? with
      | none => simp [posts, hb] at hn
      | some b =>
        rw [d.posts_owed n hb] at hn
        exact hl b (List.mem_of_getElem? hb) hn
    · trivial
  | push k raw =>
    cases raw with
    | none => trivial
    | some raw => simp only [postStep]; split_ifs <;> trivial
  | broadcast n raw rank =>
    simp only [postStep, runStep]
    split
    · cases raw <;> trivial
    · trivial
    · trivial
  | _ => trivial

end Dashboard

open Dashboard

/-- A broadcast never sends on a closed queue in a run in which no connection closes
its queue while a broadcast that has copied it still has to send to it. -/
theorem dashboard_broadcast_never_panics {ls : List DashboardLabel}
    (hg : dashboard.Guarded (fun d l => d.unowed l = true) ls) :
    (dashboard.run ls).panicked = false := by
  have hsim := Machine.simulate (M := dashboard) (N := Posts.posting ({} : Dashboard).send)
    postStep posts (P := Orderly)
    (K := Posts.Patient) (L := Posts.Lawful) ?_ orderly_init ?_
    (hg.mono patient_of_unowed)
  · obtain ⟨hrun, hguard⟩ := hsim
    have hsafe := Posts.posting_safe hguard
    rw [← hrun] at hsafe
    exact hsafe.panicked
  · rfl
  · intro d l ho
    exact ⟨ho.step l, d.step_posts l, ho.lawful l⟩

/-- Two connections, a debounced push, and one connection that closes after it. -/
theorem push_before_close : (dashboard.run [.register 1, .push 1 (some "s"), .register 2,
    .push 2 (some "s"), .statsChanged, .fire, .broadcast 0 none id, .broadcast 0 (some "h") id,
    .broadcast 0 none id, .broadcast 0 none id, .readError 2, .close 2, .close 2]).panicked =
      false :=
  dashboard_broadcast_never_panics (by decide)

/-- The connection closes between the copy and the send. -/
theorem close_after_copy_panics : (dashboard.run [.register 1, .push 1 (some "s"), .statsChanged,
    .fire, .broadcast 0 none id, .broadcast 0 (some "h") id, .readError 1, .close 1, .close 1,
    .broadcast 0 none id]).panicked = true := by
  decide

end Meetkit
