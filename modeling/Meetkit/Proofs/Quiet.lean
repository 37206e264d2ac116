import Meetkit.Proofs.Handled
import Meetkit.Proofs.Observers

/-! Steps that only talk. A neutral event is off the books and changes nobody's
picture of a room; a step is quiet when it adds neutral events to the log and
leaves the hub alone. -/

namespace Meetkit

def Event.neutral : Event → Bool
  | .sent _ _ m => m.neutral
  | e => !e.onBooks

namespace World

structure Quiet (w w' : World) : Prop where
  hub : w'.hub = w.hub
  goroutines : w'.goroutines = w.goroutines
  conn : ∀ k, (w'.conn k).client = none ∨ (w'.conn k).client = (w.conn k).client
  log : ∃ es, w'.log = w.log ++ es ∧ ∀ e ∈ es, e.neutral = true

namespace Quiet

variable {w v u : World}

theorem refl (w : World) : Quiet w w :=
  ⟨rfl, rfl, fun _ => Or.inr rfl, [], (List.append_nil _).symm, by simp⟩

theorem trans (h1 : Quiet w v) (h2 : Quiet v u) : Quiet w u := by
  obtain ⟨es, hes, hes'⟩ := h1.log
  obtain ⟨fs, hfs, hfs'⟩ := h2.log
  refine ⟨h2.hub.trans h1.hub, h2.goroutines.trans h1.goroutines, fun k => ?_, es ++ fs, ?_, ?_⟩
  · rcases h2.conn k with hk | hk
    · exact Or.inl hk
    · rw [hk]; exact h1.conn k
  · rw [hfs, hes, List.append_assoc]
  · intro e he
    rcases List.mem_append.1 he with he | he
    · exact hes' e he
    · exact hfs' e he

theorem emit (w : World) {es : List Event} (hes : ∀ e ∈ es, e.neutral = true) : Quiet w (w.emit es) :=
  ⟨rfl, rfl, fun _ => Or.inr rfl, es, rfl, hes⟩

theorem send (w : World) (c : UserID) (reqID : String) {m : ServerMsg} (hm : m.neutral = true) :
    Quiet w (w.send c reqID m) := by
  unfold World.send
  split_ifs
  · exact .refl w
  · exact .emit w fun e he => by rw [List.mem_singleton.1 he]; exact hm

theorem sendAll (w : World) (ids : List UserID) {m : ServerMsg} (hm : m.neutral = true) :
    Quiet w (w.sendAll ids m) := by
  refine .emit w fun e he => ?_
  obtain ⟨c, -, rfl⟩ := List.mem_map.1 he
  exact hm

theorem setConn (w : World) (k : ConnID) {f : ObserveConn → ObserveConn}
    (hf : (f (w.conn k)).client = none ∨ (f (w.conn k)).client = (w.conn k).client) :
    Quiet w (w.setConn k f) := by
  refine ⟨rfl, rfl, fun j => ?_, [], (List.append_nil _).symm, by simp⟩
  simp only [World.setConn, Function.update_apply]
  split_ifs with hj
  · subst hj; exact hf
  · exact Or.inr rfl

/-- A loop whose every step is quiet. -/
theorem foldl {α : Type} {f : World → α → World} {p : α → Prop} :
    ∀ (l : List α) (w : World), (∀ a ∈ l, p a) →
      (∀ v a, Quiet w v → p a → Quiet v (f v a)) → Quiet w (l.foldl f w) := by
  intro l
  induction l with
  | nil => intro w _ _; exact .refl w
  | cons a l ih =>
    intro w hl hf
    have h1 := hf w a (.refl w) (hl a (by simp))
    refine h1.trans (ih _ (fun b hb => hl b (by simp [hb])) fun v b hv hb => ?_)
    exact hf v b (h1.trans hv) hb

end Quiet

end World

end Meetkit
