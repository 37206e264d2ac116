import Mathlib.Data.List.Induction

/-! State machines driven by a list of inputs. A run is a fold of the step, so
every prefix of a run is a run. The rules below are the only inductions over
runs: what one step preserves holds after every run, what one guarded step
preserves holds after every run whose steps all meet the guard, and a relation
that the visible steps keep on both sides and the hidden ones on one relates a run
to the run without the hidden ones. -/

structure Machine (σ ι : Type*) where
  init : σ
  step : σ → ι → σ

namespace Machine

variable {σ τ ι : Type*} (M : Machine σ ι)

def runFrom (s : σ) (is : List ι) : σ := is.foldl M.step s

def run (is : List ι) : σ := M.runFrom M.init is

@[simp] theorem runFrom_nil (s : σ) : M.runFrom s [] = s := rfl

@[simp] theorem runFrom_cons (s : σ) (i : ι) (is : List ι) :
    M.runFrom s (i :: is) = M.runFrom (M.step s i) is := rfl

theorem runFrom_append (s : σ) (is js : List ι) :
    M.runFrom s (is ++ js) = M.runFrom (M.runFrom s is) js :=
  List.foldl_append

theorem run_append (is js : List ι) : M.run (is ++ js) = M.runFrom (M.run is) js :=
  M.runFrom_append _ is js

theorem run_snoc (is : List ι) (i : ι) : M.run (is ++ [i]) = M.step (M.run is) i :=
  M.run_append is [i]

/-- Every step of the run from `s` meets `G` at the state it is taken in. -/
def GuardedFrom (G : σ → ι → Prop) : σ → List ι → Prop
  | _, [] => True
  | s, i :: is => G s i ∧ GuardedFrom G (M.step s i) is

def Guarded (G : σ → ι → Prop) (is : List ι) : Prop := M.GuardedFrom G M.init is

instance guardedFromDecidable (G : σ → ι → Prop) [∀ s i, Decidable (G s i)] :
    ∀ (s : σ) (is : List ι), Decidable (M.GuardedFrom G s is)
  | _, [] => inferInstanceAs (Decidable True)
  | s, i :: is =>
    have := guardedFromDecidable G (M.step s i) is
    inferInstanceAs (Decidable (G s i ∧ M.GuardedFrom G (M.step s i) is))

instance (G : σ → ι → Prop) [∀ s i, Decidable (G s i)] (is : List ι) :
    Decidable (M.Guarded G is) :=
  guardedFromDecidable M G M.init is

variable {M} {P Q : σ → Prop} {G : σ → ι → Prop}

theorem runFrom_invariant (hstep : ∀ s i, P s → P (M.step s i)) :
    ∀ (is : List ι) (s : σ), P s → P (M.runFrom s is) := by
  intro is
  induction is with
  | nil => intro s h; exact h
  | cons i is ih => intro s h; exact ih _ (hstep s i h)

/-- What holds at the start and is kept by one step holds after every run. -/
theorem run_invariant (h0 : P M.init) (hstep : ∀ s i, P s → P (M.step s i)) (is : List ι) :
    P (M.run is) :=
  runFrom_invariant hstep is M.init h0

theorem guardedFrom_invariant (hstep : ∀ s i, G s i → P s → P (M.step s i)) :
    ∀ (is : List ι) (s : σ), M.GuardedFrom G s is → P s → P (M.runFrom s is) := by
  intro is
  induction is with
  | nil => intro s _ h; exact h
  | cons i is ih =>
    rintro s ⟨hg, hrest⟩ h
    exact ih _ hrest (hstep s i hg h)

/-- The same for runs whose every step meets the guard. -/
theorem guarded_invariant (h0 : P M.init) (hstep : ∀ s i, G s i → P s → P (M.step s i))
    {is : List ι} (hg : M.Guarded G is) : P (M.run is) :=
  guardedFrom_invariant hstep is M.init hg h0

/-- An invariant may be used while proving that a guarded step keeps another one. -/
theorem guarded_invariant_of (hQ : ∀ is, Q (M.run is)) (h0 : P M.init)
    (hstep : ∀ s i, G s i → Q s → P s → P (M.step s i)) :
    ∀ {is : List ι}, M.Guarded G is → P (M.run is) := by
  suffices ∀ (js is : List ι), M.GuardedFrom G (M.run is) js → P (M.run is) →
      P (M.runFrom (M.run is) js) from fun {is} hg => this is [] hg h0
  intro js
  induction js with
  | nil => intro is _ h; exact h
  | cons j js ih =>
    rintro is ⟨hg, hrest⟩ h
    rw [runFrom_cons, ← run_snoc]
    rw [← run_snoc] at hrest
    exact ih (is ++ [j]) hrest (run_snoc (M := M) is j ▸ hstep _ j hg (hQ is) h)

theorem guardedFrom_left {js : List ι} : ∀ (is : List ι) (s : σ), M.GuardedFrom G s (is ++ js) →
    M.GuardedFrom G s is := by
  intro is
  induction is with
  | nil => intro s _; trivial
  | cons i is ih => exact fun s ⟨hi, hrest⟩ => ⟨hi, ih _ hrest⟩

/-- A guarded run is guarded up to every moment of it. -/
theorem Guarded.of_prefix {pre is : List ι} (hg : M.Guarded G is) (h : pre <+: is) :
    M.Guarded G pre := by
  obtain ⟨js, rfl⟩ := h
  exact guardedFrom_left pre M.init hg

theorem guardedFrom_snoc {i : ι} : ∀ (is : List ι) (s : σ),
    M.GuardedFrom G s (is ++ [i]) ↔ M.GuardedFrom G s is ∧ G (M.runFrom s is) i := by
  intro is
  induction is with
  | nil => intro s; exact ⟨fun h => ⟨trivial, h.1⟩, fun h => ⟨h.2, trivial⟩⟩
  | cons j is ih =>
    intro s
    rw [List.cons_append, GuardedFrom, ih, GuardedFrom, runFrom_cons, and_assoc]

theorem guarded_snoc {is : List ι} {i : ι} :
    M.Guarded G (is ++ [i]) ↔ M.Guarded G is ∧ G (M.run is) i :=
  guardedFrom_snoc is M.init

/-- When the guard keeps `P` and a step that breaks the guard breaks `R`, which `P`
implies, a run has `R` all along if and only if its steps all meet the guard. -/
theorem guarded_iff {R : σ → Prop} (hQ : ∀ is, Q (M.run is)) (h0 : P M.init)
    (hkeep : ∀ s i, G s i → Q s → P s → P (M.step s i))
    (hneed : ∀ s i, Q s → P s → R (M.step s i) → G s i) (hPR : ∀ s, P s → R s) (is : List ι) :
    (∀ pre, pre <+: is → R (M.run pre)) ↔ M.Guarded G is := by
  constructor
  · induction is using List.reverseRecOn with
    | nil => exact fun _ => trivial
    | append_singleton is i ih =>
      intro h
      have hg : M.Guarded G is := ih fun pre hpre => h pre (hpre.trans (List.prefix_append _ _))
      have hR := h (is ++ [i]) (List.prefix_refl _)
      rw [run_snoc] at hR
      exact guarded_snoc.2 ⟨hg, hneed _ i (hQ is) (guarded_invariant_of hQ h0 hkeep hg) hR⟩
  · exact fun hg pre hpre => hPR _ (guarded_invariant_of hQ h0 hkeep (hg.of_prefix hpre))

/-- When a step that breaks the guard does damage that stays, a run has met the guard all
along or is damaged at its end. -/
theorem guarded_or {B : σ → Prop} (hQ : ∀ is, Q (M.run is)) (h0 : P M.init)
    (hkeep : ∀ s i, G s i → Q s → P s → P (M.step s i))
    (hbreak : ∀ s i, ¬G s i → Q s → P s → B (M.step s i))
    (hstay : ∀ s i, Q s → B s → B (M.step s i)) (is : List ι) :
    (M.Guarded G is ∧ P (M.run is)) ∨ B (M.run is) := by
  induction is using List.reverseRecOn with
  | nil => exact Or.inl ⟨trivial, h0⟩
  | append_singleton is i ih =>
    rw [run_snoc]
    rcases ih with ⟨hg, hP⟩ | hB
    · by_cases hi : G (M.run is) i
      · exact Or.inl ⟨guarded_snoc.2 ⟨hg, hi⟩, hkeep _ i hi (hQ is) hP⟩
      · exact Or.inr (hbreak _ i hi (hQ is) hP)
    · exact Or.inr (hstay _ i (hQ is) hB)

theorem guardedFrom_mono {G' : σ → ι → Prop} (h : ∀ s i, G s i → G' s i) :
    ∀ (is : List ι) (s : σ), M.GuardedFrom G s is → M.GuardedFrom G' s is := by
  intro is
  induction is with
  | nil => intro s _; trivial
  | cons i is ih => exact fun s ⟨hi, hrest⟩ => ⟨h s i hi, ih _ hrest⟩

/-- A weaker guard. -/
theorem Guarded.mono {G' : σ → ι → Prop} {is : List ι} (hg : M.Guarded G is)
    (h : ∀ s i, G s i → G' s i) : M.Guarded G' is :=
  guardedFrom_mono h is M.init hg

/-- The guard holds of a run if it holds of each of its steps. -/
theorem guarded_of_splits :
    ∀ {is : List ι}, (∀ pre i post, is = pre ++ i :: post → G (M.run pre) i) → M.Guarded G is := by
  suffices ∀ (js is : List ι), (∀ pre i post, js = pre ++ i :: post → G (M.run (is ++ pre)) i) →
      M.GuardedFrom G (M.run is) js from fun {is} h => this is [] h
  intro js
  induction js with
  | nil => intro is _; trivial
  | cons j js ih =>
    intro is h
    refine ⟨?_, ?_⟩
    · have hj := h [] j js rfl
      rwa [List.append_nil] at hj
    · rw [← run_snoc]
      refine ih (is ++ [j]) fun pre i post hsplit => ?_
      rw [List.append_assoc]
      exact h (j :: pre) i post (by rw [hsplit]; rfl)

/-- A machine that only takes notes beside another one runs as the other does. -/
theorem run_proj {N : Machine τ ι} (abs : σ → τ) (h0 : abs M.init = N.init)
    (hstep : ∀ s i, abs (M.step s i) = N.step (abs s) i) (is : List ι) :
    abs (M.run is) = N.run is := by
  suffices ∀ (is : List ι) (s : σ), abs (M.runFrom s is) = N.runFrom (abs s) is by
    rw [run, run, this, h0]
  intro is
  induction is with
  | nil => intro s; rfl
  | cons i is ih => intro s; rw [runFrom_cons, runFrom_cons, ih, hstep]

/-- Unwinding. Two machines stay related when the visible inputs keep them so and
the hidden ones, taken by the first alone, do too. -/
theorem unwind {N : Machine τ ι} {R : σ → τ → Prop} (visible : ι → Bool) (h0 : R M.init N.init)
    (hvisible : ∀ s t i, visible i = true → G s i → R s t → R (M.step s i) (N.step t i))
    (hhidden : ∀ s t i, visible i = false → G s i → R s t → R (M.step s i) t)
    {is : List ι} (hg : M.Guarded G is) : R (M.run is) (N.run (is.filter visible)) := by
  suffices ∀ (is : List ι) (s : σ) (t : τ), M.GuardedFrom G s is → R s t →
      R (M.runFrom s is) (N.runFrom t (is.filter visible)) from this is M.init N.init hg h0
  intro is
  induction is with
  | nil => intro s t _ h; exact h
  | cons i is ih =>
    rintro s t ⟨hi, hrest⟩ h
    cases hv : visible i with
    | false =>
      rw [List.filter_cons_of_neg (by simp [hv])]
      exact ih _ _ hrest (hhidden s t i hv hi h)
    | true =>
      rw [List.filter_cons_of_pos hv]
      exact ih _ _ hrest (hvisible s t i hv hi h)

/-! ### Simulation -/

section Simulation

variable {κ : Type*} (M) (lab : σ → ι → κ)

/-- What each step of the run from `s` amounts to. -/
def labelsFrom : σ → List ι → List κ
  | _, [] => []
  | s, i :: is => lab s i :: labelsFrom (M.step s i) is

def labels (is : List ι) : List κ := M.labelsFrom lab M.init is

@[simp] theorem length_labelsFrom : ∀ (is : List ι) (s : σ), (M.labelsFrom lab s is).length = is.length
  | [], _ => rfl
  | _ :: is, s => congrArg Nat.succ (length_labelsFrom is (M.step s _))

variable {M}

/-- `abs` carries a run of `M` to the run of `N` over what the steps amount to,
and with it guards on the abstract steps and what these steps always obey. -/
theorem simulate {N : Machine τ κ} (abs : σ → τ) {K L : τ → κ → Prop} (h0 : abs M.init = N.init)
    (hP0 : P M.init)
    (hstep : ∀ s i, P s → P (M.step s i) ∧ abs (M.step s i) = N.step (abs s) (lab s i) ∧
      L (abs s) (lab s i))
    {is : List ι} (hg : M.Guarded (fun s i => K (abs s) (lab s i)) is) :
    abs (M.run is) = N.run (M.labels lab is) ∧
      N.Guarded (fun t k => K t k ∧ L t k) (M.labels lab is) := by
  suffices ∀ (is : List ι) (s : σ), P s → M.GuardedFrom (fun s i => K (abs s) (lab s i)) s is →
      abs (M.runFrom s is) = N.runFrom (abs s) (M.labelsFrom lab s is) ∧
        N.GuardedFrom (fun t k => K t k ∧ L t k) (abs s) (M.labelsFrom lab s is) by
    rw [run, run, Guarded, ← h0]
    exact this is M.init hP0 hg
  intro is
  induction is with
  | nil => intro s _ _; exact ⟨rfl, trivial⟩
  | cons i is ih =>
    rintro s hP ⟨hi, hrest⟩
    obtain ⟨hP', habs, hL⟩ := hstep s i hP
    obtain ⟨h1, h2⟩ := ih _ hP' hrest
    rw [habs] at h1 h2
    exact ⟨h1, ⟨hi, hL⟩, h2⟩

end Simulation

end Machine
