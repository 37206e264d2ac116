import Mathlib.Data.List.Basic
import Mathlib.Data.List.Count

/-! What a log says, read from left to right. A reader that ignores some of the
events reads the same from the log without them. Where something opens and closes,
and closes only while it is open, every opening is closed at most once before the
next. -/

structure Reader (ε σ : Type*) where
  start : σ
  next : σ → ε → σ

namespace Reader

variable {ε σ : Type*} (R : Reader ε σ)

def read (log : List ε) : σ := log.foldl R.next R.start

@[simp] theorem read_nil : R.read [] = R.start := rfl

theorem read_append (log es : List ε) : R.read (log ++ es) = es.foldl R.next (R.read log) :=
  List.foldl_append

@[simp] theorem read_snoc (log : List ε) (e : ε) : R.read (log ++ [e]) = R.next (R.read log) e :=
  R.read_append log [e]

variable {R}

theorem foldl_ignored {es : List ε} (hes : ∀ e ∈ es, ∀ s, R.next s e = s) (s : σ) :
    es.foldl R.next s = s := by
  induction es with
  | nil => rfl
  | cons e es ih =>
    rw [List.foldl_cons, hes e (by simp), ih fun e' he' => hes e' (by simp [he'])]

theorem read_append_ignored {log es : List ε} (hes : ∀ e ∈ es, ∀ s, R.next s e = s) :
    R.read (log ++ es) = R.read log := by
  rw [read_append, foldl_ignored hes]

theorem read_filter {p : ε → Bool} (hp : ∀ e s, p e = false → R.next s e = s) (log : List ε) :
    R.read (log.filter p) = R.read log := by
  suffices ∀ (log : List ε) (s : σ), (log.filter p).foldl R.next s = log.foldl R.next s from
    this log R.start
  intro log
  induction log with
  | nil => intro s; rfl
  | cons e log ih =>
    intro s
    cases he : p e with
    | false => rw [List.filter_cons_of_neg (by simp [he]), List.foldl_cons, hp e s he, ih]
    | true => rw [List.filter_cons_of_pos he, List.foldl_cons, List.foldl_cons, ih]

/-! ### Checks -/

variable (R) in
/-- Every event meets `p` at what was read before it. -/
def Checked (p : σ → ε → Prop) (log : List ε) : Prop :=
  ∀ pre e post, log = pre ++ e :: post → p (R.read pre) e

variable (R) in
/-- Every event of a stretch that is read on from `s` meets `p`. -/
def CheckedFrom (p : σ → ε → Prop) : σ → List ε → Prop
  | _, [] => True
  | s, e :: es => p s e ∧ CheckedFrom p (R.next s e) es

section Checked

variable {p q : σ → ε → Prop} {log es : List ε}

theorem checked_nil : R.Checked p [] := by
  intro pre e post h
  simp at h

theorem Checked.mono (h : R.Checked p log) (hpq : ∀ s e, p s e → q s e) : R.Checked q log :=
  fun pre e post heq => hpq _ _ (h pre e post heq)

theorem Checked.left (h : R.Checked p (log ++ es)) : R.Checked p log := by
  rintro pre e post rfl
  exact h pre e (post ++ es) (by simp)

theorem Checked.snoc {e : ε} (h : R.Checked p log) (he : p (R.read log) e) :
    R.Checked p (log ++ [e]) := by
  intro pre d post heq
  rcases List.append_eq_append_iff.1 heq with ⟨mid, rfl, hmid⟩ | ⟨mid, rfl, hmid⟩
  · obtain ⟨rfl, h⟩ | ⟨w, h, h'⟩ := List.cons_eq_append_iff.1 hmid
    · obtain ⟨rfl, -⟩ := List.cons.inj h
      simpa using he
    · simp at h'
  · cases mid with
    | nil =>
      obtain ⟨rfl, -⟩ := List.cons.inj hmid
      rwa [List.append_nil] at he
    | cons m mid =>
      obtain ⟨rfl, hpost⟩ := List.cons.inj hmid
      exact h pre d mid rfl

theorem Checked.append (h : R.Checked p log) (hes : ∀ e ∈ es, ∀ s, R.next s e = s)
    (hp : ∀ e ∈ es, p (R.read log) e) : R.Checked p (log ++ es) := by
  induction es generalizing log with
  | nil => rwa [List.append_nil]
  | cons e es ih =>
    have hread : R.read (log ++ [e]) = R.read log := by
      rw [read_snoc, hes e (by simp)]
    have hlog := ih (h.snoc (hp e (by simp))) (fun e' he' => hes e' (by simp [he']))
      (fun e' he' => by rw [hread]; exact hp e' (by simp [he']))
    simpa using hlog

theorem Checked.append_from (h : R.Checked p log) (hes : R.CheckedFrom p (R.read log) es) :
    R.Checked p (log ++ es) := by
  induction es generalizing log with
  | nil => rwa [List.append_nil]
  | cons e es ih =>
    have hlog := ih (h.snoc hes.1) (by rw [read_snoc]; exact hes.2)
    simpa using hlog

theorem CheckedFrom.append {s : σ} {fs : List ε} (hes : R.CheckedFrom p s es)
    (hfs : R.CheckedFrom p (es.foldl R.next s) fs) : R.CheckedFrom p s (es ++ fs) := by
  induction es generalizing s with
  | nil => exact hfs
  | cons e es ih => exact ⟨hes.1, ih hes.2 hfs⟩

end Checked

/-! ### Openings and closings -/

section Open

variable (opens closes : ε → Bool)

/-- Whether the last opening has not been closed. -/
def isOpen : Reader ε Bool where
  start := false
  next b e := if opens e then true else if closes e then false else b

variable {opens closes}

theorem isOpen_ignores {e : ε} (ho : opens e = false) (hc : closes e = false) (b : Bool) :
    (isOpen opens closes).next b e = b := by
  unfold isOpen
  dsimp only
  rw [ho, hc, if_neg Bool.false_ne_true, if_neg Bool.false_ne_true]

/-- Between two openings, when only what is open is closed: the closings are as many
as what was open at the start of the stretch and is not at its end. -/
theorem closings_eq {pre seg : List ε}
    (hp : (isOpen opens closes).Checked (fun b e => closes e = true → b = true) (pre ++ seg))
    (hseg : ∀ e ∈ seg, opens e = false) :
    seg.countP closes + ((isOpen opens closes).read (pre ++ seg)).toNat =
      ((isOpen opens closes).read pre).toNat := by
  induction seg generalizing pre with
  | nil => simp
  | cons e seg ih =>
    have hsplit : pre ++ e :: seg = (pre ++ [e]) ++ seg := by simp
    have he : opens e = false := hseg e (by simp)
    have hrest := ih (hsplit ▸ hp) fun e' he' => hseg e' (by simp [he'])
    rw [hsplit, List.countP_cons]
    rw [read_snoc] at hrest
    cases hc : closes e with
    | false =>
      rw [isOpen_ignores he hc] at hrest
      rw [if_neg Bool.false_ne_true, Nat.add_zero]
      exact hrest
    | true =>
      have hopen := hp pre e seg rfl hc
      have hnext : (isOpen opens closes).next ((isOpen opens closes).read pre) e = false := by
        unfold isOpen
        dsimp only
        rw [he, hc, if_neg Bool.false_ne_true, if_pos rfl]
      have hzero : (false : Bool).toNat = 0 := rfl
      have hone : (true : Bool).toNat = 1 := rfl
      rw [hnext] at hrest
      rw [if_pos rfl, hopen]
      omega

end Open

end Reader
