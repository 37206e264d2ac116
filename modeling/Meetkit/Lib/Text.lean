import Mathlib.Data.List.Basic
import Mathlib.Data.List.DropRight
import Mathlib.Data.List.TakeWhile

/-! The few functions of Go's `strings` package the models use, on the list of
characters of a string. -/

namespace Text

/-- `unicode.IsSpace`. -/
def isSpace (c : Char) : Bool :=
  c.val ∈ [0x09, 0x0a, 0x0b, 0x0c, 0x0d, 0x20, 0x85, 0xa0, 0x1680, 0x2028, 0x2029, 0x202f,
    0x205f, 0x3000] || (0x2000 ≤ c.val && c.val ≤ 0x200a)

def trimSpaceList (cs : List Char) : List Char :=
  ((cs.dropWhile isSpace).reverse.dropWhile isSpace).reverse

/-- `strings.TrimSpace`. -/
def trimSpace (s : String) : String := String.ofList (trimSpaceList s.toList)

/-- What is left after both trims neither begins nor ends with a space. -/
theorem trimSpaceList_trimSpaceList (cs : List Char) :
    trimSpaceList (trimSpaceList cs) = trimSpaceList cs := by
  have hfront : ∀ l : List Char,
      ((l.dropWhile isSpace).rdropWhile isSpace).dropWhile isSpace =
        (l.dropWhile isSpace).rdropWhile isSpace := by
    intro l
    have hfix := List.dropWhile_idempotent isSpace l
    rw [List.dropWhile_eq_self_iff] at hfix ⊢
    intro hpos
    -- trimming the end leaves the first character alone
    have hlen : 0 < (l.dropWhile isSpace).length :=
      hpos.trans_le (List.rdropWhile_prefix isSpace _).length_le
    have hsame : (l.dropWhile isSpace)[0] = ((l.dropWhile isSpace).rdropWhile isSpace)[0] :=
      ((List.rdropWhile_prefix isSpace _).getElem hpos).symm
    rw [← hsame]
    exact hfix hlen
  change ((((cs.dropWhile isSpace).rdropWhile isSpace).dropWhile isSpace).rdropWhile isSpace) =
    (cs.dropWhile isSpace).rdropWhile isSpace
  rw [hfront, List.rdropWhile_idempotent]

@[simp] theorem trimSpace_trimSpace (s : String) : trimSpace (trimSpace s) = trimSpace s := by
  simp only [trimSpace, String.toList_ofList, trimSpaceList_trimSpaceList]

/-- White space, as much as there is. -/
def Blank (s : List Char) : Prop := ∀ c ∈ s, isSpace c = true

instance (s : List Char) : Decidable (Blank s) := List.decidableBAll _ s

section Padding

variable {s t pad : List Char} {c : Char}

theorem trimSpaceList_blank_append (h : Blank pad) (s : List Char) :
    trimSpaceList (pad ++ s) = trimSpaceList s := by
  rw [trimSpaceList, List.dropWhile_append_of_pos h, trimSpaceList]

theorem trimSpaceList_append_blank (h : Blank pad) (s : List Char) :
    trimSpaceList (s ++ pad) = trimSpaceList s := by
  have hrev : ∀ c ∈ pad.reverse, isSpace c = true := fun c hc => h c (List.mem_reverse.1 hc)
  rw [trimSpaceList, List.dropWhile_append, trimSpaceList]
  split_ifs with hs
  · have hnil : pad.dropWhile isSpace = [] := List.dropWhile_eq_nil_iff.2 h
    rw [hnil, List.isEmpty_iff.1 hs]
  · rw [List.reverse_append, List.dropWhile_append_of_pos hrev]

/-- What begins and ends with other characters is not trimmed. -/
theorem trimSpaceList_of_ends (hhead : ∀ c ∈ s.head?, isSpace c = false)
    (hlast : ∀ c ∈ s.getLast?, isSpace c = false) : trimSpaceList s = s := by
  have hkeep : ∀ t : List Char, (∀ c ∈ t.head?, isSpace c = false) → t.dropWhile isSpace = t := by
    intro t ht
    cases t with
    | nil => rfl
    | cons c t => rw [List.dropWhile_cons_of_neg (by rw [ht c rfl]; exact Bool.false_ne_true)]
  rw [trimSpaceList, hkeep s hhead, hkeep s.reverse (by rwa [List.head?_reverse]), List.reverse_reverse]

/-- A first character that is no white space stays. -/
theorem trimSpaceList_cons (hc : isSpace c = false) (s : List Char) :
    ∃ t, trimSpaceList (c :: s) = c :: t ∧ t <+: s := by
  have hfront : (c :: s).dropWhile isSpace = c :: s :=
    List.dropWhile_cons_of_neg (by rw [hc]; exact Bool.false_ne_true)
  have hpre : trimSpaceList (c :: s) <+: c :: s := by
    have hsuffix := (List.dropWhile_suffix (l := (c :: s).reverse) isSpace)
    rw [trimSpaceList, hfront, ← List.reverse_suffix, List.reverse_reverse]
    exact hsuffix
  cases ht : trimSpaceList (c :: s) with
  | nil =>
    rw [trimSpaceList, hfront, List.reverse_eq_nil_iff, List.dropWhile_eq_nil_iff] at ht
    have hspace := ht c (List.mem_reverse.2 List.mem_cons_self)
    rw [hc] at hspace
    cases hspace
  | cons d t =>
    rw [ht] at hpre
    obtain ⟨rfl, htail⟩ := List.cons_prefix_cons.1 hpre
    exact ⟨t, rfl, htail⟩

theorem mem_of_mem_trimSpaceList (h : c ∈ trimSpaceList s) : c ∈ s := by
  have hrev := (List.dropWhile_suffix isSpace).subset (List.mem_reverse.1 h)
  exact (List.dropWhile_suffix isSpace).subset (List.mem_reverse.1 hrev)

theorem exists_blank_trimSpaceList (s : List Char) :
    ∃ before after, Blank before ∧ Blank after ∧ s = before ++ trimSpaceList s ++ after := by
  refine ⟨s.takeWhile isSpace, (s.dropWhile isSpace).rtakeWhile isSpace,
    fun c hc => List.mem_takeWhile_imp hc, fun c hc => List.mem_rtakeWhile_imp hc, ?_⟩
  have hfront : s.takeWhile isSpace ++ s.dropWhile isSpace = s := List.takeWhile_append_dropWhile
  have hback : trimSpaceList s ++ (s.dropWhile isSpace).rtakeWhile isSpace = s.dropWhile isSpace :=
    List.rdropWhile_append_rtakeWhile
  rw [List.append_assoc, hback, hfront]

end Padding

/-! ### Splitting -/

section Splitting

variable {s pad : List Char} {sep : Char}

theorem exists_last_mem (h : sep ∈ s) : ∃ xs ys, s = xs ++ sep :: ys ∧ sep ∉ ys := by
  obtain ⟨ys, xs, hs, hys⟩ := List.eq_append_cons_of_mem (List.mem_reverse.2 h)
  refine ⟨xs.reverse, ys.reverse, ?_, fun hm => hys (List.mem_reverse.1 hm)⟩
  rw [← List.reverse_reverse s, hs]
  simp

theorem sep_notMem_blank (hsep : isSpace sep = false) (h : Blank pad) : sep ∉ pad := by
  intro hm
  have hspace := h sep hm
  rw [hsep] at hspace
  cases hspace

/-- The parts of `s`, each trimmed. -/
def trimmedParts (sep : Char) (s : List Char) : List (List Char) :=
  (s.splitOn sep).map trimSpaceList

theorem trimmedParts_append_blank (hsep : isSpace sep = false) (h : Blank pad) :
    trimmedParts sep (s ++ pad) = trimmedParts sep s := by
  have hpad := sep_notMem_blank hsep h
  unfold trimmedParts
  by_cases hs : sep ∈ s
  · obtain ⟨xs, ys, rfl, hys⟩ := exists_last_mem hs
    have hlast : sep ∉ ys ++ pad := fun hm => (List.mem_append.1 hm).elim hys hpad
    rw [List.append_assoc, List.cons_append, List.splitOn_append_cons_self,
      List.splitOn_append_cons_self, List.splitOn_eq_singleton hlast, List.splitOn_eq_singleton hys]
    simp only [List.map_append, List.map_singleton, trimSpaceList_append_blank h]
  · have hall : sep ∉ s ++ pad := fun hm => (List.mem_append.1 hm).elim hs hpad
    rw [List.splitOn_eq_singleton hall, List.splitOn_eq_singleton hs]
    simp only [List.map_singleton, trimSpaceList_append_blank h]

theorem trimmedParts_blank_append (hsep : isSpace sep = false) (h : Blank pad) :
    trimmedParts sep (pad ++ s) = trimmedParts sep s := by
  have hpad := sep_notMem_blank hsep h
  unfold trimmedParts
  by_cases hs : sep ∈ s
  · obtain ⟨xs, ys, rfl, hxs⟩ := List.eq_append_cons_of_mem hs
    have hfirst : sep ∉ pad ++ xs := fun hm => (List.mem_append.1 hm).elim hpad hxs
    rw [← List.append_assoc, List.splitOn_append_cons_self_of_not_mem hfirst,
      List.splitOn_append_cons_self_of_not_mem hxs]
    simp only [List.map_cons, trimSpaceList_blank_append h]
  · have hall : sep ∉ pad ++ s := fun hm => (List.mem_append.1 hm).elim hpad hs
    rw [List.splitOn_eq_singleton hall, List.splitOn_eq_singleton hs]
    simp only [List.map_singleton, trimSpaceList_blank_append h]

/-- Trimming a text before it is split changes no part that is trimmed anyway. -/
theorem trimmedParts_trimSpaceList (hsep : isSpace sep = false) (s : List Char) :
    trimmedParts sep (trimSpaceList s) = trimmedParts sep s := by
  obtain ⟨before, after, hb, ha, hs⟩ := exists_blank_trimSpaceList s
  calc trimmedParts sep (trimSpaceList s)
      = trimmedParts sep (before ++ trimSpaceList s) := (trimmedParts_blank_append hsep hb).symm
    _ = trimmedParts sep (before ++ trimSpaceList s ++ after) :=
        (trimmedParts_append_blank hsep ha).symm
    _ = trimmedParts sep s := by rw [← hs]

end Splitting

/-- `unicode.ToLower` up to the characters outside ASCII that stay outside it;
the Kelvin sign and the dotted capital I are the two that do not. -/
def lowerChar (c : Char) : Char :=
  if c.val = 0x212a then 'k' else if c.val = 0x130 then 'i' else c.toLower

/-- `strings.ToLower`, for comparison with ASCII words. -/
def toLower (s : String) : String := String.ofList (s.toList.map lowerChar)

/-! ### Trimming one character -/

/-- `strings.TrimLeft` with a cutset of one character. -/
def trimLeft (c : Char) (s : List Char) : List Char := s.dropWhile (· = c)

/-- `strings.TrimRight`. -/
def trimRight (c : Char) (s : List Char) : List Char := s.rdropWhile (· = c)

/-- `strings.Trim`. -/
def trim (c : Char) (s : List Char) : List Char := trimRight c (trimLeft c s)

section Trimming

variable {c : Char} {s t : List Char}

theorem trimLeft_cons_self : trimLeft c (c :: s) = trimLeft c s :=
  List.dropWhile_cons_of_pos (by simp)

theorem trimLeft_of_head (h : s.head? ≠ some c) : trimLeft c s = s := by
  cases s with
  | nil => rfl
  | cons d s => exact List.dropWhile_cons_of_neg (by simpa using h)

/-- What does not begin with the character is not trimmed. -/
theorem suffix_trimLeft (h : t.head? ≠ some c) : t <:+ trimLeft c (s ++ t) := by
  induction s with
  | nil =>
    change t <:+ trimLeft c t
    simp only [trimLeft_of_head h, List.suffix_refl]
  | cons d s ih =>
    by_cases hd : d = c
    · rw [hd, List.cons_append, trimLeft_cons_self]
      exact ih
    · rw [trimLeft_of_head (by simpa using hd)]
      exact List.suffix_append _ _

end Trimming

/-! ### Searching -/

/-- `strings.Index`: where `sep` occurs first. -/
def index (sep : List Char) : List Char → Option ℕ
  | [] => if sep = [] then some 0 else none
  | c :: s => if sep.isPrefixOf (c :: s) then some 0 else (index sep s).map (· + 1)

section Searching

variable {sep s : List Char} {i j : ℕ}

theorem index_spec (h : index sep s = some i) : sep <+: s.drop i := by
  induction s generalizing i with
  | nil =>
    unfold index at h
    split_ifs at h with hsep
    rw [hsep]
    exact List.nil_prefix
  | cons c s ih =>
    unfold index at h
    split_ifs at h with hpre
    · rw [← Option.some.inj h]
      exact List.isPrefixOf_iff_prefix.1 hpre
    · obtain ⟨i', hi', rfl⟩ := Option.map_eq_some_iff.1 h
      exact ih hi'

theorem index_le (h : sep <+: s.drop j) : ∃ i ≤ j, index sep s = some i := by
  induction s generalizing j with
  | nil =>
    rw [List.drop_nil, List.prefix_nil] at h
    exact ⟨0, Nat.zero_le j, if_pos h⟩
  | cons c s ih =>
    unfold index
    split_ifs with hpre
    · exact ⟨0, Nat.zero_le j, rfl⟩
    · cases j with
      | zero => exact absurd (List.isPrefixOf_iff_prefix.2 h) hpre
      | succ j =>
        obtain ⟨i, hi, hindex⟩ := ih h
        exact ⟨i + 1, Nat.succ_le_succ hi, by rw [hindex]; rfl⟩

theorem index_char_none {c : Char} (h : c ∉ s) : index [c] s = none := by
  cases hi : index [c] s with
  | none => rfl
  | some i =>
    have hmem : c ∈ s.drop i := (index_spec hi).subset List.mem_cons_self
    exact absurd (List.mem_of_mem_drop hmem) h

/-- A character is found at its first occurrence. -/
theorem index_char {c : Char} (h : c ∉ s) (t : List Char) : index [c] (s ++ c :: t) = some s.length := by
  induction s with
  | nil => simp [index]
  | cons d s ih =>
    have hd : ¬[c].isPrefixOf (d :: (s ++ c :: t)) := by
      simpa using fun he : c = d => h (he ▸ List.mem_cons_self)
    rw [List.cons_append, index, if_neg hd, ih fun hm => h (List.mem_cons_of_mem d hm)]
    rfl

end Searching

/-! ### Joining -/

section Joining

variable {sep : Char} {a t r s : List Char}

/-- Two pairs joined by one separator read the same if they are the same, or if one of
them has the separator somewhere else too and is cut there. -/
theorem append_sep_inj_iff : a ++ sep :: t = r ++ sep :: s ↔ a = r ∧ t = s ∨
    (∃ x, r = a ++ sep :: x ∧ t = x ++ sep :: s) ∨ ∃ x, a = r ++ sep :: x ∧ s = x ++ sep :: t := by
  constructor
  · intro h
    rcases List.append_eq_append_iff.1 h with ⟨x, hr, ht⟩ | ⟨x, ha, hs⟩
    · rcases x with _ | ⟨c, x⟩
      · rw [List.append_nil] at hr
        rw [List.nil_append] at ht
        exact Or.inl ⟨hr.symm, (List.cons.inj ht).2⟩
      · obtain ⟨rfl, htail⟩ := List.cons.inj ht
        exact Or.inr (Or.inl ⟨x, hr, htail⟩)
    · rcases x with _ | ⟨c, x⟩
      · rw [List.append_nil] at ha
        rw [List.nil_append] at hs
        exact Or.inl ⟨ha, (List.cons.inj hs).2.symm⟩
      · obtain ⟨rfl, htail⟩ := List.cons.inj hs
        exact Or.inr (Or.inr ⟨x, ha, htail⟩)
  · rintro (⟨rfl, rfl⟩ | ⟨x, rfl, rfl⟩ | ⟨x, rfl, rfl⟩)
    · rfl
    · rw [List.append_assoc, List.cons_append]
    · rw [List.append_assoc, List.cons_append]

/-- The same for strings. -/
theorem join_inj_iff {sep a t r s : String} {c : Char} (hsep : sep.toList = [c]) :
    a ++ sep ++ t = r ++ sep ++ s ↔ a = r ∧ t = s ∨
      (∃ x, r = a ++ sep ++ x ∧ t = x ++ sep ++ s) ∨ ∃ x, a = r ++ sep ++ x ∧ s = x ++ sep ++ t := by
  have hlist : ∀ u v : String, (u ++ sep ++ v).toList = u.toList ++ c :: v.toList := by
    intro u v
    rw [String.toList_append, String.toList_append, hsep, List.append_assoc, List.singleton_append]
  have hex : ∀ p : List Char → Prop, (∃ x, p x) ↔ ∃ x : String, p x.toList := fun p =>
    ⟨fun ⟨x, hx⟩ => ⟨String.ofList x, by rwa [String.toList_ofList]⟩, fun ⟨x, hx⟩ => ⟨x.toList, hx⟩⟩
  simp only [← String.toList_inj, hlist]
  rw [append_sep_inj_iff, hex, hex]

end Joining

end Text
