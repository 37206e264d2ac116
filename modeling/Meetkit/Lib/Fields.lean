import Meetkit.Lib.Text
import Mathlib.Algebra.Ring.Nat

/-! Text made of words and decimal numbers, and how Go's `strings.Fields`,
`strconv.ParseUint` and `bufio.Scanner` take it apart. -/

namespace Fields

open Text

/-! ### Words -/

/-- The words of `s` when the last of them has begun with `word`, reversed. -/
def wordsFrom (word : List Char) : List Char → List (List Char)
  | [] => if word = [] then [] else [word.reverse]
  | c :: s =>
    if isSpace c then
      if word = [] then wordsFrom [] s else word.reverse :: wordsFrom [] s
    else wordsFrom (c :: word) s

/-- `strings.Fields`. -/
def fields (s : List Char) : List (List Char) := wordsFrom [] s

def IsWord (w : List Char) : Prop := w ≠ [] ∧ ∀ c ∈ w, isSpace c = false

instance (w : List Char) : Decidable (IsWord w) :=
  @instDecidableAnd _ _ _ (List.decidableBAll _ w)

variable {w s pad : List Char} {ws : List (List Char)} {c : Char}

theorem wordsFrom_append (word : List Char) (h : ∀ c ∈ w, isSpace c = false) (s : List Char) :
    wordsFrom word (w ++ s) = wordsFrom (w.reverse ++ word) s := by
  induction w generalizing word with
  | nil => rfl
  | cons c w ih =>
    have hc : ¬isSpace c = true := by simp [h c List.mem_cons_self]
    rw [List.cons_append, wordsFrom, if_neg hc, ih _ fun d hd => h d (List.mem_cons_of_mem c hd)]
    simp

/-- A word ends where a space follows. -/
theorem fields_word_space (hw : IsWord w) (hc : isSpace c = true) (s : List Char) :
    fields (w ++ c :: s) = w :: fields s := by
  unfold fields
  rw [wordsFrom_append [] hw.2, List.append_nil, wordsFrom, if_pos hc, List.reverse_reverse,
    if_neg (by simpa using hw.1)]

theorem fields_word (hw : IsWord w) : fields w = [w] := by
  have h := wordsFrom_append [] hw.2 []
  rw [List.append_nil, List.append_nil] at h
  rw [fields, h, wordsFrom, if_neg (by simpa using hw.1), List.reverse_reverse]

/-- Spaces in front are passed over. -/
theorem fields_blank_append (hpad : Blank pad) (s : List Char) : fields (pad ++ s) = fields s := by
  induction pad with
  | nil => rfl
  | cons c pad ih =>
    have hc : isSpace c = true := hpad c List.mem_cons_self
    have hrest := ih fun d hd => hpad d (List.mem_cons_of_mem c hd)
    unfold fields at hrest ⊢
    rw [List.cons_append, wordsFrom, if_pos hc, if_pos rfl]
    exact hrest

/-- Words with a space between them, in front of nothing or of a space. -/
theorem fields_intercalate (h : ∀ w ∈ ws, IsWord w) (hs : ∀ c ∈ s.head?, isSpace c = true) :
    fields ([' '].intercalate ws ++ s) = ws ++ fields s := by
  induction ws with
  | nil => rfl
  | cons w ws ih =>
    have hw : IsWord w := h w List.mem_cons_self
    have hrest := ih fun u hu => h u (List.mem_cons_of_mem w hu)
    cases ws with
    | nil =>
      rw [List.intercalate_singleton]
      cases s with
      | nil => rw [List.append_nil, fields_word hw]; rfl
      | cons c s =>
        have hc : isSpace c = true := hs c rfl
        have hskip : fields (c :: s) = fields s := by
          have hblank : Blank [c] := by
            intro d hd
            rw [List.mem_singleton.1 hd]
            exact hc
          exact fields_blank_append hblank s
        rw [fields_word_space hw hc, hskip]
        rfl
    | cons v ws =>
      rw [List.intercalate_cons_cons, List.append_assoc, List.append_assoc, List.singleton_append,
        fields_word_space hw (by decide), hrest]
      rfl

theorem notMem_intercalate (hc : c ≠ ' ') (h : ∀ w ∈ ws, c ∉ w) : c ∉ [' '].intercalate ws := by
  induction ws with
  | nil => exact List.not_mem_nil
  | cons w ws ih =>
    have hw : c ∉ w := h w List.mem_cons_self
    have hrest := ih fun v hv => h v (List.mem_cons_of_mem w hv)
    cases ws with
    | nil => simpa using hw
    | cons v ws =>
      rw [List.intercalate_cons_cons]
      simp [hw, hc, hrest]

theorem length_intercalate_le {n : ℕ} (h : ∀ w ∈ ws, w.length ≤ n) :
    ([' '].intercalate ws).length ≤ ws.length * (n + 1) := by
  induction ws with
  | nil => simp
  | cons w ws ih =>
    have hw : w.length ≤ n := h w List.mem_cons_self
    have hrest := ih fun v hv => h v (List.mem_cons_of_mem w hv)
    cases ws with
    | nil =>
      rw [List.intercalate_singleton, List.length_singleton, Nat.one_mul]
      omega
    | cons v ws =>
      rw [List.intercalate_cons_cons, List.length_cons, Nat.succ_mul]
      simp only [List.length_append, List.length_singleton]
      omega

/-! ### Numbers -/

/-- `strconv.ParseUint(s, 10, 64)`: the value and whether there was no error. -/
def parseUint (s : List Char) : UInt64 × Bool :=
  if s = [] ∨ !s.all Char.isDigit then (0, false)
  else if Nat.ofDigitChars 10 s 0 < 2 ^ 64 then (UInt64.ofNat (Nat.ofDigitChars 10 s 0), true)
  else (UInt64.ofNat (2 ^ 64 - 1), false)

def decimal (n : UInt64) : List Char := Nat.toDigits 10 n.toNat

theorem isDigit_of_mem_decimal {n : UInt64} (h : c ∈ decimal n) : c.isDigit = true :=
  Nat.isDigit_of_mem_toDigits (by decide) (by decide) h

theorem isSpace_of_isDigit (h : c.isDigit = true) : isSpace c = false := by
  have hrange : 48 ≤ c.val ∧ c.val ≤ 57 := by simpa [Char.isDigit] using h
  have hlow : 48 ≤ c.toNat := hrange.1
  have hhigh : c.toNat ≤ 57 := hrange.2
  simp only [isSpace, Bool.or_eq_false_iff, decide_eq_false_iff_not, List.mem_cons,
    List.not_mem_nil, or_false, not_or, Bool.and_eq_false_iff, ← UInt32.toNat_inj,
    UInt32.le_iff_toNat_le]
  refine ⟨⟨?_, ?_, ?_, ?_, ?_, ?_, ?_, ?_, ?_, ?_, ?_, ?_, ?_, ?_⟩, ?_⟩
  all_goals simp; omega

theorem isWord_decimal (n : UInt64) : IsWord (decimal n) :=
  ⟨Nat.toDigits_ne_nil, fun _ hc => isSpace_of_isDigit (isDigit_of_mem_decimal hc)⟩

/-- A number that fits is read back. -/
theorem parseUint_decimal (n : UInt64) : parseUint (decimal n) = (n, true) := by
  have hdigits : (decimal n).all Char.isDigit = true :=
    List.all_eq_true.2 fun c hc => isDigit_of_mem_decimal hc
  have hvalue : Nat.ofDigitChars 10 (decimal n) 0 = n.toNat := Nat.ofDigitChars_ten_toDigits
  unfold parseUint
  rw [hdigits, hvalue, if_neg (by simp [decimal, Nat.toDigits_ne_nil]), if_pos n.toNat_lt]
  simp

/-- No 64-bit number has more than twenty digits. -/
theorem length_decimal_le (n : UInt64) : (decimal n).length ≤ 20 := by
  have hn : n.toNat < 2 ^ 64 := n.toNat_lt
  unfold decimal
  rw [Nat.length_toDigits_le_iff (by decide) (by decide)]
  omega

/-! ### Lines -/

/-- `bufio.MaxScanTokenSize`. -/
def maxScanTokenSize : ℕ := 64 * 1024

/-- `dropCR`. -/
def dropCR (l : List Char) : List Char := if l.getLast? = some '\r' then l.dropLast else l

/-- The tokens of `s` when `line`, reversed, has been read of the first one. A line that fills
the buffer ends the scan. -/
def linesFrom (line : List Char) : List Char → List (List Char)
  | [] => if line = [] then [] else [dropCR line.reverse]
  | c :: s =>
    if c = '\n' then dropCR line.reverse :: linesFrom [] s
    else if line.length + 1 < maxScanTokenSize then linesFrom (c :: line) s
    else []

/-- The tokens of a `bufio.Scanner`: the lines without their ends. -/
def scanLines (s : List Char) : List (List Char) := linesFrom [] s

/-- A line without ends in it, short enough for the scanner. -/
def IsLine (l : List Char) : Prop := '\n' ∉ l ∧ '\r' ∉ l ∧ l.length < maxScanTokenSize

instance (l : List Char) : Decidable (IsLine l) := inferInstanceAs (Decidable (_ ∧ _ ∧ _))

variable {l : List Char}

theorem linesFrom_append (line : List Char) (h : '\n' ∉ l)
    (hlen : line.length + l.length < maxScanTokenSize) (s : List Char) :
    linesFrom line (l ++ s) = linesFrom (l.reverse ++ line) s := by
  induction l generalizing line with
  | nil => rfl
  | cons c l ih =>
    have hc : c ≠ '\n' := fun e => h (e ▸ List.mem_cons_self)
    have hl : '\n' ∉ l := fun hmem => h (List.mem_cons_of_mem c hmem)
    rw [List.length_cons] at hlen
    have hroom : line.length + 1 < maxScanTokenSize := by omega
    have hrest : (c :: line).length + l.length < maxScanTokenSize := by
      rw [List.length_cons]
      omega
    rw [List.cons_append, linesFrom, if_neg hc, if_pos hroom, ih (c :: line) hl hrest]
    simp

theorem scanLines_line (h : IsLine l) (s : List Char) :
    scanLines (l ++ '\n' :: s) = l :: scanLines s := by
  obtain ⟨hend, hcr, hlen⟩ := h
  have hkeep : dropCR l = l := if_neg fun hlast => hcr (List.mem_of_getLast? hlast)
  have hread := linesFrom_append [] hend (by simpa using hlen) ('\n' :: s)
  unfold scanLines
  rw [hread, linesFrom, if_pos rfl, List.append_nil, List.reverse_reverse, hkeep]

/-- Lines are read back one by one, whatever follows them. -/
theorem scanLines_lines (h : ∀ l ∈ ws, IsLine l) (s : List Char) :
    scanLines ((ws.flatMap fun l => l ++ ['\n']) ++ s) = ws ++ scanLines s := by
  induction ws with
  | nil => rfl
  | cons l ws ih =>
    have hl : IsLine l := h l List.mem_cons_self
    rw [List.flatMap_cons, List.append_assoc, List.append_assoc, List.singleton_append,
      scanLines_line hl, ih fun k hk => h k (List.mem_cons_of_mem l hk)]
    rfl

end Fields
