import Meetkit.Lib.Url
import Mathlib.Data.Char
import Mathlib.Data.List.Lex
import Mathlib.Data.List.Sort

/-! The query of a URL: percent-encoding of its keys and values, and how a form-encoded
query is read back. A string is a list of bytes, each a character; what is written is
read back whatever the bytes, as long as the characters that stand for themselves are
none the reader gives a meaning to. -/

namespace Query

open Url

/-- The bytes of a string. -/
def IsBytes (s : List Char) : Prop := ∀ c ∈ s, c.toNat < 256

instance (s : List Char) : Decidable (IsBytes s) := List.decidableBAll _ s

abbrev Bytes := {s : List Char // IsBytes s}

/-! ### Writing -/

def hexDigit (n : ℕ) : Char := Char.ofNat (if n < 10 then 48 + n else 55 + n)

def escapeByte (c : Char) : List Char := ['%', hexDigit (c.toNat / 16), hexDigit (c.toNat % 16)]

/-- `keep`: the characters that stand for themselves; `plus`: a space is written `+`. -/
def escapeChar (keep : Char → Bool) (plus : Bool) (c : Char) : List Char :=
  if keep c then [c] else if plus && c = ' ' then ['+'] else escapeByte c

def escape (keep : Char → Bool) (plus : Bool) (s : List Char) : List Char :=
  s.flatMap (escapeChar keep plus)

def unreserved (c : Char) : Bool := isAlpha c || isDigit c || c ∈ ['-', '_', '.', '~']

/-- Go's `url.QueryEscape`. -/
def queryEscape : List Char → List Char := escape unreserved true

def plainInComponent (c : Char) : Bool :=
  isAlpha c || isDigit c || c ∈ ['-', '_', '.', '!', '~', '*', '\'', '(', ')']

/-- JavaScript's `encodeURIComponent`, of the text's UTF-8. -/
def encodeURIComponent : List Char → List Char := escape plainInComponent false

/-- `key=value` pairs, joined by `&`. -/
def join (enc : List Char → List Char) (ps : List (List Char × List Char)) : List Char :=
  ['&'].intercalate (ps.map fun p => enc p.1 ++ '=' :: enc p.2)

/-- `url.Values` as `Set` makes them: one value a key. -/
abbrev Values := List (List Char × List Char)

/-- `Values.Encode` writes the keys in order. -/
def Values.encode (vs : Values) : List Char :=
  join queryEscape (vs.insertionSort fun p q => p.1 ≤ q.1)

/-! ### Reading -/

def plusToSpace (c : Char) : Char := if c = '+' then ' ' else c

/-- `url.QueryUnescape`. -/
def queryUnescape (s : List Char) : Option (List Char) := percentDecode (s.map plusToSpace)

/-- A part between two `&`: skipped when empty, ill-formed or with a semicolon. -/
def readPart (part : List Char) : Option (List Char × List Char) :=
  if part = [] ∨ ';' ∈ part then none
  else do
    let key ← queryUnescape (cut '=' part).1
    let value ← queryUnescape (cut '=' part).2
    return (key, value)

/-- `url.ParseQuery`, the pairs in the order read. -/
def parseQuery (s : List Char) : Values := (s.splitOn '&').filterMap readPart

/-- `Values.Get`: the first value of a key, empty when there is none. -/
def Values.get (vs : Values) (key : List Char) : List Char :=
  ((vs.find? fun p => p.1 = key).map Prod.snd).getD []

/-! ### The round trip -/

variable {keep : Char → Bool} {plus : Bool} {c : Char} {s t : List Char}

/-- The characters that stand for themselves mean nothing to the reader. -/
def Plain (keep : Char → Bool) : Prop := ∀ c ∈ ['%', '+', '&', ';', '=', '#'], keep c = false

instance (keep : Char → Bool) : Decidable (Plain keep) := List.decidableBAll _ _

theorem unhex_hexDigit : ∀ n < 16, unhex (hexDigit n) = some n := by decide

theorem hexDigit_plain : ∀ n < 16, hexDigit n ∉ ['%', '+', '&', ';', '=', '#'] := by decide

theorem percentDecode_escapeByte (h : c.toNat < 256) (s : List Char) :
    percentDecode (escapeByte c ++ s) = (percentDecode s).map (c :: ·) := by
  have hhi := unhex_hexDigit (c.toNat / 16) (by omega)
  have hlo := unhex_hexDigit (c.toNat % 16) (by omega)
  have hnat : 16 * (c.toNat / 16) + c.toNat % 16 = c.toNat := Nat.div_add_mod _ _
  simp [escapeByte, percentDecode, unescape, hhi, hlo, hnat]

theorem map_plusToSpace_escapeByte (h : c.toNat < 256) :
    (escapeByte c).map plusToSpace = escapeByte c := by
  have hhi := hexDigit_plain (c.toNat / 16) (by omega)
  have hlo := hexDigit_plain (c.toNat % 16) (by omega)
  simp only [List.mem_cons, not_or] at hhi hlo
  simp [escapeByte, plusToSpace, hhi.2.1, hlo.2.1]

/-- One character is read back before whatever follows. -/
theorem queryUnescape_escapeChar (hkeep : Plain keep) (h : c.toNat < 256) (s : List Char) :
    queryUnescape (escapeChar keep plus c ++ s) = (queryUnescape s).map (c :: ·) := by
  unfold queryUnescape escapeChar
  rw [List.map_append]
  split_ifs with hk hp
  · have hpct : c ≠ '%' := by
      rintro rfl
      simp [hkeep '%' (by simp)] at hk
    have hplus : c ≠ '+' := by
      rintro rfl
      simp [hkeep '+' (by simp)] at hk
    rw [List.map_singleton, plusToSpace, if_neg hplus, List.singleton_append, percentDecode,
      unescape_cons hpct]
    rfl
  · simp only [Bool.and_eq_true, decide_eq_true_eq] at hp
    obtain ⟨-, rfl⟩ := hp
    rw [List.map_singleton, List.singleton_append, percentDecode, unescape_cons (by decide)]
    rfl
  · rw [map_plusToSpace_escapeByte h]
    exact percentDecode_escapeByte h _

/-- What is written is read back. -/
theorem queryUnescape_escape (hkeep : Plain keep) (h : IsBytes s) :
    queryUnescape (escape keep plus s) = some s := by
  induction s with
  | nil => rfl
  | cons c s ih =>
    rw [escape, List.flatMap_cons, queryUnescape_escapeChar hkeep (h c List.mem_cons_self), ← escape,
      ih fun d hd => h d (List.mem_cons_of_mem c hd)]
    rfl

/-- What is written holds none of the separators. -/
theorem notMem_escape (hkeep : Plain keep) (h : IsBytes s) {d : Char}
    (hd : d ∈ ['&', ';', '=', '#']) : d ∉ escape keep plus s := by
  intro hmem
  obtain ⟨c, hc, hmem⟩ := List.mem_flatMap.1 hmem
  have hlt := h c hc
  have hd' : d ∈ ['%', '+', '&', ';', '=', '#'] :=
    List.mem_cons_of_mem _ (List.mem_cons_of_mem _ hd)
  unfold escapeChar at hmem
  split_ifs at hmem with hk hp
  · rw [List.mem_singleton] at hmem
    subst hmem
    simp [hkeep d hd'] at hk
  · rw [List.mem_singleton] at hmem
    subst hmem
    revert hd
    decide
  · have hhi := hexDigit_plain (c.toNat / 16) (by omega)
    have hlo := hexDigit_plain (c.toNat % 16) (by omega)
    simp only [escapeByte, List.mem_cons, List.not_mem_nil, or_false] at hmem
    rcases hmem with rfl | rfl | rfl
    · revert hd
      decide
    · exact hhi hd'
    · exact hlo hd'

/-- What is written is visible, and ends no query. -/
theorem visible_escape (h : IsBytes s) :
    ∀ d ∈ escape unreserved plus s, isCTL d = false ∧ d ≠ '#' := by
  have hhex : ∀ n < 16, isCTL (hexDigit n) = false ∧ hexDigit n ≠ '#' := by decide
  have hrest : ∀ d ∈ ['-', '_', '.', '~'], isCTL d = false :=
    List.forall_iff_forall_mem.1 (by decide)
  intro d hd
  obtain ⟨c, hc, hmem⟩ := List.mem_flatMap.1 hd
  have hlt := h c hc
  unfold escapeChar at hmem
  split_ifs at hmem with hk
  · obtain rfl := List.mem_singleton.1 hmem
    refine ⟨?_, by rintro rfl; exact absurd hk (by decide)⟩
    simp only [unreserved, Bool.or_eq_true, decide_eq_true_eq] at hk
    rcases hk with (hk | hk) | hk
    · exact isCTL_isAlpha hk
    · exact isCTL_isDigit hk
    · exact hrest d hk
  · obtain rfl := List.mem_singleton.1 hmem
    decide
  · simp only [escapeByte, List.mem_cons, List.not_mem_nil, or_false] at hmem
    rcases hmem with rfl | rfl | rfl
    · decide
    · exact hhex _ (by omega)
    · exact hhex _ (by omega)

theorem visible_encode {vs : Values} (h : ∀ p ∈ vs, IsBytes p.1 ∧ IsBytes p.2) :
    ∀ d ∈ vs.encode, isCTL d = false ∧ d ≠ '#' := by
  have hjoin : ∀ ps : Values, (∀ p ∈ ps, p ∈ vs) →
      ∀ d ∈ join queryEscape ps, isCTL d = false ∧ d ≠ '#' := by
    intro ps
    induction ps with
    | nil => exact fun _ d hd => absurd hd List.not_mem_nil
    | cons p ps ih =>
      intro hps d hd
      have hp := h p (hps p List.mem_cons_self)
      have hpart : d ∈ queryEscape p.1 ++ '=' :: queryEscape p.2 → isCTL d = false ∧ d ≠ '#' := by
        intro hd
        rcases List.mem_append.1 hd with hd | hd
        · exact visible_escape hp.1 d hd
        rcases List.mem_cons.1 hd with rfl | hd
        · decide
        · exact visible_escape hp.2 d hd
      have hrest := ih fun q hq => hps q (List.mem_cons_of_mem p hq)
      cases ps with
      | nil => exact hpart (by simpa [join] using hd)
      | cons q ps =>
        rw [join, List.map_cons, List.map_cons, List.intercalate_cons_cons, List.append_assoc] at hd
        rcases List.mem_append.1 hd with hd | hd
        · exact hpart hd
        rcases List.mem_append.1 hd with hd | hd
        · obtain rfl := List.mem_singleton.1 hd
          decide
        · exact hrest d hd
  exact hjoin _ fun p hp => (List.mem_insertionSort _).1 hp

theorem cut_append (h : c ∉ s) : cut c (s ++ c :: t) = (s, t) := by
  have hne : ∀ d ∈ s, decide (d ≠ c) = true := by
    intro d hd
    have : d ≠ c := fun e => h (e ▸ hd)
    simpa using this
  unfold cut
  rw [List.takeWhile_append_of_pos hne, List.dropWhile_append_of_pos hne]
  simp

/-- A pair is read back. -/
theorem readPart_escape (hkeep : Plain keep) {p : List Char × List Char} (h1 : IsBytes p.1)
    (h2 : IsBytes p.2) :
    readPart (escape keep plus p.1 ++ '=' :: escape keep plus p.2) = some p := by
  have heq : '=' ∉ escape keep plus p.1 := notMem_escape hkeep h1 (by simp)
  have hsemi : ';' ∉ escape keep plus p.1 ++ '=' :: escape keep plus p.2 := by
    simp [notMem_escape hkeep h1, notMem_escape hkeep h2]
  unfold readPart
  rw [if_neg (by simp [hsemi]), cut_append heq, queryUnescape_escape hkeep h1,
    queryUnescape_escape hkeep h2]
  rfl

/-- A query is read back pair by pair. -/
theorem parseQuery_join (hkeep : Plain keep) {ps : List (List Char × List Char)}
    (h : ∀ p ∈ ps, IsBytes p.1 ∧ IsBytes p.2) : parseQuery (join (escape keep plus) ps) = ps := by
  have hparts : ∀ part ∈ ps.map (fun p => escape keep plus p.1 ++ '=' :: escape keep plus p.2),
      '&' ∉ part := by
    intro part hpart
    obtain ⟨p, hp, rfl⟩ := List.mem_map.1 hpart
    simp [notMem_escape hkeep (h p hp).1, notMem_escape hkeep (h p hp).2]
  unfold parseQuery join
  cases ps with
  | nil => rfl
  | cons p ps =>
    rw [List.splitOn_intercalate _ hparts (by simp), List.filterMap_map]
    have hread : ∀ q ∈ p :: ps, (readPart ∘ fun p : List Char × List Char =>
        escape keep plus p.1 ++ '=' :: escape keep plus p.2) q = some q :=
      fun q hq => readPart_escape hkeep (h q hq).1 (h q hq).2
    rw [List.filterMap_congr hread, List.filterMap_some]

theorem plain_plainInComponent : Plain plainInComponent := by decide

theorem plain_unreserved : Plain unreserved := by decide

/-- `Encode` loses nothing and adds nothing. -/
theorem parseQuery_encode {vs : Values} (h : ∀ p ∈ vs, IsBytes p.1 ∧ IsBytes p.2) :
    (parseQuery vs.encode).Perm vs := by
  have hperm := List.perm_insertionSort (fun p q : List Char × List Char => p.1 ≤ q.1) vs
  unfold Values.encode queryEscape
  rw [parseQuery_join plain_unreserved fun p hp => h p (hperm.mem_iff.1 hp)]
  exact hperm

theorem get_of_mem {vs : Values} (hnodup : (vs.map Prod.fst).Nodup) {k v : List Char}
    (h : (k, v) ∈ vs) : vs.get k = v := by
  unfold Values.get
  cases hfind : vs.find? fun p => decide (p.1 = k) with
  | none => exact absurd (List.find?_eq_none.1 hfind (k, v) h) (by simp)
  | some p =>
    have hkey : p.1 = k := by simpa using List.find?_some hfind
    have hsame : p = (k, v) :=
      List.inj_on_of_nodup_map hnodup (List.mem_of_find?_eq_some hfind) h hkey
    rw [hsame]
    rfl

/-- Each value is read back under its key. -/
theorem get_encode {vs : Values} (h : ∀ p ∈ vs, IsBytes p.1 ∧ IsBytes p.2)
    (hnodup : (vs.map Prod.fst).Nodup) {k v : List Char} (hmem : (k, v) ∈ vs) :
    (parseQuery vs.encode).get k = v := by
  have hperm := parseQuery_encode h
  exact get_of_mem ((hperm.map Prod.fst).nodup_iff.2 hnodup) (hperm.mem_iff.2 hmem)

end Query
