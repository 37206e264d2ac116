import Mathlib.Data.List.Basic
import Mathlib.Data.List.TakeWhile

/-! How Go's `net/url` reads an absolute URL that has an authority. A Go string is a
list of bytes; a character stands for each. -/

namespace Url

/-! ### Cutting at a character -/

/-- `strings.Cut`. -/
def cut (c : Char) (s : List Char) : List Char × List Char :=
  (s.takeWhile (· ≠ c), (s.dropWhile (· ≠ c)).drop 1)

/-- What follows the last `c`; everything when there is none. -/
def afterLast (c : Char) (s : List Char) : List Char := (s.reverse.takeWhile (· ≠ c)).reverse

/-- What precedes the last `c`; nothing when there is none. -/
def beforeLast (c : Char) (s : List Char) : List Char :=
  ((s.reverse.dropWhile (· ≠ c)).drop 1).reverse

section Cutting

variable {c : Char} {s t x y : List Char}

theorem ne_of_mem_reverse (h : c ∉ t) : ∀ a ∈ t.reverse, decide (a ≠ c) = true := by
  intro a ha
  have hne : a ≠ c := fun e => h (e ▸ List.mem_reverse.1 ha)
  simpa using hne

theorem notMem_afterLast : c ∉ afterLast c s := by
  intro h
  have hc := List.mem_takeWhile_imp (List.mem_reverse.1 h)
  simp at hc

theorem afterLast_append (h : c ∉ t) : afterLast c (s ++ t) = afterLast c s ++ t := by
  unfold afterLast
  rw [List.reverse_append, List.takeWhile_append_of_pos (ne_of_mem_reverse h),
    List.reverse_append, List.reverse_reverse]

theorem afterLast_of_notMem (h : c ∉ t) : afterLast c t = t := by
  simpa [afterLast] using afterLast_append (s := []) h

theorem afterLast_split (h : c ∉ y) : afterLast c (x ++ c :: y) = y := by
  have hx : afterLast c (x ++ [c]) = [] := by simp [afterLast]
  rw [List.append_cons, afterLast_append h, hx, List.nil_append]

theorem beforeLast_split (h : c ∉ y) : beforeLast c (x ++ c :: y) = x := by
  unfold beforeLast
  rw [List.reverse_append, List.reverse_cons, List.append_assoc,
    List.dropWhile_append_of_pos (ne_of_mem_reverse h)]
  simp

theorem split_last (h : c ∈ s) : s = beforeLast c s ++ c :: afterLast c s := by
  obtain ⟨y, x, he, hy⟩ := List.eq_append_cons_of_mem (List.mem_reverse.2 h)
  have hs : s = x.reverse ++ c :: y.reverse := by
    rw [← List.reverse_reverse s, he]
    simp
  have hy' : c ∉ y.reverse := fun h => hy (List.mem_reverse.1 h)
  rw [hs, beforeLast_split hy', afterLast_split hy']

theorem afterLast_append_of_mem (h : c ∈ t) : afterLast c (s ++ t) = afterLast c t := by
  rw [split_last h, ← List.append_assoc, afterLast_split notMem_afterLast,
    afterLast_split notMem_afterLast]

end Cutting

/-! ### Percent-encoding -/

def unhex (c : Char) : Option ℕ :=
  if '0' ≤ c ∧ c ≤ '9' then some (c.toNat - '0'.toNat)
  else if 'a' ≤ c ∧ c ≤ 'f' then some (c.toNat - 'a'.toNat + 10)
  else if 'A' ≤ c ∧ c ≤ 'F' then some (c.toNat - 'A'.toNat + 10)
  else none

def isAlpha (c : Char) : Bool := ('a' ≤ c && c ≤ 'z') || ('A' ≤ c && c ≤ 'Z')

def isDigit (c : Char) : Bool := '0' ≤ c && c ≤ '9'

/-- What may stand unescaped in a host: `!shouldEscape(c, encodeHost)`. -/
def plainInHost (c : Char) : Bool :=
  isAlpha c || isDigit c || c ∈ ['-', '_', '.', '~', '!', '$', '&', '\'', '(', ')', '*', '+', ',',
    ';', '=', ':', '[', ']', '<', '>', '"']

def isASCII (c : Char) : Bool := c.toNat < 0x80

/-- `unescape`: `raw` says which characters may stand for themselves, `esc` which may be
escaped. -/
def unescape (raw esc : Char → Bool) : List Char → Option (List Char)
  | [] => some []
  | c :: s =>
    if c = '%' then
      match s with
      | x :: y :: s =>
        match unhex x, unhex y with
        | some a, some b =>
          if esc (Char.ofNat (16 * a + b)) then
            (unescape raw esc s).map (Char.ofNat (16 * a + b) :: ·)
          else none
        | _, _ => none
      | _ => none
    else if raw c then (unescape raw esc s).map (c :: ·)
    else none

def hostRaw (c : Char) : Bool := !isASCII c || plainInHost c

/-- `encodeHost`: in a host only bytes outside ASCII are escaped, and `%` itself. -/
def unescapeHost : List Char → Option (List Char) :=
  unescape hostRaw fun c => !isASCII c || c = '%'

/-- `encodeZone`. -/
def unescapeZone : List Char → Option (List Char) :=
  unescape hostRaw fun c => c = '%' || c = ' ' || isASCII c && plainInHost c

/-- The other modes, in which every byte may stand raw or escaped. -/
def percentDecode : List Char → Option (List Char) := unescape (fun _ => true) fun _ => true

section Decoding

variable {raw esc : Char → Bool} {c : Char} {s t x y : List Char}

theorem unescape_cons (h : c ≠ '%') : unescape raw esc (c :: s) =
    if raw c then (unescape raw esc s).map (c :: ·) else none := by
  rw [unescape.eq_def]
  exact if_neg h

/-- The modes differ in what they refuse, not in what they read. -/
theorem percentDecode_of_unescape (h : unescape raw esc s = some y) : percentDecode s = some y := by
  unfold percentDecode
  fun_induction unescape raw esc s generalizing y with
  | case1 => exact h
  | case2 x d s a b hb ha hesc ih =>
    obtain ⟨z, hz, rfl⟩ := Option.map_eq_some_iff.1 h
    simp [unescape, ha, hb, ih hz]
  | case6 c s hc hraw ih =>
    obtain ⟨z, hz, rfl⟩ := Option.map_eq_some_iff.1 h
    simp [unescape_cons hc, ih hz]
  | case3 | case4 | case5 | case7 => cases h

theorem unescape_append (h : percentDecode s = some y) : unescape raw esc (s ++ t) =
    (unescape raw esc s).bind fun x => (unescape raw esc t).map (x ++ ·) := by
  unfold percentDecode at h
  fun_induction unescape (fun _ => true) (fun _ => true) s generalizing y with
  | case1 => simp [unescape]
  | case2 x d s a b hb ha hesc ih =>
    obtain ⟨z, hz, -⟩ := Option.map_eq_some_iff.1 h
    simp only [List.cons_append, unescape, ha, hb, ih hz]
    by_cases hok : esc (Char.ofNat (16 * a + b))
    · cases unescape raw esc s <;> simp [hok, Function.comp_def]
    · simp [hok]
  | case6 c s hc hraw ih =>
    obtain ⟨z, hz, -⟩ := Option.map_eq_some_iff.1 h
    rw [List.cons_append, unescape_cons hc, unescape_cons hc, ih hz]
    by_cases hok : raw c
    · cases unescape raw esc s <;> simp [hok, Function.comp_def]
    · simp [hok]
  | case3 | case4 | case5 | case7 => cases h

theorem percentDecode_append (hs : percentDecode s = some x) :
    percentDecode (s ++ t) = (percentDecode t).map (x ++ ·) := by
  rw [percentDecode, unescape_append hs, ← percentDecode, hs]
  rfl

theorem unescape_plain (hraw : ∀ c ∈ s, raw c = true) (h : '%' ∉ s) : unescape raw esc s = some s := by
  induction s with
  | nil => rfl
  | cons c s ih =>
    rw [List.mem_cons, not_or] at h
    rw [unescape_cons (Ne.symm h.1), if_pos (hraw c List.mem_cons_self),
      ih (fun d hd => hraw d (List.mem_cons_of_mem c hd)) h.2]
    rfl

theorem percentDecode_plain (h : '%' ∉ s) : percentDecode s = some s :=
  unescape_plain (fun _ _ => rfl) h

theorem percentDecode_eq_nil (h : percentDecode s = some []) : s = [] := by
  unfold percentDecode at h
  fun_induction unescape (fun _ => true) (fun _ => true) s with
  | case1 => rfl
  | case2 | case6 => simp at h
  | case3 | case4 | case5 | case7 => cases h

theorem percentDecode_eq_singleton (h : percentDecode s = some [c]) :
    s = [c] ∨ ∃ x y a b, s = ['%', x, y] ∧ unhex x = some a ∧ unhex y = some b ∧
      Char.ofNat (16 * a + b) = c := by
  unfold percentDecode at h
  fun_induction unescape (fun _ => true) (fun _ => true) s with
  | case1 => cases h
  | case2 x d s a b hb ha hesc ih =>
    obtain ⟨z, hz, he⟩ := Option.map_eq_some_iff.1 h
    obtain ⟨hc, rfl⟩ := List.cons.inj he
    rw [percentDecode_eq_nil hz]
    exact .inr ⟨x, d, a, b, rfl, ha, hb, hc⟩
  | case6 c' s hc hraw ih =>
    obtain ⟨z, hz, he⟩ := Option.map_eq_some_iff.1 h
    obtain ⟨rfl, rfl⟩ := List.cons.inj he
    rw [percentDecode_eq_nil hz]
    exact .inl rfl
  | case3 | case4 | case5 | case7 => cases h

/-- An escape does not go over a character that is none of its own. -/
theorem percentDecode_split (hc : c ≠ '%') (hhex : unhex c = none)
    (h : percentDecode (s ++ c :: t) = some y) :
    ∃ x z, percentDecode s = some x ∧ percentDecode t = some z ∧ y = x ++ c :: z := by
  unfold percentDecode at h ⊢
  fun_induction unescape (fun _ => true) (fun _ => true) s generalizing y with
  | case1 =>
    rw [List.nil_append, unescape_cons hc] at h
    obtain ⟨z, hz, rfl⟩ := Option.map_eq_some_iff.1 h
    exact ⟨[], z, rfl, hz, rfl⟩
  | case2 a b s m n hn hm hesc ih =>
    simp only [List.cons_append, unescape, hm, hn, if_true] at h
    obtain ⟨w, hw, rfl⟩ := Option.map_eq_some_iff.1 h
    obtain ⟨x, z, hx, hz, rfl⟩ := ih hw
    exact ⟨Char.ofNat (16 * m + n) :: x, z, by rw [hx]; rfl, hz, rfl⟩
  | case6 d s hd hraw ih =>
    rw [List.cons_append, unescape_cons hd] at h
    obtain ⟨w, hw, rfl⟩ := Option.map_eq_some_iff.1 h
    obtain ⟨x, z, hx, hz, rfl⟩ := ih hw
    exact ⟨d :: x, z, by rw [hx]; rfl, hz, rfl⟩
  | case3 a b s m n hn hm hesc => exact absurd rfl hesc
  | case4 a b s hno =>
    exfalso
    simp only [List.cons_append, unescape, if_true] at h
    cases hm : unhex a with
    | none => cases h
    | some m =>
      cases hn : unhex b with
      | none => cases h
      | some n => exact hno m n hm hn
  | case5 s hshort =>
    exfalso
    cases s with
    | nil =>
      cases t with
      | nil => simp [unescape] at h
      | cons d t => simp [unescape, hhex] at h
    | cons a s =>
      cases s with
      | nil => simp [unescape, hhex] at h
      | cons b s => exact hshort a b s rfl
  | case7 d s hd hraw => exact absurd rfl hraw

/-- Apart from the escapes, the text is of raw characters. -/
theorem raw_of_unescape (h : unescape raw esc s = some y) :
    ∀ c ∈ s, raw c ∨ c = '%' ∨ (unhex c).isSome := by
  fun_induction unescape raw esc s generalizing y with
  | case1 => simp
  | case2 x d s a b hb ha hesc ih =>
    obtain ⟨z, hz, -⟩ := Option.map_eq_some_iff.1 h
    simpa [ha, hb] using ih hz
  | case6 c s hc hraw ih =>
    obtain ⟨z, hz, -⟩ := Option.map_eq_some_iff.1 h
    simpa [hraw] using ih hz
  | case3 | case4 | case5 | case7 => cases h

end Decoding

/-! ### The authority -/

def validOptionalPort : List Char → Bool
  | [] => true
  | c :: port => c = ':' && port.all isDigit

/-- What precedes the zone of an IPv6 literal: the text up to the first `%25`. -/
def beforeZone : List Char → List Char
  | [] => []
  | c :: s => if "%25".toList.isPrefixOf (c :: s) then [] else c :: beforeZone s

def parseHost (s : List Char) : Option (List Char) :=
  if s.head? = some '[' then
    if ']' ∉ s ∨ !validOptionalPort (afterLast ']' s) then none
    else
      let inside := beforeLast ']' s
      let front := beforeZone inside
      if front.length < inside.length then do
        let host1 ← unescapeHost front
        let host2 ← unescapeZone (inside.drop front.length)
        let host3 ← unescapeHost (']' :: afterLast ']' s)
        return host1 ++ host2 ++ host3
      else unescapeHost s
  else if ':' ∈ s ∧ !validOptionalPort (':' :: afterLast ':' s) then none
  else unescapeHost s

def validUserinfo (s : List Char) : Bool :=
  s.all fun c => isAlpha c || isDigit c || c ∈ ['-', '.', '_', ':', '~', '!', '$', '&', '\'', '(', ')',
    '*', '+', ',', ';', '=', '%', '@']

/-- The host of an authority, its port included. -/
def parseAuthority (s : List Char) : Option (List Char) :=
  if '@' ∈ s ∧ (!validUserinfo (beforeLast '@' s) ∨ (percentDecode (beforeLast '@' s)).isNone) then none
  else parseHost (afterLast '@' s)

/-! ### The URL -/

structure URL where
  scheme : List Char
  /-- Host and port. -/
  host : List Char
  deriving DecidableEq

def isSchemeChar (c : Char) : Bool := isAlpha c || isDigit c || c ∈ ['+', '-', '.']

/-- The scheme and what follows its colon. -/
def getScheme (s : List Char) : Option (List Char × List Char) :=
  match s.dropWhile isSchemeChar with
  | ':' :: rest =>
    if (s.takeWhile isSchemeChar).head?.any isAlpha then some (s.takeWhile isSchemeChar, rest) else none
  | _ => none

def isCTL (c : Char) : Bool := c.toNat < 0x20 || c.toNat = 0x7f

/-- `url.Parse` of a URL with a scheme and an authority; any other is not read here. -/
def parse (raw : List Char) : Option URL :=
  let (s, fragment) := cut '#' raw
  if s.any isCTL || (percentDecode fragment).isNone then none
  else match getScheme s with
    | some (scheme, '/' :: '/' :: rest) =>
      let authority := (cut '?' rest).1.takeWhile (· ≠ '/')
      let path := (cut '?' rest).1.dropWhile (· ≠ '/')
      if (percentDecode path).isNone then none
      else (parseAuthority authority).map fun host => ⟨scheme.map Char.toLower, host⟩
    | _ => none

/-- `splitHostPort` of `Hostname` and `Port`, with the brackets of a literal kept. -/
def splitHostPort (host : List Char) : List Char × List Char :=
  if ':' ∈ host ∧ validOptionalPort (':' :: afterLast ':' host) then
    (beforeLast ':' host, afterLast ':' host)
  else (host, [])

structure Origin where
  scheme : List Char
  host : List Char
  port : List Char
  deriving DecidableEq

def URL.origin (u : URL) : Origin := ⟨u.scheme, (splitHostPort u.host).1, (splitHostPort u.host).2⟩

section Hosts

variable {s t x y : List Char}

theorem beforeZone_initial (s : List Char) : beforeZone s <+: s := by
  induction s with
  | nil => exact List.prefix_rfl
  | cons c s ih =>
    unfold beforeZone
    split
    · exact List.nil_prefix
    · exact List.cons_prefix_cons.2 ⟨rfl, ih⟩

/-- A host is read in at most three pieces, the middle one as a zone. -/
theorem parseHost_pieces (h : parseHost s = some y) : ∃ s₁ s₂ s₃ y₁ y₂ y₃,
    s = s₁ ++ (s₂ ++ s₃) ∧ y = y₁ ++ (y₂ ++ y₃) ∧ unescapeHost s₁ = some y₁ ∧
      unescapeZone s₂ = some y₂ ∧ unescapeHost s₃ = some y₃ := by
  have hwhole : unescapeHost s = some y → ∃ s₁ s₂ s₃ y₁ y₂ y₃,
      s = s₁ ++ (s₂ ++ s₃) ∧ y = y₁ ++ (y₂ ++ y₃) ∧ unescapeHost s₁ = some y₁ ∧
        unescapeZone s₂ = some y₂ ∧ unescapeHost s₃ = some y₃ :=
    fun h => ⟨s, [], [], y, [], [], by simp, by simp, h, rfl, rfl⟩
  unfold parseHost at h
  split_ifs at h with hbracket hbad hport
  · simp only at h
    split_ifs at h with hzone
    · simp only [Option.bind_eq_bind, Option.bind_eq_some_iff, Option.pure_def,
        Option.some.injEq] at h
      obtain ⟨y₁, h₁, y₂, h₂, y₃, h₃, rfl⟩ := h
      refine ⟨_, _, _, y₁, y₂, y₃, ?_, List.append_assoc .., h₁, h₂, h₃⟩
      have hmem : ']' ∈ s := by
        by_contra hn
        exact hbad (.inl hn)
      have hfront := List.prefix_iff_eq_append.1 (beforeZone_initial (beforeLast ']' s))
      rw [← List.append_assoc, hfront]
      exact split_last hmem
    · exact hwhole h
  · exact hwhole h

theorem percentDecode_of_parseHost (h : parseHost s = some y) : percentDecode s = some y := by
  obtain ⟨s₁, s₂, s₃, y₁, y₂, y₃, rfl, rfl, h₁, h₂, h₃⟩ := parseHost_pieces h
  rw [percentDecode_append (percentDecode_of_unescape h₁),
    percentDecode_append (percentDecode_of_unescape h₂), percentDecode_of_unescape h₃]
  rfl

theorem raw_of_parseHost (h : parseHost s = some y) :
    ∀ c ∈ s, hostRaw c ∨ c = '%' ∨ (unhex c).isSome := by
  obtain ⟨s₁, s₂, s₃, y₁, y₂, y₃, rfl, rfl, h₁, h₂, h₃⟩ := parseHost_pieces h
  intro c hc
  rw [List.mem_append, List.mem_append] at hc
  rcases hc with hc | hc | hc
  · exact raw_of_unescape h₁ c hc
  · exact raw_of_unescape h₂ c hc
  · exact raw_of_unescape h₃ c hc

theorem parseHost_ne_delimiter (h : parseHost s = some y) {c : Char}
    (hc : c ∈ ['/', '?', '#', '@']) : c ∉ s := by
  intro hs
  have hraw := raw_of_parseHost h c hs
  revert hraw
  simp only [List.mem_cons, List.not_mem_nil, or_false] at hc
  rcases hc with rfl | rfl | rfl | rfl <;> decide

/-- A colon is not read off an escape at the end of a host. -/
theorem parseHost_append_colon (hs : percentDecode s = some y)
    (h : parseHost (s ++ t) = some (y ++ [':'])) : t = [':'] := by
  have ht := percentDecode_of_parseHost h
  rw [percentDecode_append hs] at ht
  obtain ⟨z, hz, he⟩ := Option.map_eq_some_iff.1 ht
  rw [List.append_cancel_left he] at hz
  obtain rfl | ⟨a, b, m, n, rfl, hm, hn, hcolon⟩ := percentDecode_eq_singleton hz
  · rfl
  exfalso
  have hhost : unescapeHost (s ++ ['%', a, b]) = none := by
    have hnone : unescapeHost ['%', a, b] = none := by
      simp only [unescapeHost, unescape, if_true, hm, hn, hcolon]
      decide
    rw [unescapeHost, unescape_append hs, ← unescapeHost, hnone]
    cases unescapeHost s <;> rfl
  have hport : validOptionalPort (afterLast ']' (s ++ ['%', a, b])) = false := by
    have hm' : ']' ≠ a := by rintro rfl; cases hm
    have hn' : ']' ≠ b := by rintro rfl; cases hn
    rw [afterLast_append (by simp [hm', hn'])]
    cases afterLast ']' s with
    | nil => rfl
    | cons c p => simp [validOptionalPort, isDigit]
  unfold parseHost at h
  split_ifs at h with hbracket hbad
  · exact hbad (.inr (by rw [hport]; rfl))
  · rw [hhost] at h
    cases h

theorem splitHostPort_iff : splitHostPort s = (x, y) ↔
    (s = x ++ ':' :: y ∧ y.all isDigit) ∨ (s = x ∧ y = [] ∧ splitHostPort x = (x, [])) := by
  constructor
  · intro h
    have hs := h
    unfold splitHostPort at h
    split_ifs at h with hport
    · obtain ⟨rfl, rfl⟩ := Prod.mk.inj h
      exact .inl ⟨split_last hport.1, by simpa [validOptionalPort] using hport.2⟩
    · obtain ⟨rfl, rfl⟩ := Prod.mk.inj h
      exact .inr ⟨rfl, rfl, hs⟩
  · rintro (⟨rfl, hy⟩ | ⟨rfl, rfl, h⟩)
    · have hcolon : ':' ∉ y := by
        intro h
        have hd := List.all_eq_true.1 hy _ h
        revert hd
        decide
      unfold splitHostPort
      rw [afterLast_split hcolon, beforeLast_split hcolon, if_pos]
      exact ⟨by simp, by simpa [validOptionalPort] using hy⟩
    · exact h

theorem digits_plain {port : List Char} (h : port.all isDigit) {c : Char} (hc : isDigit c = false) :
    c ∉ port := by
  intro hmem
  rw [List.all_eq_true.1 h c hmem] at hc
  cases hc

/-- What is read as a host without a port ends in none. -/
theorem ne_port (h : percentDecode s = some y) (halone : splitHostPort y = (y, []))
    {port : List Char} (hport : port.all isDigit) (q : List Char) : s ≠ q ++ ':' :: port := by
  rintro rfl
  obtain ⟨x, z, -, hz, rfl⟩ := percentDecode_split (by decide) (by decide) h
  obtain rfl : port = z :=
    Option.some.inj ((percentDecode_plain (digits_plain hport (by decide))).symm.trans hz)
  have hsplit := (splitHostPort_iff (x := x) (y := port)).2 (.inl ⟨rfl, hport⟩)
  have hsame : x = x ++ ':' :: port := congrArg Prod.fst (hsplit.symm.trans halone)
  exact absurd (List.self_eq_append_right.1 hsame) (List.cons_ne_nil _ _)

theorem unescapeHost_append_port (h : unescapeHost s = some y) {port : List Char}
    (hport : port.all isDigit) : unescapeHost (s ++ ':' :: port) = some (y ++ ':' :: port) := by
  have hown : unescapeHost (':' :: port) = some (':' :: port) := by
    refine unescape_plain (fun c hc => ?_) ?_
    · rcases List.mem_cons.1 hc with rfl | hc
      · decide
      · simp [hostRaw, plainInHost, List.all_eq_true.1 hport c hc]
    · rw [List.mem_cons, not_or]
      exact ⟨by decide, digits_plain hport (by decide)⟩
  rw [unescapeHost, unescape_append (percentDecode_of_unescape h), ← unescapeHost, h, hown]
  rfl

/-- A host that is read without a port is read with one put behind it. -/
theorem parseHost_append_port (h : parseHost s = some y) (hne : s ≠ [])
    (halone : splitHostPort y = (y, [])) {port : List Char} (hport : port.all isDigit) :
    parseHost (s ++ ':' :: port) = some (y ++ ':' :: port) := by
  have hbare : ∀ {d : List Char}, d.all isDigit → ∀ q, s ≠ q ++ ':' :: d :=
    ne_port (percentDecode_of_parseHost h) halone
  have hhead : (s ++ ':' :: port).head? = s.head? := by
    cases s with
    | nil => exact absurd rfl hne
    | cons c s => rfl
  have hvalid : validOptionalPort (':' :: port) = true := by simpa [validOptionalPort] using hport
  unfold parseHost at h ⊢
  rw [hhead]
  by_cases hlit : s.head? = some '['
  · rw [if_pos hlit] at h ⊢
    by_cases hbad : ']' ∉ s ∨ !validOptionalPort (afterLast ']' s)
    · rw [if_pos hbad] at h
      cases h
    obtain ⟨hmem, hold⟩ := not_or.1 hbad
    have hsplit := split_last (not_not.1 hmem)
    -- nothing stands behind the bracket
    have hend : afterLast ']' s = [] := by
      cases hp : afterLast ']' s with
      | nil => rfl
      | cons c p =>
        rw [hp] at hold
        simp only [validOptionalPort, Bool.not_eq_true, Bool.not_eq_false', Bool.and_eq_true,
          decide_eq_true_eq] at hold
        obtain ⟨rfl, hdigits⟩ := hold
        refine absurd ?_ (hbare hdigits (beforeLast ']' s ++ [']']))
        rw [List.append_assoc, List.singleton_append, ← hp]
        exact hsplit
    have hbracket : ']' ∉ ':' :: port := by
      rw [List.mem_cons, not_or]
      exact ⟨by decide, digits_plain hport (by decide)⟩
    have hlast : afterLast ']' (s ++ ':' :: port) = ':' :: port := by
      rw [afterLast_append hbracket, hend]
      rfl
    have hbefore : beforeLast ']' (s ++ ':' :: port) = beforeLast ']' s := by
      rw [hend] at hsplit
      have hsplit' : s ++ ':' :: port = beforeLast ']' s ++ ']' :: ':' :: port := by
        rw [← List.singleton_append (l := ':' :: port), ← List.append_assoc, ← hsplit]
      rw [hsplit', beforeLast_split hbracket]
    have hok : ¬(']' ∉ s ++ ':' :: port ∨ !validOptionalPort (afterLast ']' (s ++ ':' :: port))) := by
      rw [hlast, hvalid]
      simp [not_not.1 hmem]
    rw [if_neg hbad] at h
    rw [if_neg hok]
    dsimp only at h ⊢
    rw [hbefore, hlast]
    split_ifs at h ⊢ with hzone
    · rw [hend] at h
      simp only [Option.bind_eq_bind, Option.bind_eq_some_iff, Option.pure_def,
        Option.some.injEq] at h ⊢
      obtain ⟨y₁, h₁, y₂, h₂, y₃, h₃, rfl⟩ := h
      exact ⟨y₁, h₁, y₂, h₂, _, unescapeHost_append_port h₃ hport, by simp⟩
    · exact unescapeHost_append_port h hport
  · rw [if_neg hlit] at h ⊢
    have hnone : ':' ∉ s := by
      intro hmem
      split_ifs at h with hbad
      refine absurd (split_last hmem) (hbare ?_ _)
      simpa [validOptionalPort, hmem] using hbad
    rw [if_neg (by simp [hnone])] at h
    have hlast : afterLast ':' (s ++ ':' :: port) = port :=
      afterLast_split (digits_plain hport (by decide))
    rw [hlast, hvalid, if_neg (by simp)]
    exact unescapeHost_append_port h hport

end Hosts

section Absolute

variable {scheme rest s y : List Char} {u : URL}

theorem parseHost_of_parseAuthority (h : parseAuthority s = some y) :
    parseHost (afterLast '@' s) = some y := by
  unfold parseAuthority at h
  split_ifs at h
  exact h

theorem takeWhile_authority (s : List Char) :
    ((s.takeWhile (· ≠ '#')).takeWhile (· ≠ '?')).takeWhile (· ≠ '/') =
      s.takeWhile (· ∉ ['/', '?', '#']) := by
  rw [List.takeWhile_takeWhile, List.takeWhile_takeWhile]
  congr 1
  funext c
  simp [and_assoc]

theorem parse_absolute (hhead : scheme.head?.any isAlpha) (hscheme : ∀ c ∈ scheme, isSchemeChar c)
    (h : parse (scheme ++ ':' :: '/' :: '/' :: rest) = some u) :
    u.scheme = scheme.map Char.toLower ∧
      parseAuthority (rest.takeWhile (· ∉ ['/', '?', '#'])) = some u.host := by
  have hcut : (cut '#' (scheme ++ ':' :: '/' :: '/' :: rest)).1 =
      scheme ++ ':' :: '/' :: '/' :: rest.takeWhile (· ≠ '#') := by
    have hplain : ∀ c ∈ scheme, decide (c ≠ '#') = true := by
      intro c hc
      have hne : c ≠ '#' := by
        rintro rfl
        exact absurd (hscheme _ hc) (by decide)
      simpa using hne
    unfold cut
    rw [List.takeWhile_append_of_pos hplain]
    simp
  have hget : getScheme (scheme ++ ':' :: '/' :: '/' :: rest.takeWhile (· ≠ '#')) =
      some (scheme, '/' :: '/' :: rest.takeWhile (· ≠ '#')) := by
    have hcolon : isSchemeChar ':' = false := by decide
    simp only [getScheme, List.dropWhile_append_of_pos hscheme,
      List.takeWhile_append_of_pos hscheme, List.dropWhile_cons, List.takeWhile_cons, hcolon]
    simp [hhead]
  unfold parse at h
  simp only [hcut, hget] at h
  split_ifs at h
  obtain ⟨host, hhost, rfl⟩ := Option.map_eq_some_iff.1 h
  rw [← takeWhile_authority]
  exact ⟨rfl, hhost⟩

theorem isCTL_between {lo hi c : Char} (hlo : '!' ≤ lo) (hhi : hi ≤ '~') (h : lo ≤ c ∧ c ≤ hi) :
    isCTL c = false := by
  have hnat : ∀ {a b : Char}, a ≤ b → a.toNat ≤ b.toNat := fun h => UInt32.le_iff_toNat_le.1 h
  have hfirst : 33 ≤ c.toNat := Nat.le_trans (hnat hlo) (hnat h.1)
  have hlast : c.toNat ≤ 126 := Nat.le_trans (hnat h.2) (hnat hhi)
  simp only [isCTL, Bool.or_eq_false_iff, decide_eq_false_iff_not]
  omega

theorem isCTL_isAlpha {c : Char} (h : isAlpha c = true) : isCTL c = false := by
  simp only [isAlpha, Bool.or_eq_true, Bool.and_eq_true, decide_eq_true_eq] at h
  rcases h with h | h
  · exact isCTL_between (by decide) (by decide) h
  · exact isCTL_between (by decide) (by decide) h

theorem isCTL_isDigit {c : Char} (h : isDigit c = true) : isCTL c = false := by
  simp only [isDigit, Bool.and_eq_true, decide_eq_true_eq] at h
  exact isCTL_between (by decide) (by decide) h

theorem isCTL_unhex {c : Char} (h : (unhex c).isSome) : isCTL c = false := by
  unfold unhex at h
  split_ifs at h with hd hl hu
  · exact isCTL_between (by decide) (by decide) hd
  · exact isCTL_between (by decide) (by decide) hl
  · exact isCTL_between (by decide) (by decide) hu
  · cases h

theorem isCTL_isSchemeChar {c : Char} (h : isSchemeChar c = true) : isCTL c = false := by
  have hrest : ∀ c ∈ ['+', '-', '.'], isCTL c = false :=
    List.forall_iff_forall_mem.1 (by decide)
  simp only [isSchemeChar, Bool.or_eq_true, decide_eq_true_eq] at h
  rcases h with (h | h) | h
  · exact isCTL_isAlpha h
  · exact isCTL_isDigit h
  · exact hrest c h

theorem isCTL_hostRaw {c : Char} (h : hostRaw c = true) : isCTL c = false := by
  have hrest : ∀ c ∈ ['-', '_', '.', '~', '!', '$', '&', '\'', '(', ')', '*', '+', ',', ';', '=', ':',
      '[', ']', '<', '>', '"'], isCTL c = false := List.forall_iff_forall_mem.1 (by decide)
  simp only [hostRaw, plainInHost, Bool.or_eq_true, decide_eq_true_eq] at h
  rcases h with h | (h | h) | h
  · simp only [isASCII, Bool.not_eq_true', decide_eq_false_iff_not] at h
    simp only [isCTL, Bool.or_eq_false_iff, decide_eq_false_iff_not]
    omega
  · exact isCTL_isAlpha h
  · exact isCTL_isDigit h
  · exact hrest c h

theorem isCTL_of_parseHost (h : parseHost s = some y) : ∀ c ∈ s, isCTL c = false := by
  intro c hc
  rcases raw_of_parseHost h c hc with hraw | rfl | hhex
  · exact isCTL_hostRaw hraw
  · decide
  · exact isCTL_unhex hhex

/-- A URL of plain parts is read. -/
theorem parse_of_parts {authority path query host : List Char} (hhead : scheme.head?.any isAlpha)
    (hscheme : ∀ c ∈ scheme, isSchemeChar c) (hhost : parseAuthority authority = some host)
    (hauth : '/' ∉ authority ∧ '?' ∉ authority) (hpath : path.head? = some '/')
    (hplain : '%' ∉ path ∧ '?' ∉ path)
    (hvisible : ∀ c ∈ authority ++ (path ++ '?' :: query), isCTL c = false ∧ c ≠ '#') :
    parse (scheme ++ ':' :: '/' :: '/' :: (authority ++ (path ++ '?' :: query))) =
      some ⟨scheme.map Char.toLower, host⟩ := by
  have hne : ∀ {d : Char} {l : List Char}, d ∉ l → ∀ c ∈ l, decide (c ≠ d) = true := by
    intro d l hd c hc
    have : c ≠ d := fun e => hd (e ▸ hc)
    simpa using this
  have hall : ∀ c ∈ scheme ++ ':' :: '/' :: '/' :: (authority ++ (path ++ '?' :: query)),
      isCTL c = false ∧ c ≠ '#' := by
    intro c hc
    rcases List.mem_append.1 hc with hc | hc
    · have hs := hscheme c hc
      refine ⟨isCTL_isSchemeChar hs, ?_⟩
      rintro rfl
      exact absurd hs (by decide)
    · rcases List.mem_cons.1 hc with rfl | hc
      · decide
      rcases List.mem_cons.1 hc with rfl | hc
      · decide
      rcases List.mem_cons.1 hc with rfl | hc
      · decide
      exact hvisible c hc
  have hcut : cut '#' (scheme ++ ':' :: '/' :: '/' :: (authority ++ (path ++ '?' :: query))) =
      (scheme ++ ':' :: '/' :: '/' :: (authority ++ (path ++ '?' :: query)), []) := by
    have hhash := hne fun h => (hall '#' h).2 rfl
    unfold cut
    rw [List.takeWhile_eq_self_iff.2 hhash, List.dropWhile_eq_nil_iff.2 hhash]
    rfl
  have hctl : (scheme ++ ':' :: '/' :: '/' :: (authority ++ (path ++ '?' :: query))).any isCTL =
      false := List.any_eq_false.2 fun c hc => by rw [(hall c hc).1]; exact Bool.false_ne_true
  have hget : getScheme (scheme ++ ':' :: '/' :: '/' :: (authority ++ (path ++ '?' :: query))) =
      some (scheme, '/' :: '/' :: (authority ++ (path ++ '?' :: query))) := by
    have hcolon : isSchemeChar ':' = false := by decide
    simp only [getScheme, List.dropWhile_append_of_pos hscheme,
      List.takeWhile_append_of_pos hscheme, List.dropWhile_cons, List.takeWhile_cons, hcolon]
    simp [hhead]
  have hquery : (cut '?' (authority ++ (path ++ '?' :: query))).1 = authority ++ path := by
    unfold cut
    dsimp only
    rw [List.takeWhile_append_of_pos (hne hauth.2), List.takeWhile_append_of_pos (hne hplain.2)]
    simp
  obtain ⟨p, hp⟩ := List.head?_eq_some_iff.1 hpath
  have htake : (authority ++ path).takeWhile (· ≠ '/') = authority := by
    rw [List.takeWhile_append_of_pos (hne hauth.1), hp]
    simp
  have hdrop : (authority ++ path).dropWhile (· ≠ '/') = path := by
    rw [List.dropWhile_append_of_pos (hne hauth.1), hp]
    simp
  have hnil : percentDecode [] = some [] := rfl
  unfold parse
  simp only [hcut, hctl, hnil, hget, hquery, htake, hdrop, percentDecode_plain hplain.1, hhost]
  rfl

end Absolute
end Url
