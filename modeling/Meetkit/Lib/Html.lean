import Mathlib.Data.List.Basic

/-! Markup as a browser reads it: elements with double-quoted attributes, text, and the
character references `&amp;`, `&lt;`, `&gt;`, `&quot;` and `&#39;`. Whatever else a browser
would read is not read here. Characters of text come one at a time. An escape of
characters is safe where each escaped character is read as itself; what is written with
safe escapes is read as what was written. -/

namespace Html

inductive Token
  | char (c : Char)
  | startTag (name : List Char) (attrs : List (List Char × List Char))
  | endTag (name : List Char)
  deriving DecidableEq, Repr

/-! ### Newlines -/

/-- The newlines of the input, `\r` and `\r\n` too, are `\n`. The flag says that a `\r` was
read before. -/
def newlines : Bool → List Char → List Char
  | _, [] => []
  | afterCR, c :: cs =>
    if c = '\r' then '\n' :: newlines true cs
    else if c = '\n' && afterCR then newlines false cs
    else c :: newlines false cs

def Inline (w : List Char) : Prop := '\r' ∉ w ∧ '\n' ∉ w

instance (w : List Char) : Decidable (Inline w) := inferInstanceAs (Decidable (_ ∧ _))

theorem newlines_cons {c : Char} (hr : c ≠ '\r') (hn : c ≠ '\n') (b : Bool) (cs : List Char) :
    newlines b (c :: cs) = c :: newlines false cs := by
  rw [newlines, if_neg hr, if_neg (by simp [hn])]

theorem newlines_inline {w : List Char} (hw : Inline w) (hne : w ≠ []) (b : Bool) (cs : List Char) :
    newlines b (w ++ cs) = w ++ newlines false cs := by
  induction w generalizing b with
  | nil => exact absurd rfl hne
  | cons c w ih =>
    obtain ⟨hr, hn⟩ := hw
    rw [List.mem_cons, not_or] at hr hn
    rw [List.cons_append, newlines_cons (Ne.symm hr.1) (Ne.symm hn.1)]
    cases w with
    | nil => rfl
    | cons d w =>
      rw [ih ⟨hr.2, hn.2⟩ (List.cons_ne_nil d w)]
      rfl

/-- Text up to a character that is no newline. -/
theorem newlines_append {c : Char} (hr : c ≠ '\r') (hn : c ≠ '\n') (s cs : List Char) :
    ∀ b, newlines b (s ++ c :: cs) = newlines b s ++ c :: newlines false cs := by
  induction s with
  | nil => exact fun b => newlines_cons hr hn b cs
  | cons d s ih =>
    intro b
    rw [List.cons_append, newlines, newlines]
    split_ifs
    · rw [ih, List.cons_append]
    · rw [ih]
    · rw [ih, List.cons_append]

theorem newlines_self {s : List Char} (hs : '\r' ∉ s) : newlines false s = s := by
  induction s with
  | nil => rfl
  | cons c s ih =>
    rw [List.mem_cons, not_or] at hs
    rw [newlines, if_neg (Ne.symm hs.1), if_neg (by simp), ih hs.2]

/-! ### Reading -/

/-- The character that a reference stands for. -/
def charRef (name : List Char) : Option Char :=
  if name = "amp".toList then some '&'
  else if name = "lt".toList then some '<'
  else if name = "gt".toList then some '>'
  else if name = "quot".toList then some '"'
  else if name = "#39".toList then some '\''
  else none

/-- Where the tokeniser is, with what it has read of the tag. -/
inductive State
  | data
  | reference (name : List Char)
  | tagOpen
  | tagName (tag : List Char)
  | endTagName (tag : List Char)
  | beforeAttr (tag : List Char) (attrs : List (List Char × List Char))
  | attrName (tag : List Char) (attrs : List (List Char × List Char)) (name : List Char)
  | beforeValue (tag : List Char) (attrs : List (List Char × List Char)) (name : List Char)
  | value (tag : List Char) (attrs : List (List Char × List Char)) (name v : List Char)
  | valueReference (tag : List Char) (attrs : List (List Char × List Char)) (name v : List Char)
      (ref : List Char)
  | afterValue (tag : List Char) (attrs : List (List Char × List Char))
  deriving DecidableEq, Repr

def isNameChar (c : Char) : Bool := c.isLower || c.isDigit || c = '-'

def isRefChar (c : Char) : Bool := c.isAlphanum || c = '#'

/-- A `NUL` in text is dropped. -/
def asText (c : Char) : List Token := if c.toNat = 0 then [] else [.char c]

/-- A `NUL` in a value is replaced. -/
def asValue (c : Char) : Char := if c.toNat = 0 then '\ufffd' else c

def step : State → Char → Option (State × List Token)
  | .data, c =>
    if c = '<' then some (.tagOpen, [])
    else if c = '&' then some (.reference [], [])
    else some (.data, asText c)
  | .reference name, c =>
    if c = ';' then (charRef name).map fun d => (.data, [.char d])
    else if isRefChar c then some (.reference (name ++ [c]), [])
    else none
  | .tagOpen, c =>
    if c = '/' then some (.endTagName [], [])
    else if c.isLower then some (.tagName [c], [])
    else none
  | .tagName tag, c =>
    if c = '>' then some (.data, [.startTag tag []])
    else if c = ' ' then some (.beforeAttr tag [], [])
    else if isNameChar c then some (.tagName (tag ++ [c]), [])
    else none
  | .endTagName tag, c =>
    if c = '>' then some (.data, [.endTag tag])
    else if isNameChar c then some (.endTagName (tag ++ [c]), [])
    else none
  | .beforeAttr tag attrs, c =>
    if isNameChar c then some (.attrName tag attrs [c], []) else none
  | .attrName tag attrs name, c =>
    if c = '=' then some (.beforeValue tag attrs name, [])
    else if isNameChar c then some (.attrName tag attrs (name ++ [c]), [])
    else none
  | .beforeValue tag attrs name, c =>
    if c = '"' then some (.value tag attrs name [], []) else none
  | .value tag attrs name v, c =>
    if c = '"' then some (.afterValue tag (attrs ++ [(name, v)]), [])
    else if c = '&' then some (.valueReference tag attrs name v [], [])
    else some (.value tag attrs name (v ++ [asValue c]), [])
  | .valueReference tag attrs name v ref, c =>
    if c = ';' then (charRef ref).map fun d => (.value tag attrs name (v ++ [d]), [])
    else if isRefChar c then some (.valueReference tag attrs name v (ref ++ [c]), [])
    else none
  | .afterValue tag attrs, c =>
    if c = '>' then some (.data, [.startTag tag attrs])
    else if c = ' ' then some (.beforeAttr tag attrs, [])
    else none

def run : State → List Char → Option (State × List Token)
  | st, [] => some (st, [])
  | st, c :: cs => do
    let (st, out) ← step st c
    let (st, more) ← run st cs
    return (st, out ++ more)

/-- What the markup says, if it is over at its end. -/
def tokens (s : List Char) : Option (List Token) :=
  match run .data (newlines false s) with
  | some (.data, out) => some out
  | _ => none

/-- Reading `s` leads from one state to the other. -/
def Reads (st : State) (s : List Char) (st' : State) (out : List Token) : Prop :=
  run st s = some (st', out)

section Reads

variable {st st' st'' : State} {s t : List Char} {out more : List Token} {c : Char}

theorem Reads.nil (st : State) : Reads st [] st [] := rfl

theorem Reads.cons (hc : step st c = some (st', out)) (hs : Reads st' s st'' more) :
    Reads st (c :: s) st'' (out ++ more) := by
  unfold Reads run
  rw [hc]
  change (do let (st, m) ← run st' s; return (st, out ++ m)) = _
  rw [hs]
  rfl

theorem Reads.append (hs : Reads st s st' out) (ht : Reads st' t st'' more) :
    Reads st (s ++ t) st'' (out ++ more) := by
  induction s generalizing st out with
  | nil =>
    obtain ⟨rfl, rfl⟩ : st = st' ∧ [] = out := by simpa [Reads, run] using hs
    exact ht
  | cons c s ih =>
    unfold Reads run at hs
    cases hc : step st c with
    | none => simp [hc] at hs
    | some p =>
      obtain ⟨st1, o⟩ := p
      cases hr : run st1 s with
      | none => simp [hc, hr] at hs
      | some q =>
        obtain ⟨st2, m⟩ := q
        obtain ⟨rfl, rfl⟩ : st2 = st' ∧ o ++ m = out := by simpa [hc, hr] using hs
        rw [List.cons_append, List.append_assoc]
        exact .cons hc (ih hr)

theorem tokens_of_reads (h : Reads .data (newlines false s) .data out) : tokens s = some out := by
  unfold tokens
  rw [h]

end Reads

/-! ### Names and escapes -/

def IsName : List Char → Bool
  | [] => false
  | c :: w => c.isLower && w.all isNameChar

theorem isNameChar_of_isLower {c : Char} (h : c.isLower = true) : isNameChar c = true := by
  unfold isNameChar
  rw [h]
  rfl

theorem all_of_isName {w : List Char} (h : IsName w = true) : w.all isNameChar = true := by
  cases w with
  | nil => cases h
  | cons c w =>
    rw [IsName, Bool.and_eq_true] at h
    rw [List.all_cons, isNameChar_of_isLower h.1, h.2]
    rfl

theorem inline_of_names {w : List Char} (h : w.all isNameChar = true) : Inline w := by
  rw [List.all_eq_true] at h
  exact ⟨fun hr => absurd (h _ hr) (by decide), fun hn => absurd (h _ hn) (by decide)⟩

/-- A stretch of characters that the state keeps. -/
theorem Reads.collect {g : List Char → State} {p : Char → Bool}
    (hg : ∀ acc c, p c = true → step (g acc) c = some (g (acc ++ [c]), [])) (w : List Char)
    (hw : w.all p = true) : ∀ acc, Reads (g acc) w (g (acc ++ w)) [] := by
  induction w with
  | nil =>
    intro acc
    rw [List.append_nil]
    exact .nil _
  | cons c w ih =>
    intro acc
    rw [List.all_cons, Bool.and_eq_true] at hw
    have hrest := ih hw.2 (acc ++ [c])
    rw [List.append_assoc] at hrest
    exact .cons (hg acc c hw.1) hrest

theorem reads_tagName {tag : List Char} (h : IsName tag = true) :
    Reads .tagOpen tag (.tagName tag) [] := by
  cases tag with
  | nil => cases h
  | cons c w =>
    rw [IsName, Bool.and_eq_true] at h
    have hc : step .tagOpen c = some (.tagName [c], []) := by
      have hne : c ≠ '/' := by
        rintro rfl
        exact absurd h.1 (by decide)
      rw [step, if_neg hne, if_pos h.1]
    refine .cons hc (.collect (g := .tagName) (p := isNameChar) (fun acc d hd => ?_) w h.2 [c])
    have hgt : d ≠ '>' := by
      rintro rfl
      exact absurd hd (by decide)
    have hsp : d ≠ ' ' := by
      rintro rfl
      exact absurd hd (by decide)
    rw [step, if_neg hgt, if_neg hsp, if_pos hd]

theorem reads_endTagName {tag : List Char} (h : tag.all isNameChar = true) :
    Reads (.endTagName []) tag (.endTagName tag) [] := by
  refine .collect (g := .endTagName) (p := isNameChar) (fun acc d hd => ?_) tag h []
  have hgt : d ≠ '>' := by
    rintro rfl
    exact absurd hd (by decide)
  rw [step, if_neg hgt, if_pos hd]

theorem reads_attrName (tag : List Char) (attrs : List (List Char × List Char)) {name : List Char}
    (h : IsName name = true) : Reads (.beforeAttr tag attrs) name (.attrName tag attrs name) [] := by
  cases name with
  | nil => cases h
  | cons c w =>
    rw [IsName, Bool.and_eq_true] at h
    have hc : step (.beforeAttr tag attrs) c = some (.attrName tag attrs [c], []) := by
      rw [step, if_pos (isNameChar_of_isLower h.1)]
    refine .cons hc (.collect (g := .attrName tag attrs) (p := isNameChar) (fun acc d hd => ?_) w h.2 [c])
    have heq : d ≠ '=' := by
      rintro rfl
      exact absurd hd (by decide)
    rw [step, if_neg heq, if_pos hd]

/-- An escape that leaves the newlines as they are. -/
structure Escape (e : Char → List Char) : Prop where
  carriageReturn : e '\r' = ['\r']
  lineFeed : e '\n' = ['\n']
  inline : ∀ c, c ≠ '\r' → c ≠ '\n' → Inline (e c) ∧ e c ≠ []

/-- In text each escaped character is read as itself. -/
structure TextSafe (e : Char → List Char) : Prop extends Escape e where
  reads : ∀ c, Reads .data (e c) .data (asText c)

/-- In a value each escaped character is read as itself. -/
structure ValueSafe (e : Char → List Char) : Prop extends Escape e where
  reads : ∀ tag attrs name v c, Reads (.value tag attrs name v) (e c)
    (.value tag attrs name (v ++ [asValue c])) []

section Escape

variable {e : Char → List Char}

theorem Escape.newlines (he : Escape e) (s : List Char) :
    ∀ b, newlines b (s.flatMap e) = (newlines b s).flatMap e := by
  induction s with
  | nil => exact fun _ => rfl
  | cons c s ih =>
    intro b
    rw [List.flatMap_cons]
    by_cases hr : c = '\r'
    · subst hr
      rw [he.carriageReturn, Html.newlines, if_pos rfl, List.flatMap_cons, he.lineFeed, ← ih]
      rfl
    · by_cases hn : c = '\n'
      · subst hn
        rw [he.lineFeed, Html.newlines, if_neg hr]
        cases b with
        | true => exact ih false
        | false =>
          rw [if_neg (by simp), List.flatMap_cons, he.lineFeed, ← ih]
          rfl
      · obtain ⟨hinline, hne⟩ := he.inline c hr hn
        rw [newlines_inline hinline hne, newlines_cons hr hn, List.flatMap_cons, ih]

theorem TextSafe.text (he : TextSafe e) (s : List Char) :
    Reads .data (s.flatMap e) .data (s.flatMap asText) := by
  induction s with
  | nil => exact .nil _
  | cons c s ih =>
    rw [List.flatMap_cons, List.flatMap_cons]
    exact (he.reads c).append ih

theorem ValueSafe.value (he : ValueSafe e) (tag : List Char) (attrs : List (List Char × List Char))
    (name s : List Char) : ∀ v, Reads (.value tag attrs name v) (s.flatMap e)
      (.value tag attrs name (v ++ s.map asValue)) [] := by
  induction s with
  | nil =>
    intro v
    rw [List.map_nil, List.append_nil]
    exact .nil _
  | cons c s ih =>
    intro v
    have hrest := ih (v ++ [asValue c])
    rw [List.append_assoc] at hrest
    rw [List.flatMap_cons]
    exact (he.reads tag attrs name v c).append hrest

end Escape

/-! ### Writing -/

/-- A piece of markup. A leaf is an element with nothing but text in it. -/
inductive Piece
  | openTag (tag : List Char) (attrs : List (List Char × List Char))
  | closeTag (tag : List Char)
  | leaf (tag : List Char) (attrs : List (List Char × List Char)) (text : List Char)

namespace Piece

section Markup

variable (e e' : Char → List Char)

def attr (a : List Char × List Char) : List Char :=
  ' ' :: (a.1 ++ '=' :: '"' :: (a.2.flatMap e' ++ ['"']))

def start (tag : List Char) (attrs : List (List Char × List Char)) : List Char :=
  '<' :: (tag ++ (attrs.flatMap (attr e') ++ ['>']))

def finish (tag : List Char) : List Char := '<' :: '/' :: (tag ++ ['>'])

/-- The piece with its text and its values escaped. -/
def markup : Piece → List Char
  | openTag tag attrs => start e' tag attrs
  | closeTag tag => finish tag
  | leaf tag attrs text => start e' tag attrs ++ (text.flatMap e ++ finish tag)

end Markup

/-- The names are names. -/
def Formed : Piece → Bool
  | openTag tag attrs | leaf tag attrs _ => IsName tag && attrs.all fun a => IsName a.1
  | closeTag tag => IsName tag

/-- What is read of a value. -/
def readValue (v : List Char) : List Char := (newlines false v).map asValue

/-- What is read of text. -/
def readText (s : List Char) : List Token := (newlines false s).flatMap asText

def readAttrs (attrs : List (List Char × List Char)) : List (List Char × List Char) :=
  attrs.map fun a => (a.1, readValue a.2)

def tokens : Piece → List Token
  | openTag tag attrs => [.startTag tag (readAttrs attrs)]
  | closeTag tag => [.endTag tag]
  | leaf tag attrs text => .startTag tag (readAttrs attrs) :: (readText text ++ [.endTag tag])

/-- What is read of a piece without `\r`. -/
def plainTokens : Piece → List Token
  | openTag tag attrs => [.startTag tag (attrs.map fun a => (a.1, a.2.map asValue))]
  | closeTag tag => [.endTag tag]
  | leaf tag attrs text =>
    .startTag tag (attrs.map fun a => (a.1, a.2.map asValue)) ::
      (text.flatMap asText ++ [.endTag tag])

section Read

variable {e e' : Char → List Char} {tag : List Char} {attrs : List (List Char × List Char)}

/-- The attributes after a tag's name, up to its end. -/
theorem reads_attrs (he : ValueSafe e') (tag : List Char) (attrs : List (List Char × List Char))
    (hattrs : attrs.all (fun a => IsName a.1) = true) : ∀ seen, Reads (.afterValue tag seen)
      (attrs.flatMap (attr e') ++ ['>']) .data
      [.startTag tag (seen ++ attrs.map fun a => (a.1, a.2.map asValue))] := by
  induction attrs with
  | nil =>
    intro seen
    rw [List.map_nil, List.append_nil]
    exact rfl
  | cons a attrs ih =>
    intro seen
    rw [List.all_cons, Bool.and_eq_true] at hattrs
    have hname : Reads (.beforeAttr tag seen) a.1 (.attrName tag seen a.1) [] :=
      reads_attrName tag seen hattrs.1
    have hvalue := he.value tag seen a.1 a.2 []
    rw [List.nil_append] at hvalue
    have hrest := ih hattrs.2 (seen ++ [(a.1, a.2.map asValue)])
    rw [List.append_assoc] at hrest
    have hclose : Reads (.value tag seen a.1 (a.2.map asValue)) ['"']
        (.afterValue tag (seen ++ [(a.1, a.2.map asValue)])) [] := rfl
    have hopen : Reads (.attrName tag seen a.1) ['=', '"'] (.value tag seen a.1 []) [] := rfl
    have hspace : Reads (.afterValue tag seen) [' '] (.beforeAttr tag seen) [] := rfl
    have hall := hspace.append (hname.append (hopen.append (hvalue.append (hclose.append hrest))))
    simpa [attr] using hall

/-- After its name a tag goes on as it does after a value. -/
theorem reads_afterName {c : Char} {s : List Char} {st : State} {out : List Token}
    (hc : c = '>' ∨ c = ' ') (h : Reads (.afterValue tag []) (c :: s) st out) :
    Reads (.tagName tag) (c :: s) st out := by
  rcases hc with rfl | rfl
  · exact h
  · exact h

theorem reads_start (he : ValueSafe e') (htag : IsName tag = true)
    (hattrs : attrs.all (fun a => IsName a.1) = true) :
    Reads .data (start e' tag attrs) .data
      [.startTag tag (attrs.map fun a => (a.1, a.2.map asValue))] := by
  have hopen : Reads .data ['<'] .tagOpen [] := rfl
  have hrest := reads_attrs he tag attrs hattrs []
  have hend : Reads (.tagName tag) (attrs.flatMap (attr e') ++ ['>']) .data
      [.startTag tag (attrs.map fun a => (a.1, a.2.map asValue))] := by
    cases attrs with
    | nil => exact reads_afterName (.inl rfl) hrest
    | cons a attrs => exact reads_afterName (.inr rfl) hrest
  exact hopen.append ((reads_tagName htag).append hend)

theorem reads_finish (htag : IsName tag = true) : Reads .data (finish tag) .data [.endTag tag] := by
  have hopen : Reads .data ['<', '/'] (.endTagName []) [] := rfl
  have hclose : Reads (.endTagName tag) ['>'] .data [.endTag tag] := rfl
  exact hopen.append ((reads_endTagName (all_of_isName htag)).append hclose)

theorem reads_markup (he : TextSafe e) (he' : ValueSafe e') :
    ∀ {p : Piece}, p.Formed = true → Reads .data (p.markup e e') .data p.plainTokens
  | openTag tag attrs, h => by
    rw [Formed, Bool.and_eq_true] at h
    exact reads_start he' h.1 h.2
  | closeTag tag, h => reads_finish h
  | leaf tag attrs text, h => by
    rw [Formed, Bool.and_eq_true] at h
    exact (reads_start he' h.1 h.2).append ((he.text text).append (reads_finish h.1))

/-! The newlines of a piece are those of its text and its values. -/

def unixAttrs (attrs : List (List Char × List Char)) : List (List Char × List Char) :=
  attrs.map fun a => (a.1, newlines false a.2)

def unix : Piece → Piece
  | openTag tag attrs => openTag tag (unixAttrs attrs)
  | closeTag tag => closeTag tag
  | leaf tag attrs text => leaf tag (unixAttrs attrs) (newlines false text)

theorem newlines_attr (he : Escape e') {a : List Char × List Char} (ha : IsName a.1 = true)
    (rest : List Char) :
    newlines false (attr e' a ++ rest) = attr e' (a.1, newlines false a.2) ++ newlines false rest := by
  have hhead : Inline (' ' :: (a.1 ++ ['=', '"'])) := by
    have hname := inline_of_names (all_of_isName ha)
    unfold Inline at hname ⊢
    simp [hname.1, hname.2]
  have hsplit : ∀ v : List Char, attr e' (a.1, v) ++ rest =
      (' ' :: (a.1 ++ ['=', '"'])) ++ (v.flatMap e' ++ '"' :: rest) := fun v => by simp [attr]
  have hsplit' : attr e' (a.1, newlines false a.2) ++ newlines false rest =
      (' ' :: (a.1 ++ ['=', '"'])) ++ ((newlines false a.2).flatMap e' ++ '"' :: newlines false rest) := by
    simp [attr]
  rw [hsplit a.2, newlines_inline hhead (List.cons_ne_nil _ _),
    newlines_append (by decide) (by decide), he.newlines, hsplit']

theorem newlines_start (he : Escape e') (htag : IsName tag = true)
    (hattrs : attrs.all (fun a => IsName a.1) = true) (rest : List Char) :
    newlines false (start e' tag attrs ++ rest) =
      start e' tag (unixAttrs attrs) ++ newlines false rest := by
  have hhead : Inline ('<' :: tag) := by
    have hname := inline_of_names (all_of_isName htag)
    unfold Inline at hname ⊢
    simp [hname.1, hname.2]
  have hend : newlines false (attrs.flatMap (attr e') ++ '>' :: rest) =
      (unixAttrs attrs).flatMap (attr e') ++ '>' :: newlines false rest := by
    induction attrs with
    | nil => exact newlines_cons (by decide) (by decide) _ _
    | cons a attrs ih =>
      rw [List.all_cons, Bool.and_eq_true] at hattrs
      have hcons : unixAttrs (a :: attrs) = (a.1, newlines false a.2) :: unixAttrs attrs := rfl
      rw [List.flatMap_cons, List.append_assoc, newlines_attr he hattrs.1, ih hattrs.2, hcons,
        List.flatMap_cons, List.append_assoc]
  have hsplit : ∀ as (r : List Char), start e' tag as ++ r =
      ('<' :: tag) ++ (as.flatMap (attr e') ++ '>' :: r) := fun as r => by simp [start]
  rw [hsplit, newlines_inline hhead (List.cons_ne_nil _ _), hend, hsplit]

theorem newlines_finish (htag : IsName tag = true) (rest : List Char) :
    newlines false (finish tag ++ rest) = finish tag ++ newlines false rest := by
  refine newlines_inline ?_ (List.cons_ne_nil _ _) _ _
  have hname := inline_of_names (all_of_isName htag)
  unfold Inline at hname ⊢
  simp [hname.1, hname.2]

theorem newlines_markup (he : TextSafe e) (he' : ValueSafe e') (rest : List Char) :
    ∀ {p : Piece}, p.Formed = true →
      newlines false (p.markup e e' ++ rest) = p.unix.markup e e' ++ newlines false rest
  | openTag tag attrs, h => by
    rw [Formed, Bool.and_eq_true] at h
    exact newlines_start he'.toEscape h.1 h.2 rest
  | closeTag tag, h => newlines_finish h rest
  | leaf tag attrs text, h => by
    rw [Formed, Bool.and_eq_true] at h
    have htext : newlines false (text.flatMap e ++ (finish tag ++ rest)) =
        (newlines false text).flatMap e ++ (finish tag ++ newlines false rest) := by
      have hfinish := newlines_finish h.1 rest
      change newlines false (text.flatMap e ++ '<' :: ('/' :: (tag ++ ['>']) ++ rest)) = _
      rw [newlines_append (by decide) (by decide), he.toEscape.newlines, ← hfinish]
      exact congrArg _ (newlines_cons (by decide) (by decide) _ _).symm
    change newlines false ((start e' tag attrs ++ (text.flatMap e ++ finish tag)) ++ rest) = _
    rw [List.append_assoc, List.append_assoc, newlines_start he'.toEscape h.1 h.2, htext]
    simp only [unix, markup, List.append_assoc]

theorem formed_unix {p : Piece} (h : p.Formed = true) : p.unix.Formed = true := by
  have hattrs : ∀ attrs : List (List Char × List Char),
      (unixAttrs attrs).all (fun a => IsName a.1) = attrs.all fun a => IsName a.1 := fun attrs => by
    rw [unixAttrs, List.all_map]
    rfl
  cases p with
  | openTag tag attrs => rwa [unix, Formed, hattrs]
  | closeTag tag => exact h
  | leaf tag attrs text => rwa [unix, Formed, hattrs]

theorem plainTokens_unix (p : Piece) : p.unix.plainTokens = p.tokens := by
  have hattrs : ∀ attrs : List (List Char × List Char),
      ((unixAttrs attrs).map fun a => (a.1, a.2.map asValue)) = readAttrs attrs := fun attrs => by
    rw [unixAttrs, List.map_map]
    rfl
  cases p with
  | openTag tag attrs => rw [unix, plainTokens, hattrs, tokens]
  | closeTag tag => rfl
  | leaf tag attrs text => rw [unix, plainTokens, hattrs, tokens, readText]

/-- What was written is read: its elements, its text and the values of its attributes. -/
theorem tokens_markup (he : TextSafe e) (he' : ValueSafe e') (ps : List Piece)
    (hps : ∀ p ∈ ps, p.Formed = true) :
    Html.tokens (ps.flatMap (markup e e')) = some (ps.flatMap tokens) := by
  refine tokens_of_reads ?_
  induction ps with
  | nil => exact .nil _
  | cons p ps ih =>
    have hp := hps p (by simp)
    rw [List.flatMap_cons, List.flatMap_cons, newlines_markup he he' _ hp]
    refine Reads.append ?_ (ih fun q hq => hps q (by simp [hq]))
    have hread := reads_markup he he' (formed_unix hp)
    rwa [plainTokens_unix] at hread

end Read

end Piece

/-! ### Queries -/

/-- `el.dataset`, one value. -/
def value (name : List Char) (attrs : List (List Char × List Char)) : List Char :=
  ((attrs.find? fun a => a.1 = name).map Prod.snd).getD []

/-- `querySelectorAll` for the elements with an attribute. -/
def withAttr (name : List Char) (ts : List Token) : List (List (List Char × List Char)) :=
  ts.filterMap fun
    | .startTag _ attrs => if attrs.any fun a => a.1 = name then some attrs else none
    | _ => none

namespace Piece

def attrs : Piece → List (List Char × List Char)
  | openTag _ attrs | leaf _ attrs _ => attrs
  | closeTag _ => []

/-- Newlines and `NUL`s apart a value is read as it is. -/
theorem readValue_self {v : List Char} (hr : '\r' ∉ v) (h0 : ∀ c ∈ v, c.toNat ≠ 0) :
    readValue v = v := by
  have hmap : ∀ c ∈ v, asValue c = c := fun c hc => if_neg (h0 c hc)
  rw [readValue, newlines_self hr, List.map_congr_left hmap, List.map_id']

theorem value_readAttrs (name : List Char) (attrs : List (List Char × List Char)) :
    value name (readAttrs attrs) = readValue (value name attrs) := by
  induction attrs with
  | nil => rfl
  | cons a attrs ih =>
    unfold value readAttrs at *
    rw [List.map_cons, List.find?_cons, List.find?_cons]
    by_cases ha : a.1 = name
    · simp [ha]
    · simpa [ha] using ih

theorem withAttr_append (name : List Char) (ts us : List Token) :
    withAttr name (ts ++ us) = withAttr name ts ++ withAttr name us :=
  List.filterMap_append

/-- Text holds no element. -/
theorem withAttr_readText (name s : List Char) : withAttr name (readText s) = [] := by
  unfold readText
  induction newlines false s with
  | nil => rfl
  | cons c s ih =>
    rw [List.flatMap_cons, withAttr_append, ih, List.append_nil]
    unfold asText
    split_ifs <;> rfl

theorem withAttr_tokens (name : List Char) (p : Piece) :
    withAttr name p.tokens =
      if p.attrs.any (fun a => a.1 = name) then [readAttrs p.attrs] else [] := by
  have hnames : ∀ attrs : List (List Char × List Char),
      (readAttrs attrs).any (fun a => a.1 = name) = attrs.any fun a => a.1 = name := fun attrs => by
    rw [readAttrs, List.any_map]
    rfl
  have hstart : ∀ tag attrs, withAttr name [.startTag tag (readAttrs attrs)] =
      if attrs.any (fun a => a.1 = name) then [readAttrs attrs] else [] := fun tag attrs => by
    rw [← hnames]
    by_cases hany : ((readAttrs attrs).any fun a => a.1 = name) = true
    · rw [if_pos hany]
      simp only [withAttr, List.filterMap_cons, hany, if_true, List.filterMap_nil]
    · rw [if_neg hany]
      simp only [withAttr, List.filterMap_cons, hany, if_false, List.filterMap_nil, Bool.false_eq_true]
  cases p with
  | openTag tag attrs => exact hstart tag attrs
  | closeTag tag => rfl
  | leaf tag attrs text =>
    change withAttr name ([.startTag tag (readAttrs attrs)] ++ (readText text ++ [.endTag tag])) = _
    rw [withAttr_append, withAttr_append, withAttr_readText, hstart]
    exact List.append_nil _

/-- The elements with an attribute are those that were written with it. -/
theorem withAttr_flatMap (name : List Char) (ps : List Piece) :
    withAttr name (ps.flatMap tokens) =
      (ps.filter fun p => p.attrs.any fun a => a.1 = name).map fun p => readAttrs p.attrs := by
  induction ps with
  | nil => rfl
  | cons p ps ih =>
    rw [List.flatMap_cons, withAttr_append, ih, withAttr_tokens, List.filter_cons]
    split_ifs <;> rfl

end Piece

end Html
