import Meetkit.Model.MemberTable

/-! The member table over whole runs. The page that is shown is a page of the rows that
pass the filters, the pages together are these rows, and the markup is read as it was
written whatever the rows say: no nickname adds an element, and each button hands on the
fields of its own row. -/

namespace Meetkit

/-! ### Escapes -/

def escapeChar (c : Char) : List Char :=
  if c = '&' then "&amp;".toList
  else if c = '<' then "&lt;".toList
  else if c = '>' then "&gt;".toList
  else if c = '"' then "&quot;".toList
  else [c]

def escapeAttrChar (c : Char) : List Char := if c = '\'' then "&#39;".toList else escapeChar c

/-- The replacements one after the other are one pass: none touches what another wrote. -/
theorem escapeHtml_eq (s : List Char) : escapeHtml s = s.flatMap escapeChar := by
  unfold escapeHtml replaceAll
  rw [List.flatMap_assoc, List.flatMap_assoc, List.flatMap_assoc]
  congr 1
  funext c
  unfold escapeChar
  by_cases hamp : c = '&'
  · subst hamp
    rfl
  by_cases hlt : c = '<'
  · subst hlt
    rfl
  by_cases hgt : c = '>'
  · subst hgt
    rfl
  by_cases hquot : c = '"'
  · subst hquot
    rfl
  simp only [hamp, hlt, hgt, hquot, if_false, List.flatMap_cons, List.flatMap_nil, List.append_nil]

theorem escapeAttr_eq (s : List Char) : escapeAttr s = s.flatMap escapeAttrChar := by
  unfold escapeAttr replaceAll
  rw [escapeHtml_eq, List.flatMap_assoc]
  congr 1
  funext c
  unfold escapeAttrChar
  by_cases hapos : c = '\''
  · subst hapos
    rfl
  unfold escapeChar
  split_ifs
  · rfl
  · rfl
  · rfl
  · rfl
  · simp only [hapos, if_false, List.flatMap_cons, List.flatMap_nil, List.append_nil]

theorem escape_escapeChar : Html.Escape escapeChar where
  carriageReturn := rfl
  lineFeed := rfl
  inline c hr hn := by
    unfold escapeChar
    split_ifs
    · decide
    · decide
    · decide
    · decide
    · exact ⟨⟨by simpa using Ne.symm hr, by simpa using Ne.symm hn⟩, List.cons_ne_nil _ _⟩

theorem textSafe_escapeChar : Html.TextSafe escapeChar where
  toEscape := escape_escapeChar
  reads c := by
    unfold escapeChar
    split_ifs with hamp hlt hgt hquot
    · subst hamp
      rfl
    · subst hlt
      rfl
    · subst hgt
      rfl
    · subst hquot
      rfl
    · have hc : Html.step .data c = some (.data, Html.asText c) := by
        rw [Html.step, if_neg hlt, if_neg hamp]
      have hread := Html.Reads.cons hc (.nil _)
      rwa [List.append_nil] at hread

theorem valueSafe_escapeAttrChar : Html.ValueSafe escapeAttrChar where
  carriageReturn := rfl
  lineFeed := rfl
  inline c hr hn := by
    unfold escapeAttrChar
    split_ifs
    · decide
    · exact escape_escapeChar.inline c hr hn
  reads tag attrs name v c := by
    unfold escapeAttrChar escapeChar
    split_ifs with hapos hamp hlt hgt hquot
    · subst hapos
      rfl
    · subst hamp
      rfl
    · subst hlt
      rfl
    · subst hgt
      rfl
    · subst hquot
      rfl
    · have hc : Html.step (.value tag attrs name v) c =
          some (.value tag attrs name (v ++ [Html.asValue c]), []) := by
        rw [Html.step, if_neg hquot, if_neg hamp]
      exact .cons hc (.nil _)

/-! ### One row -/

namespace MemberRow

def cell (text : List Char) : Html.Piece := .leaf "td".toList [] text

def watchAttrs (row : MemberRow) : List (List Char × List Char) :=
  [("type".toList, "button".toList),
    ("class".toList, "admin-action-btn admin-action-btn--watch".toList),
    ("data-watch-room".toList, row.roomID.toList),
    ("data-watch-user".toList, row.userID.toList),
    ("data-watch-biz".toList, row.biz.toList),
    ("data-watch-kind".toList, row.streamKind.toList),
    ("data-watch-stream".toList, row.streamID.toList),
    ("data-watch-name".toList, row.nickname.toList)]

def kickAttrs (row : MemberRow) : List (List Char × List Char) :=
  [("type".toList, "button".toList),
    ("class".toList, "admin-action-btn admin-action-btn--danger".toList),
    ("data-kick-room".toList, row.roomID.toList),
    ("data-kick-user".toList, row.userID.toList),
    ("data-kick-name".toList, row.nickname.toList)]

/-- What a row is meant to be: six cells and one with the two buttons. -/
def pieces (row : MemberRow) : List Html.Piece :=
  [.openTag "tr".toList [],
    cell (bizLabel row.biz).toList,
    cell (orText row.roomDisplay row.roomID).toList,
    cell row.nickname.toList,
    cell (orText row.streamLabel "—").toList,
    cell row.status.toList,
    cell (if row.recording then "录制中" else "—").toList,
    .openTag "td".toList [("class".toList, "admin-monitor-actions".toList)],
    .leaf "button".toList row.watchAttrs "观看".toList,
    .leaf "button".toList row.kickAttrs "踢出".toList,
    .closeTag "td".toList,
    .closeTag "tr".toList]

theorem formed_pieces (row : MemberRow) : ∀ p ∈ row.pieces, p.Formed = true := by
  intro p hp
  simp only [pieces, List.mem_cons, List.not_mem_nil, or_false] at hp
  rcases hp with rfl | rfl | rfl | rfl | rfl | rfl | rfl | rfl | rfl | rfl | rfl | rfl <;> rfl

theorem escape_status (row : MemberRow) : row.status.toList.flatMap escapeChar = row.status.toList := by
  unfold status
  split_ifs <;> rfl

theorem escape_recording (b : Bool) :
    (if b then "录制中" else "—").toList.flatMap escapeChar =
      (if b then "录制中" else "—").toList := by
  cases b <;> rfl

/-! Literals are cut at the level of `String`, where they are compared byte by byte. -/

theorem markup_cell (text : List Char) :
    (cell text).markup escapeChar escapeAttrChar =
      "<td>".toList ++ (text.flatMap escapeChar ++ "</td>".toList) := rfl

theorem markup_start (tag : List Char) (attrs : List (List Char × List Char)) :
    Html.Piece.start escapeAttrChar tag attrs =
      "<".toList ++ (tag ++ (attrs.flatMap (Html.Piece.attr escapeAttrChar) ++ ">".toList)) := rfl

theorem markup_finish (tag : List Char) :
    Html.Piece.finish tag = "</".toList ++ (tag ++ ">".toList) := rfl

theorem markup_attr (name v : List Char) :
    Html.Piece.attr escapeAttrChar (name, v) =
      " ".toList ++ (name ++ ("=\"".toList ++ (escapeAttr v ++ "\"".toList))) := by
  rw [Html.Piece.attr, escapeAttr_eq]
  rfl

theorem markup_actions :
    (Html.Piece.openTag "td".toList [("class".toList, "admin-monitor-actions".toList)]).markup
      escapeChar escapeAttrChar = "<td class=\"admin-monitor-actions\">".toList := by
  have hopen : "<td class=\"admin-monitor-actions\">" =
      "<" ++ ("td" ++ (" " ++ ("class" ++ ("=\"" ++ ("admin-monitor-actions" ++ ("\"" ++ ">")))))) := rfl
  have hclass : escapeAttr "admin-monitor-actions".toList = "admin-monitor-actions".toList := rfl
  rw [hopen]
  simp only [Html.Piece.markup, markup_start, markup_attr, hclass, List.flatMap_cons,
    List.flatMap_nil, List.append_nil, List.append_assoc, String.toList_append]

/-- A button of the table: its type, its class and the texts that it hands on. -/
theorem markup_button {cls text : List Char} (hcls : escapeAttr cls = cls)
    (htext : text.flatMap escapeChar = text) (data : List (List Char × List Char)) :
    (Html.Piece.leaf "button".toList
        (("type".toList, "button".toList) :: ("class".toList, cls) :: data) text).markup
        escapeChar escapeAttrChar =
      "<button type=\"button\" class=\"".toList ++ (cls ++ ("\"".toList ++
        (data.flatMap (Html.Piece.attr escapeAttrChar) ++ (">".toList ++
          (text ++ "</button>".toList))))) := by
  have hopen : "<button type=\"button\" class=\"" =
      "<" ++ ("button" ++ (" " ++ ("type" ++ ("=\"" ++ ("button" ++ ("\"" ++ (" " ++
        ("class" ++ "=\"")))))))) := rfl
  have hclose : "</button>" = "</" ++ ("button" ++ ">") := rfl
  have htype : escapeAttr "button".toList = "button".toList := rfl
  rw [hopen, hclose]
  simp only [Html.Piece.markup, markup_start, markup_finish, List.flatMap_cons, markup_attr, htype,
    hcls, htext, List.append_assoc, String.toList_append]

theorem markup_watch (row : MemberRow) :
    (Html.Piece.leaf "button".toList row.watchAttrs "观看".toList).markup escapeChar escapeAttrChar =
      "<button type=\"button\" class=\"admin-action-btn admin-action-btn--watch\" ".toList ++
        "data-watch-room=\"".toList ++ escapeAttr row.roomID.toList ++ "\" ".toList ++
        "data-watch-user=\"".toList ++ escapeAttr row.userID.toList ++ "\" ".toList ++
        "data-watch-biz=\"".toList ++ escapeAttr row.biz.toList ++ "\" ".toList ++
        "data-watch-kind=\"".toList ++ escapeAttr row.streamKind.toList ++ "\" ".toList ++
        "data-watch-stream=\"".toList ++ escapeAttr row.streamID.toList ++ "\" ".toList ++
        "data-watch-name=\"".toList ++ escapeAttr row.nickname.toList ++ "\">观看</button>".toList := by
  have hopen : "<button type=\"button\" class=\"admin-action-btn admin-action-btn--watch\" " =
      "<button type=\"button\" class=\"" ++
        ("admin-action-btn admin-action-btn--watch" ++ ("\"" ++ " ")) := rfl
  have hroom : "data-watch-room=\"" = "data-watch-room" ++ "=\"" := rfl
  have huser : "data-watch-user=\"" = "data-watch-user" ++ "=\"" := rfl
  have hbiz : "data-watch-biz=\"" = "data-watch-biz" ++ "=\"" := rfl
  have hkind : "data-watch-kind=\"" = "data-watch-kind" ++ "=\"" := rfl
  have hstream : "data-watch-stream=\"" = "data-watch-stream" ++ "=\"" := rfl
  have hname : "data-watch-name=\"" = "data-watch-name" ++ "=\"" := rfl
  have hnext : "\" " = "\"" ++ " " := rfl
  have hend : "\">观看</button>" = "\"" ++ (">" ++ ("观看" ++ "</button>")) := rfl
  have hcls : escapeAttr "admin-action-btn admin-action-btn--watch".toList =
      "admin-action-btn admin-action-btn--watch".toList := rfl
  have htext : "观看".toList.flatMap escapeChar = "观看".toList := rfl
  rw [watchAttrs, markup_button hcls htext, hopen, hroom, huser, hbiz, hkind, hstream, hname, hnext,
    hend]
  simp only [List.flatMap_cons, List.flatMap_nil, markup_attr, List.append_nil, List.append_assoc,
    String.toList_append]

theorem markup_kick (row : MemberRow) :
    (Html.Piece.leaf "button".toList row.kickAttrs "踢出".toList).markup escapeChar escapeAttrChar =
      "<button type=\"button\" class=\"admin-action-btn admin-action-btn--danger\" ".toList ++
        "data-kick-room=\"".toList ++ escapeAttr row.roomID.toList ++ "\" ".toList ++
        "data-kick-user=\"".toList ++ escapeAttr row.userID.toList ++ "\" ".toList ++
        "data-kick-name=\"".toList ++ escapeAttr row.nickname.toList ++ "\">踢出</button>".toList := by
  have hopen : "<button type=\"button\" class=\"admin-action-btn admin-action-btn--danger\" " =
      "<button type=\"button\" class=\"" ++
        ("admin-action-btn admin-action-btn--danger" ++ ("\"" ++ " ")) := rfl
  have hroom : "data-kick-room=\"" = "data-kick-room" ++ "=\"" := rfl
  have huser : "data-kick-user=\"" = "data-kick-user" ++ "=\"" := rfl
  have hname : "data-kick-name=\"" = "data-kick-name" ++ "=\"" := rfl
  have hnext : "\" " = "\"" ++ " " := rfl
  have hend : "\">踢出</button>" = "\"" ++ (">" ++ ("踢出" ++ "</button>")) := rfl
  have hcls : escapeAttr "admin-action-btn admin-action-btn--danger".toList =
      "admin-action-btn admin-action-btn--danger".toList := rfl
  have htext : "踢出".toList.flatMap escapeChar = "踢出".toList := rfl
  rw [kickAttrs, markup_button hcls htext, hopen, hroom, huser, hname, hnext, hend]
  simp only [List.flatMap_cons, List.flatMap_nil, markup_attr, List.append_nil, List.append_assoc,
    String.toList_append]

/-- The row is written as it is meant to be. -/
theorem html_eq (row : MemberRow) :
    row.html = row.pieces.flatMap (Html.Piece.markup escapeChar escapeAttrChar) := by
  have hopen : (Html.Piece.openTag "tr".toList []).markup escapeChar escapeAttrChar =
      "<tr>".toList := rfl
  have hcell : (Html.Piece.closeTag "td".toList).markup escapeChar escapeAttrChar =
      "</td>".toList := rfl
  have hclose : (Html.Piece.closeTag "tr".toList).markup escapeChar escapeAttrChar =
      "</tr>".toList := rfl
  unfold html pieces
  simp only [List.flatMap_cons, List.flatMap_nil, hopen, hcell, hclose, markup_cell,
    markup_actions, markup_watch, markup_kick, escape_status, escape_recording, escapeHtml_eq,
    List.append_assoc, List.append_nil]

theorem tokens_rows (rows : List MemberRow) :
    Html.tokens (rows.flatMap (·.html)) =
      some ((rows.flatMap pieces).flatMap Html.Piece.tokens) := by
  have hmarkup : rows.flatMap (·.html) =
      (rows.flatMap pieces).flatMap (Html.Piece.markup escapeChar escapeAttrChar) := by
    rw [List.flatMap_assoc]
    exact congrArg (rows.flatMap ·) (funext html_eq)
  rw [hmarkup]
  refine Html.Piece.tokens_markup textSafe_escapeChar valueSafe_escapeAttrChar _ fun p hp => ?_
  obtain ⟨row, -, hrow⟩ := List.mem_flatMap.mp hp
  exact row.formed_pieces p hrow

/-- One button of a kind to a row. -/
theorem withAttr_rows {name : List Char} {p : MemberRow → Html.Piece}
    (hp : ∀ row : MemberRow, (row.pieces.filter fun q => q.attrs.any fun a => a.1 = name) = [p row])
    (rows : List MemberRow) :
    Html.withAttr name ((rows.flatMap pieces).flatMap Html.Piece.tokens) =
      rows.map fun row => Html.Piece.readAttrs (p row).attrs := by
  rw [Html.Piece.withAttr_flatMap]
  induction rows with
  | nil => rfl
  | cons row rows ih =>
    rw [List.flatMap_cons, List.filter_append, List.map_append, ih, hp]
    rfl

/-- The fields of a row as they come back from the page. -/
def kicked (row : MemberRow) : List Char × List Char × List Char :=
  (Html.Piece.readValue row.roomID.toList, Html.Piece.readValue row.userID.toList,
    Html.Piece.readValue row.nickname.toList)

def watched (row : MemberRow) : WatchedRow where
  roomId := Html.Piece.readValue row.roomID.toList
  userId := Html.Piece.readValue row.userID.toList
  biz := Html.Piece.readValue row.biz.toList
  streamKind := Html.Piece.readValue row.streamKind.toList
  streamId := Html.Piece.readValue row.streamID.toList
  nickname := Html.Piece.readValue row.nickname.toList

/-- The texts that the buttons hand on. -/
def texts (row : MemberRow) : List (List Char) :=
  [row.roomID.toList, row.userID.toList, row.biz.toList, row.streamKind.toList,
    row.streamID.toList, row.nickname.toList]

/-- None of them holds a `\r` or a `NUL`. -/
def Plain (row : MemberRow) : Prop := ∀ text ∈ row.texts, '\r' ∉ text ∧ ∀ c ∈ text, c.toNat ≠ 0

theorem Plain.handed {row : MemberRow} (h : row.Plain) :
    row.kicked = (row.roomID.toList, row.userID.toList, row.nickname.toList) ∧
      row.watched =
        { roomId := row.roomID.toList, userId := row.userID.toList, biz := row.biz.toList,
          streamKind := row.streamKind.toList, streamId := row.streamID.toList,
          nickname := row.nickname.toList } := by
  have hself : ∀ text ∈ row.texts, Html.Piece.readValue text = text :=
    fun text ht => Html.Piece.readValue_self (h text ht).1 (h text ht).2
  simp only [texts, List.forall_mem_cons] at hself
  obtain ⟨hroom, huser, hbiz, hkind, hstream, hname, -⟩ := hself
  constructor
  · rw [kicked, hroom, huser, hname]
  · rw [watched, hroom, huser, hbiz, hkind, hstream, hname]

theorem kickButtons_rows (rows : List MemberRow) :
    kickButtons (rows.flatMap (·.html)) = some (rows.map kicked) := by
  unfold kickButtons
  rw [tokens_rows, Option.map_some, withAttr_rows (p := fun row => .leaf "button".toList row.kickAttrs
    "踢出".toList) (fun row => rfl), List.map_map]
  refine congrArg some (List.map_congr_left fun row _ => ?_)
  simp only [Function.comp_apply, Html.Piece.value_readAttrs]
  rfl

theorem watchButtons_rows (rows : List MemberRow) :
    watchButtons (rows.flatMap (·.html)) = some (rows.map watched) := by
  unfold watchButtons
  rw [tokens_rows, Option.map_some, withAttr_rows (p := fun row => .leaf "button".toList row.watchAttrs
    "观看".toList) (fun row => rfl), List.map_map]
  refine congrArg some (List.map_congr_left fun row _ => ?_)
  simp only [Function.comp_apply, Html.Piece.value_readAttrs]
  rfl

end MemberRow

/-! ### Pages -/

theorem le_totalPagesOf {size : ℕ} (hsize : 0 < size) (n : ℕ) : n ≤ totalPagesOf n size * size := by
  have hmod : (n + size - 1) % size < size := Nat.mod_lt _ hsize
  have hdiv : size * ((n + size - 1) / size) + (n + size - 1) % size = n + size - 1 :=
    Nat.div_add_mod _ _
  have hceil : n ≤ (n + size - 1) / size * size := by
    rw [Nat.mul_comm]
    omega
  exact hceil.trans (Nat.mul_le_mul_right size (Nat.le_max_right 1 _))

theorem pages_take {α : Type} (rows : List α) (size n : ℕ) :
    ((List.range n).flatMap fun p => pageOf rows size (p + 1)) = rows.take (n * size) := by
  induction n with
  | zero => rw [Nat.zero_mul, List.take_zero, List.range_zero, List.flatMap_nil]
  | succ n ih =>
    rw [List.range_succ, List.flatMap_append, ih, List.flatMap_singleton, Nat.succ_mul, List.take_add]
    rfl

/-- The pages together are the rows, each row on one page. -/
theorem pages_cover {α : Type} (rows : List α) {size : ℕ} (hsize : 0 < size) :
    ((List.range (totalPagesOf rows.length size)).flatMap fun p => pageOf rows size (p + 1)) = rows := by
  rw [pages_take]
  exact List.take_of_length_le (le_totalPagesOf hsize _)

theorem pos_of_mem_pageSizeOptions {size : ℕ} (h : size ∈ pageSizeOptions) : 0 < size := by
  simp only [pageSizeOptions, List.mem_cons, List.not_mem_nil, or_false] at h
  omega

namespace MemberTable

variable {lower : String → String} {s : MemberTable}

/-- The table shows the page that it says it shows, and there is such a page. -/
structure Paged (lower : String → String) (s : MemberTable) : Prop where
  size : s.pageSize ∈ pageSizeOptions
  first : 1 ≤ s.currentPage
  last : s.currentPage ≤ s.totalPages lower
  shown : s.innerHTML = (pageOf (s.filterMembers lower) s.pageSize s.currentPage).flatMap (·.html)

theorem paged_render (hsize : s.pageSize ∈ pageSizeOptions) :
    Paged lower (s.renderMemberTable lower) := by
  have hpages : 1 ≤ totalPagesOf (s.filterMembers lower).length s.pageSize := Nat.le_max_left _ _
  refine ⟨hsize, ?_, ?_, rfl⟩
  · unfold renderMemberTable
    dsimp only
    split_ifs <;> omega
  · change (s.renderMemberTable lower).currentPage ≤
      totalPagesOf (s.filterMembers lower).length s.pageSize
    unfold renderMemberTable
    dsimp only
    split_ifs <;> omega

theorem Paged.goTo (h : Paged lower s) (page : ℤ) : Paged lower (s.goToMemberPage lower page) := by
  unfold goToMemberPage
  dsimp only
  split_ifs
  · exact h
  · apply paged_render
    exact h.size

theorem Paged.step (h : Paged lower s) (op : MemberOp) : Paged lower (s.step lower op) := by
  cases op with
  | loaded members => exact paged_render h.size
  | applyMemberFilters roomSearch search typeFilter => exact paged_render h.size
  | prev =>
    simp only [MemberTable.step]
    split_ifs
    · exact h
    · exact h.goTo _
  | next =>
    simp only [MemberTable.step]
    split_ifs
    · exact h
    · exact h.goTo _
  | jumpToMemberPageInput page =>
    cases page with
    | none => exact h
    | some page => exact h.goTo _
  | setPageSize next =>
    simp only [MemberTable.step]
    split_ifs with hnext
    · exact paged_render hnext
    · exact h

theorem paged_run (lower : String → String) (ops : List MemberOp) :
    Paged lower ((memberTable lower).run ops) := by
  refine Machine.run_invariant (M := memberTable lower) ?_ (fun s op h => h.step op) ops
  exact ⟨by simp [memberTable, pageSizeOptions], le_refl 1, Nat.le_max_left _ _, rfl⟩

end MemberTable

/-- Whatever was loaded, filtered and paged: the table shows an existing page of the rows
that pass the filters, these pages are exactly these rows, the markup is read as the cells
and buttons of that page's rows and nothing else, and the buttons hand on, row by row, what
is read of their row's fields. A field without `\r` and `NUL` is read as it is. -/
theorem member_table_acts_on_its_rows (lower : String → String) (ops : List MemberOp) :
    let s := (memberTable lower).run ops
    let rows := pageOf (s.filterMembers lower) s.pageSize s.currentPage
    (s.pageSize ∈ pageSizeOptions ∧ 1 ≤ s.currentPage ∧ s.currentPage ≤ s.totalPages lower) ∧
      ((List.range (s.totalPages lower)).flatMap fun p =>
        pageOf (s.filterMembers lower) s.pageSize (p + 1)) = s.filterMembers lower ∧
      Html.tokens s.innerHTML = some ((rows.flatMap MemberRow.pieces).flatMap Html.Piece.tokens) ∧
      kickButtons s.innerHTML = some (rows.map MemberRow.kicked) ∧
      watchButtons s.innerHTML = some (rows.map MemberRow.watched) ∧
      ∀ row ∈ rows, row.Plain →
        row.kicked = (row.roomID.toList, row.userID.toList, row.nickname.toList) ∧
          row.watched =
            { roomId := row.roomID.toList, userId := row.userID.toList, biz := row.biz.toList,
              streamKind := row.streamKind.toList, streamId := row.streamID.toList,
              nickname := row.nickname.toList } := by
  intro s rows
  have h : MemberTable.Paged lower s := MemberTable.paged_run lower ops
  refine ⟨⟨h.size, h.first, h.last⟩, pages_cover _ (pos_of_mem_pageSizeOptions h.size), ?_, ?_, ?_,
    fun row _ hplain => hplain.handed⟩
  · rw [h.shown]
    exact MemberRow.tokens_rows rows
  · rw [h.shown]
    exact MemberRow.kickButtons_rows rows
  · rw [h.shown]
    exact MemberRow.watchButtons_rows rows

end Meetkit
