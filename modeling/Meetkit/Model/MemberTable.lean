import Mathlib.Data.List.Infix
import Meetkit.Lib.Html
import Meetkit.Lib.Machine
import Meetkit.Model.Stats

/-! The member table of the admin page: the rows that pass the filters, one page of them
as markup, and what a click on a button of the table hands on. `lower` is
`toLowerCase`. -/

namespace Meetkit

/-- `s.replace(/c/g, w)` -/
def replaceAll (c : Char) (w s : List Char) : List Char :=
  s.flatMap fun d => if d = c then w else [d]

def escapeHtml (s : List Char) : List Char :=
  replaceAll '"' "&quot;".toList (replaceAll '>' "&gt;".toList
    (replaceAll '<' "&lt;".toList (replaceAll '&' "&amp;".toList s)))

def escapeAttr (s : List Char) : List Char := replaceAll '\'' "&#39;".toList (escapeHtml s)

/-- `a || b` -/
def orText (a b : String) : String := if a = "" then b else a

/-- `BIZ_LABEL[biz] || biz`. In JavaScript it also finds what every object inherits, under
names such as `constructor`; the server writes none of them into a row. -/
def bizLabel (biz : String) : String :=
  if biz = "meeting" then "视频会议"
  else if biz = "call" then "1v1 通话"
  else if biz = "push" then "推流"
  else if biz = "pull" then "拉流"
  else biz

def pageSizeOptions : List ℕ := [5, 10, 20]

namespace MemberRow

def status (row : MemberRow) : String :=
  if row.streamID ≠ "" then if row.streamOnline then "在线" else "离线" else "—"

/-- The markup of one row. -/
def html (row : MemberRow) : List Char :=
  "<tr>".toList ++
    "<td>".toList ++ escapeHtml (bizLabel row.biz).toList ++ "</td>".toList ++
    "<td>".toList ++ escapeHtml (orText row.roomDisplay row.roomID).toList ++ "</td>".toList ++
    "<td>".toList ++ escapeHtml row.nickname.toList ++ "</td>".toList ++
    "<td>".toList ++ escapeHtml (orText row.streamLabel "—").toList ++ "</td>".toList ++
    "<td>".toList ++ row.status.toList ++ "</td>".toList ++
    "<td>".toList ++ (if row.recording then "录制中" else "—").toList ++ "</td>".toList ++
    "<td class=\"admin-monitor-actions\">".toList ++
      "<button type=\"button\" class=\"admin-action-btn admin-action-btn--watch\" ".toList ++
        "data-watch-room=\"".toList ++ escapeAttr row.roomID.toList ++ "\" ".toList ++
        "data-watch-user=\"".toList ++ escapeAttr row.userID.toList ++ "\" ".toList ++
        "data-watch-biz=\"".toList ++ escapeAttr row.biz.toList ++ "\" ".toList ++
        "data-watch-kind=\"".toList ++ escapeAttr row.streamKind.toList ++ "\" ".toList ++
        "data-watch-stream=\"".toList ++ escapeAttr row.streamID.toList ++ "\" ".toList ++
        "data-watch-name=\"".toList ++ escapeAttr row.nickname.toList ++ "\">观看</button>".toList ++
      "<button type=\"button\" class=\"admin-action-btn admin-action-btn--danger\" ".toList ++
        "data-kick-room=\"".toList ++ escapeAttr row.roomID.toList ++ "\" ".toList ++
        "data-kick-user=\"".toList ++ escapeAttr row.userID.toList ++ "\" ".toList ++
        "data-kick-name=\"".toList ++ escapeAttr row.nickname.toList ++ "\">踢出</button>".toList ++
    "</td>".toList ++
  "</tr>".toList

end MemberRow

structure MemberTable where
  latestMembers : List MemberRow := []
  appliedRoomSearch : String := ""
  appliedSearch : String := ""
  appliedTypeFilter : String := ""
  currentPage : ℕ := 1
  pageSize : ℕ := 10
  /-- `memberTableBody.innerHTML` -/
  innerHTML : List Char := []

inductive MemberOp
  /-- The reply to a `loadMembers`. -/
  | loaded (members : List MemberRow)
  /-- What the boxes hold, trimmed and in lower case. -/
  | applyMemberFilters (roomSearch search typeFilter : String)
  | prev
  | next
  /-- The integer part of what the box holds, if that is a finite number. -/
  | jumpToMemberPageInput (page : Option ℤ)
  | setPageSize (next : ℕ)

/-- `Math.max(1, Math.ceil(n / size) || 1)` -/
def totalPagesOf (n size : ℕ) : ℕ := max 1 ((n + size - 1) / size)

/-- `rows.slice(start, start + size)` for a page. -/
def pageOf {α : Type} (rows : List α) (size page : ℕ) : List α :=
  (rows.drop ((page - 1) * size)).take size

namespace MemberTable

def filterMembers (lower : String → String) (s : MemberTable) : List MemberRow :=
  s.latestMembers.filter fun row =>
    if s.appliedTypeFilter ≠ "" ∧ row.biz ≠ s.appliedTypeFilter then false
    else if s.appliedRoomSearch ≠ "" ∧
        ¬s.appliedRoomSearch.toList <:+: (lower (orText row.roomDisplay row.roomID)).toList then false
    else if s.appliedSearch ≠ "" ∧ ¬s.appliedSearch.toList <:+: (lower row.nickname).toList then false
    else true

def totalPages (lower : String → String) (s : MemberTable) : ℕ :=
  totalPagesOf (s.filterMembers lower).length s.pageSize

def renderMemberTable (lower : String → String) (s : MemberTable) : MemberTable :=
  let rows := s.filterMembers lower
  let totalPages := totalPagesOf rows.length s.pageSize
  let page := if totalPages < s.currentPage then totalPages else s.currentPage
  let page := if page < 1 then 1 else page
  { s with
    currentPage := page
    innerHTML := (pageOf rows s.pageSize page).flatMap (·.html) }

def goToMemberPage (lower : String → String) (s : MemberTable) (page : ℤ) : MemberTable :=
  let next := (min (max 1 page) (s.totalPages lower)).toNat
  if next = s.currentPage then s else { s with currentPage := next }.renderMemberTable lower

def step (lower : String → String) (s : MemberTable) : MemberOp → MemberTable
  | .loaded members => { s with latestMembers := members }.renderMemberTable lower
  | .applyMemberFilters roomSearch search typeFilter =>
    { s with
      appliedRoomSearch := roomSearch
      appliedSearch := search
      appliedTypeFilter := typeFilter
      currentPage := 1 }.renderMemberTable lower
  | .prev => if s.currentPage ≤ 1 then s else s.goToMemberPage lower (s.currentPage - 1)
  | .next =>
    if s.totalPages lower ≤ s.currentPage then s else s.goToMemberPage lower (s.currentPage + 1)
  | .jumpToMemberPageInput none => s
  | .jumpToMemberPageInput (some page) =>
    s.goToMemberPage lower (min (max 1 page) (s.totalPages lower))
  | .setPageSize next =>
    if next ∈ pageSizeOptions then
      { s with pageSize := next, currentPage := 1 }.renderMemberTable lower
    else s

end MemberTable

def memberTable (lower : String → String) : Machine MemberTable MemberOp where
  init := {}
  step := MemberTable.step lower

/-! ### Its buttons -/

/-- What `onKickMember` gets from the kick buttons of the table, in their order. -/
def kickButtons (innerHTML : List Char) : Option (List (List Char × List Char × List Char)) :=
  (Html.tokens innerHTML).map fun ts =>
    (Html.withAttr "data-kick-room".toList ts).map fun btn =>
      (Html.value "data-kick-room".toList btn, Html.value "data-kick-user".toList btn,
        Html.value "data-kick-name".toList btn)

/-- The row that `onWatchMemberRow` gets from a watch button. -/
structure WatchedRow where
  roomId : List Char
  userId : List Char
  biz : List Char
  streamKind : List Char
  streamId : List Char
  nickname : List Char
  deriving DecidableEq, Repr

def watchButtons (innerHTML : List Char) : Option (List WatchedRow) :=
  (Html.tokens innerHTML).map fun ts =>
    (Html.withAttr "data-watch-room".toList ts).map fun btn =>
      { roomId := Html.value "data-watch-room".toList btn
        userId := Html.value "data-watch-user".toList btn
        biz := Html.value "data-watch-biz".toList btn
        streamKind := Html.value "data-watch-kind".toList btn
        streamId := Html.value "data-watch-stream".toList btn
        nickname := Html.value "data-watch-name".toList btn }

end Meetkit
