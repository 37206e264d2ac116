import Meetkit.Model.Accounts

/-! Reading the list of admin accounts back. Trimming the list as a whole changes nothing
that trimming its segments does not, a segment that is no account is skipped, and of
several accounts of one name the last one counts. -/

namespace Meetkit

open Text

/-- A name and a password that can be written down. -/
structure AdminAccount where
  user : String
  password : String
  user_ne : user ≠ ""
  user_head : ∀ c ∈ user.toList.head?, isSpace c = false
  user_last : ∀ c ∈ user.toList.getLast?, isSpace c = false
  user_plain : ':' ∉ user.toList ∧ ';' ∉ user.toList
  password_plain : ';' ∉ password.toList
  password_last : ∀ c ∈ password.toList.getLast?, isSpace c = false

/-- A segment of the list. White space is `noColon` too. -/
inductive Segment
  | account (before : List Char) (a : AdminAccount) (after : List Char) (hbefore : Blank before)
      (hafter : Blank after)
  | noColon (text : List Char) (hcolon : ':' ∉ text) (hsemi : ';' ∉ text)
  /-- Nothing before the first colon. -/
  | noUser (before rest : List Char) (hbefore : Blank before) (hsemi : ';' ∉ rest)

namespace AdminAccount

def text (a : AdminAccount) : List Char := a.user.toList ++ ':' :: a.password.toList

variable (a : AdminAccount)

theorem user_toList_ne : a.user.toList ≠ [] :=
  fun h => a.user_ne (String.toList_inj.1 h)

theorem trimSpaceList_text : trimSpaceList a.text = a.text := by
  refine trimSpaceList_of_ends (fun c hc => a.user_head c ?_) fun c hc => ?_
  · rwa [text, List.head?_append_of_ne_nil _ a.user_toList_ne] at hc
  · rw [text, List.getLast?_append_cons] at hc
    cases hp : a.password.toList with
    | nil =>
      rw [hp] at hc
      obtain rfl : ':' = c := Option.some.inj hc
      decide
    | cons d p =>
      rw [hp, List.getLast?_cons_cons] at hc
      exact a.password_last c (hp ▸ hc)

theorem semi_notMem_text : ';' ∉ a.text := by
  intro h
  rcases List.mem_append.1 h with h | h
  · exact a.user_plain.2 h
  · exact (List.mem_cons.1 h).elim (fun h => absurd h (by decide)) a.password_plain

end AdminAccount

namespace Segment

def text : Segment → List Char
  | account before a after _ _ => before ++ a.text ++ after
  | noColon text _ _ => text
  | noUser before rest _ _ => before ++ ':' :: rest

def account? : Segment → Option AdminAccount
  | account _ a _ _ _ => some a
  | _ => none

theorem semi_notMem (s : Segment) : ';' ∉ s.text := by
  have hspace : ∀ {pad : List Char}, Blank pad → ';' ∉ pad := sep_notMem_blank (by decide)
  intro h
  cases s with
  | account before a after hbefore hafter =>
    rcases List.mem_append.1 h with h | h
    · exact (List.mem_append.1 h).elim (hspace hbefore) a.semi_notMem_text
    · exact hspace hafter h
  | noColon text _ hsemi => exact hsemi h
  | noUser before rest hbefore hsemi =>
    rcases List.mem_append.1 h with h | h
    · exact hspace hbefore h
    · exact (List.mem_cons.1 h).elim (fun h => absurd h (by decide)) hsemi

end Segment

/-- The list as it is written down. -/
def render (segments : List Segment) : String :=
  String.ofList ([';'].intercalate (segments.map Segment.text))

/-- The password of the last account of the name. -/
def lastPassword (segments : List Segment) (user : String) : Option String :=
  ((segments.filterMap Segment.account?).reverse.find? fun a => a.user = user).map (·.password)

section Parsing

variable {m : GoMap String String} {k : String}

/-- Only the trimmed text of a segment matters. -/
theorem addAccount_trim (m : GoMap String String) (part : List Char) :
    addAccount m (trimSpaceList part) = addAccount m part := by
  unfold addAccount
  rw [trimSpaceList_trimSpaceList]

theorem addAccount_text (m : GoMap String String) (a : AdminAccount) :
    addAccount m a.text = m.insert a.user a.password := by
  have hne : a.text ≠ [] := by simp [AdminAccount.text]
  have huser : trimSpaceList a.user.toList = a.user.toList :=
    trimSpaceList_of_ends a.user_head a.user_last
  obtain ⟨n, hn⟩ : ∃ n, a.user.toList.length = n + 1 :=
    Nat.exists_eq_add_one.2 (List.length_pos_of_ne_nil a.user_toList_ne)
  have hindex : index [':'] a.text = some (n + 1) := by
    rw [← hn]
    exact index_char a.user_plain.1 _
  have htake : a.text.take (n + 1) = a.user.toList := by
    rw [← hn, AdminAccount.text, List.take_left]
  have hdrop : a.text.drop (n + 2) = a.password.toList := by
    have hlen : n + 2 = (a.user.toList ++ [':']).length := by simp [hn]
    have happ : a.text = (a.user.toList ++ [':']) ++ a.password.toList := by simp [AdminAccount.text]
    rw [hlen, happ, List.drop_left]
  unfold addAccount
  simp only [a.trimSpaceList_text, if_neg hne, hindex, htake, huser, if_neg a.user_toList_ne, hdrop,
    String.ofList_toList]

theorem addAccount_segment (m : GoMap String String) (s : Segment) : addAccount m s.text =
    s.account?.elim m fun a => m.insert a.user a.password := by
  cases s with
  | account before a after hbefore hafter =>
    have htrim : trimSpaceList (before ++ a.text ++ after) = trimSpaceList a.text := by
      rw [trimSpaceList_append_blank hafter, trimSpaceList_blank_append hbefore]
    rw [Segment.text, ← addAccount_trim, htrim, addAccount_trim, addAccount_text]
    rfl
  | noColon text hcolon =>
    have hindex : index [':'] (trimSpaceList text) = none :=
      index_char_none fun h => hcolon (mem_of_mem_trimSpaceList h)
    rw [Segment.text, addAccount, hindex]
    exact ite_self _
  | noUser before rest hbefore =>
    obtain ⟨t, ht, -⟩ := trimSpaceList_cons (c := ':') (by decide) rest
    have hindex : index [':'] (':' :: t) = some 0 := index_char List.not_mem_nil t
    rw [Segment.text, addAccount, trimSpaceList_blank_append hbefore, ht, hindex]
    exact ite_self _

/-- Trimming the whole list is of no consequence. -/
theorem parseAccounts_eq (raw : String) :
    parseAccounts raw = (raw.toList.splitOn ';').foldl addAccount ∅ := by
  have hfold : ∀ s : List Char, (s.splitOn ';').foldl addAccount ∅ =
      (trimmedParts ';' s).foldl addAccount ∅ := by
    intro s
    rw [trimmedParts, List.foldl_map]
    simp only [addAccount_trim]
  rw [hfold, ← trimmedParts_trimSpaceList (by decide), ← hfold, parseAccounts]
  split_ifs with hnil
  · rw [hnil]
    rfl
  · rfl

theorem parseAccounts_render (segments : List Segment) : parseAccounts (render segments) =
    (segments.filterMap Segment.account?).foldl (fun m a => m.insert a.user a.password) ∅ := by
  have hfold : ∀ m : GoMap String String, (segments.map Segment.text).foldl addAccount m =
      (segments.filterMap Segment.account?).foldl (fun m a => m.insert a.user a.password) m := by
    induction segments with
    | nil => exact fun _ => rfl
    | cons s segments ih =>
      intro m
      rw [List.map_cons, List.foldl_cons, addAccount_segment, List.filterMap_cons, ih]
      cases s.account? <;> rfl
  rw [parseAccounts_eq, render, String.toList_ofList]
  by_cases hnil : segments = []
  · rw [hnil]
    rfl
  · rw [List.splitOn_intercalate, hfold]
    · intro l hl
      obtain ⟨s, -, rfl⟩ := List.mem_map.1 hl
      exact s.semi_notMem
    · simpa using hnil

end Parsing

/-- Whatever the accounts, the white space around them and the segments that are none, each
name gets the password of its last account, and no other key is bound. -/
theorem accounts_recovered (segments : List Segment) (user : String) :
    (parseAccounts (render segments)).lookup user = lastPassword segments user := by
  rw [parseAccounts_render, lastPassword]
  induction segments.filterMap Segment.account? using List.reverseRecOn with
  | nil => rfl
  | append_singleton as a ih =>
    rw [List.foldl_append, List.foldl_cons, List.foldl_nil, GoMap.lookup_insert_iff, ih,
      List.reverse_append, List.reverse_singleton, List.singleton_append]
    by_cases hu : user = a.user
    · rw [if_pos hu, List.find?_cons_of_pos (by simp [hu])]
      rfl
    · rw [if_neg hu, List.find?_cons_of_neg (by simpa using Ne.symm hu)]

/-- `admin` is written down twice, with a segment that is no account between. -/
def twoAdmins : List Segment :=
  [.account " ".toList
      ⟨"admin", "pass1", by decide, by simp; decide, by simp; decide, by decide, by decide,
        by simp; decide⟩ [] (by decide) (by decide),
    .noColon "nocolon".toList (by decide) (by decide),
    .account []
      ⟨"admin", "a:b", by decide, by simp; decide, by simp; decide, by decide, by decide,
        by simp; decide⟩ "\n".toList (by decide) (by decide),
    .noUser " ".toList "bad".toList (by decide) (by decide)]

theorem last_admin_recovered : (parseAccounts (render twoAdmins)).lookup "admin" = some "a:b" :=
  accounts_recovered twoAdmins "admin"

example : (parseAccounts " admin:pass1 ;nocolon; bob:secret:word;:bad;admin: ").entries =
    [⟨"admin", ""⟩, ⟨"bob", "secret:word"⟩] := by decide +kernel

end Meetkit
