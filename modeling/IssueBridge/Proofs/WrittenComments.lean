import IssueBridge.Proofs.Surroundings
import Mathlib.Data.List.TakeWhile

/-!
# Written comments

What was written for a GitHub comment reads back, but for what was cut from its end. It counts as
stale exactly if another text would be written now. Only the login can make a header unreadable.
-/

namespace IssueBridge.Proofs

open Header CommentPlan

variable {c c₀ : GitHub.Comment} {u : GitHub.User} {t : Jira.Comment} {login : List Char}

/-- All parts of a header but the login are free of what ends them. -/
structure Fenced (c : GitHub.Comment) (u : GitHub.User) : Prop where
  id : 0 ≤ c.id
  commentUrl : ']' ∉ c.htmlUrl.toList
  userUrl : ']' ∉ u.htmlUrl.toList
  name : ∀ name, u.shownName = some name → ¬") at ".toList <:+: name.toList

lemma legible_of_fenced (h : Fenced c u)
    (hlogin : u.login.toList ≠ [] ∧ '|' ∉ u.login.toList ∧ ']' ∉ u.login.toList)
    (hshort : (partsOf c u).render.length ≤ maxCommentLength) : Legible c u :=
  ⟨h.id, h.commentUrl, hlogin, h.userUrl, h.name, hshort⟩

/-- What is written reads back, and only the end of the text is ever cut. -/
theorem written_round_trip (h : Fenced c u)
    (hlogin : u.login.toList ≠ [] ∧ '|' ∉ u.login.toList ∧ ']' ∉ u.login.toList) :
    (written c u).length ≤ maxCommentLength ∧
      ((partsOf c u).render.length ≤ maxCommentLength →
        Header.parse? (written c u) = .ok (some {
          id := c.id
          login := u.login
          shownName := u.shownName
          timestamp := c.createdAt.headerText
          body := Text.cut (maxCommentLength - (partsOf c u).render.length) c.body }) ∧
        ((partsOf c u).render.length + c.body.length ≤ maxCommentLength →
          Text.cut (maxCommentLength - (partsOf c u).render.length) c.body = c.body)) := by
  refine ⟨?_, fun hshort => ⟨?_, fun hfits => ?_⟩⟩
  · unfold written
    rw [String.length_ofList, List.length_take]
    exact Nat.min_le_left _ _
  · exact parse?_written (legible_of_fenced h hlogin hshort)
  · unfold Text.cut
    rw [← String.length_toList] at hfits
    rw [List.take_of_length_le (by omega), String.ofList_toList]

/-- The remark with another text. -/
def saying (body : String) : GitHub.Comment :=
  { remark with body }

/-- A text that looks like a header, behind a name that looks like the words in front of a time. -/
theorem written_round_trip_nested :
    let c := saying "ü:\n\nComment [(ID 4)|u] from GitHub user [eve|u] (Eve) at noon:\n\ny"
    let u : GitHub.User := ⟨"bob", some " Bob at 9:00 (B.) ", "url"⟩
    ∃ p, Header.parse? (written c u) = .ok (some p) ∧ p.id = 3 ∧
      p.shownName = some "Bob at 9:00 (B.)" ∧ p.body = c.body := by
  intro c u
  have hfenced : Fenced c u := by
    refine ⟨by decide, by decide, by decide, fun name hname => ?_⟩
    obtain rfl : "Bob at 9:00 (B.)" = name := by
      have hshown : u.shownName = some "Bob at 9:00 (B.)" := by decide +kernel
      rw [hshown] at hname
      exact Option.some.inj hname
    decide +kernel
  obtain ⟨hparse, hwhole⟩ := (written_round_trip hfenced (by decide)).2 (by decide +kernel)
  refine ⟨_, hparse, rfl, by decide +kernel, ?_⟩
  exact hwhole (by decide +kernel)

/-- A mirror is stale exactly if another text would be written in its place. -/
theorem isStale_written_eq (h : Legible c u) (hid : c₀.id = c.id) (hurl : c₀.htmlUrl = c.htmlUrl)
    (hat : c₀.createdAt = c.createdAt) (ht : t.body = written c₀ u) :
    isStale c t = .ok (decide (written c u ≠ t.body)) := by
  have hparts : partsOf c₀ u = partsOf c u := by
    unfold partsOf
    rw [hid, hurl, hat]
  have hlegible : Legible c₀ u := by
    refine ⟨hid ▸ h.id, hurl ▸ h.commentUrl, h.login, h.userUrl, h.name, ?_⟩
    rw [hparts]
    exact h.short
  obtain ⟨id, body⟩ := t
  dsimp only at ht ⊢
  rw [ht]
  exact isStale_of_written hlegible hparts.symm id

/-- What goes on behind the limit is not written. -/
lemma written_saying_append {text : String} (more : String)
    (h : maxCommentLength ≤ (partsOf remark u).render.length + text.length) :
    written (saying (text ++ more)) u = written (saying text) u := by
  change String.ofList (((partsOf remark u).render ++ (text ++ more).toList).take _) =
    String.ofList (((partsOf remark u).render ++ text.toList).take _)
  rw [String.toList_append, ← List.append_assoc, List.take_append_of_le_length]
  rw [List.length_append, String.length_toList]
  exact h

lemma legible_saying (body : String) : Legible (saying body) author :=
  ⟨sample_legible.id, sample_legible.commentUrl, sample_legible.login, sample_legible.userUrl,
    sample_legible.name, sample_legible.short⟩

lemma saying_same (text other : String) :
    (saying text).id = (saying other).id ∧ (saying text).htmlUrl = (saying other).htmlUrl ∧
      (saying text).createdAt = (saying other).createdAt :=
  ⟨rfl, rfl, rfl⟩

/-- A text that is longer than any comment. -/
def overlong : String :=
  String.ofList (List.replicate 40000 'x')

lemma length_overlong : overlong.length = 40000 := by
  unfold overlong
  rw [String.length_ofList, List.length_replicate]

/-- An overlong text may go on without making its mirror stale. -/
theorem isStale_written_overlong :
    isStale (saying (overlong ++ "y")) ⟨"1", written (saying overlong) author⟩ = .ok false := by
  have hsame : written (saying (overlong ++ "y")) author = written (saying overlong) author := by
    refine written_saying_append "y" ?_
    rw [length_overlong]
    unfold maxCommentLength
    omega
  obtain ⟨hid, hurl, hat⟩ := saying_same overlong (overlong ++ "y")
  rw [isStale_written_eq (t := ⟨"1", written (saying overlong) author⟩) (legible_saying _) hid hurl
    hat rfl, hsame]
  simp

/-! ## Logins -/

/-- Bars may as well be part of the address behind the login. -/
lemma exists_legible (h : Fenced c u) (hne : u.login.toList ≠ []) (hopen : ']' ∉ u.login.toList)
    (hbar : u.login.toList.head? ≠ some '|')
    (hshort : (partsOf c u).render.length ≤ maxCommentLength) :
    ∃ u', Legible c u' ∧ written c u' = written c u := by
  by_cases hmem : '|' ∈ u.login.toList
  · obtain ⟨front, back, hsplit, hfront⟩ := List.eq_append_cons_of_mem hmem
    rw [hsplit] at hne hopen hbar
    simp only [List.mem_append, List.mem_cons, not_or] at hopen
    let u' : GitHub.User :=
      ⟨String.ofList front, u.name, String.ofList (back ++ '|' :: u.htmlUrl.toList)⟩
    have hrender : (partsOf c u').render = (partsOf c u).render := by
      have hname : (partsOf c u').nameText = (partsOf c u).nameText := rfl
      unfold Parts.render
      rw [hname]
      simp [partsOf, u', hsplit]
    refine ⟨u', ⟨h.id, h.commentUrl, ?_, ?_, h.name, ?_⟩, ?_⟩
    · rw [String.toList_ofList]
      refine ⟨fun hnil => hbar ?_, hfront, hopen.1⟩
      rw [hnil]
      rfl
    · rw [String.toList_ofList]
      simp [hopen.2.2, h.userUrl]
    · rw [hrender]
      exact hshort
    · unfold written
      rw [hrender]
  · exact ⟨u, legible_of_fenced h ⟨hne, hmem, hopen⟩ hshort, rfl⟩

/-- A login cannot be read if a closing bracket comes before any bar, or if it begins with a bar. -/
lemma splitLogin?_eq_none (rest : List Char)
    (h : ']' ∈ login.takeWhile (· ≠ '|') ∨ login.head? = some '|') :
    splitLogin? (login ++ rest) = none := by
  rcases h with hmem | hbar
  · obtain ⟨front, back, hsplit, hfront⟩ := List.eq_append_cons_of_mem hmem
    have hall : ∀ d ∈ front, decide (d ≠ '|' ∧ d ≠ ']') = true := by
      intro d hd
      have hd' : d ∈ login.takeWhile (· ≠ '|') := by
        rw [hsplit]
        exact List.mem_append_left _ hd
      have hne : d ≠ '|' := by simpa using List.mem_takeWhile_imp hd'
      simp only [decide_eq_true_eq]
      exact ⟨hne, fun heq => hfront (heq ▸ hd)⟩
    have hlogin : login ++ rest = front ++ ']' :: (back ++ login.dropWhile (· ≠ '|') ++ rest) := by
      calc login ++ rest
          = login.takeWhile (· ≠ '|') ++ login.dropWhile (· ≠ '|') ++ rest := by
            rw [List.takeWhile_append_dropWhile]
        _ = _ := by
            rw [hsplit]
            simp only [List.append_assoc, List.cons_append]
    unfold splitLogin?
    rw [hlogin, takeWhile_append_stop hall (by decide), dropWhile_append_stop hall (by decide)]
    cases front <;> rfl
  · cases login with
    | nil => cases hbar
    | cons d login =>
      obtain rfl := Option.some.inj hbar
      rfl

lemma split?_eq_none {p : Parts} (text : List Char)
    (hdigits : p.digits ≠ [] ∧ ∀ d ∈ p.digits, Text.isDigit d = true) (hurl : ']' ∉ p.commentUrl)
    (hlogin : ']' ∈ p.login.takeWhile (· ≠ '|') ∨ p.login.head? = some '|') :
    split? (p.render ++ text) = none := by
  unfold split?
  rw [render_append, splitId?_append _ hdigits.1 hdigits.2]
  dsimp only [Option.bind_eq_bind, Option.bind_some]
  rw [splitAddress_append _ hurl]
  dsimp only
  rw [isPrefixOf?_beforeLogin, Option.bind_some, splitLogin?_eq_none _ hlogin]
  rfl

lemma ofComments_written (hid : 0 ≤ c.id) (u : GitHub.User) (id : String) :
    ofComments [c] [⟨id, written c u⟩] = (isStale c ⟨id, written c u⟩).map fun stale =>
      cons c (if stale then .edit ⟨id, written c u⟩ else .nothing) ⟨[], [], 0⟩ := by
  have hfound : counterpart c.id [⟨id, written c u⟩] = .ok (some ⟨id, written c u⟩) := by
    rw [counterpart_cons, id?_written u hid]
    exact if_pos rfl
  unfold ofComments
  rw [needOf_some hfound]
  cases isStale c ⟨id, written c u⟩ <;> rfl

/-- A comment is up to date once it is written, unless the login of its author cannot be read back:
then no plan can be made for it. -/
theorem ofComments_written_by (h : Fenced c u) (hne : u.login.toList ≠ [])
    (hshort : (partsOf c u).render.length ≤ maxCommentLength) (id : String) :
    (']' ∉ u.login.toList → u.login.toList.head? ≠ some '|' →
        ofComments [c] [⟨id, written c u⟩] = .ok ⟨[], [], 1⟩) ∧
      (']' ∈ u.login.toList.takeWhile (· ≠ '|') ∨ u.login.toList.head? = some '|' →
        ofComments [c] [⟨id, written c u⟩] = .error (.unparseable id)) := by
  rw [ofComments_written h.id u id]
  refine ⟨fun hopen hbar => ?_, fun hlogin => ?_⟩
  · obtain ⟨u', hlegible, hwritten⟩ := exists_legible h hne hopen hbar hshort
    rw [← hwritten, isStale_written hlegible id]
    rfl
  · have hsplit : split? (written c u).toList = none := by
      rw [toList_written hshort]
      exact split?_eq_none _ (digits_partsOf u h.id) h.commentUrl hlogin
    have hparse : Header.parse? (written c u) = .ok none := by
      unfold Header.parse?
      rw [hsplit]
    unfold isStale
    dsimp only
    rw [hparse]
    rfl

/-- The account of a program. -/
def bot : GitHub.User :=
  ⟨"dependabot[bot]", none, "url"⟩

lemma fenced_bot : Fenced remark bot :=
  ⟨by decide, by decide, by decide, fun _ hname => (by cases hname)⟩

theorem ofComments_written_by_bot :
    ofComments [remark] [⟨"1", written remark bot⟩] = .error (.unparseable "1") :=
  (ofComments_written_by fenced_bot (by decide) (by decide) "1").2 (Or.inl (by decide))

/-- Not every comment that is written can be read back. -/
theorem bracketed_login_unreadable :
    Fenced remark bot ∧ bot.login.toList ≠ [] ∧
      (partsOf remark bot).render.length < maxCommentLength ∧
      ofComments [remark] [⟨"1", written remark bot⟩] ≠ .ok ⟨[], [], 1⟩ :=
  ⟨fenced_bot, by decide, by decide, by decide +kernel⟩

end IssueBridge.Proofs
