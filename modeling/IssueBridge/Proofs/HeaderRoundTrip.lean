import IssueBridge.Plan.CommentPlan
import Mathlib.Data.List.Infix
import Mathlib.Tactic.Lemma

/-!
# Headers read back

A header is read part by part, and each part ends where the text after it first occurs. So the
header of a comment whose parts do not contain what ends them reads back exactly, whatever follows
it, and the number reads back from every comment that was written.
-/

namespace IssueBridge.Proofs

open Header

lemma isPrefixOf?_append (s rest : List Char) : s.isPrefixOf? (s ++ rest) = some rest := by
  induction s with
  | nil => cases rest <;> rfl
  | cons c s ih =>
    change (if (c == c) = true then s.isPrefixOf? (s ++ rest) else none) = some rest
    rw [if_pos (beq_self_eq_true c), ih]

lemma takeWhile_append_stop {p : Char → Bool} {s rest : List Char} {c : Char}
    (hs : ∀ d ∈ s, p d = true) (hc : p c = false) : (s ++ c :: rest).takeWhile p = s := by
  rw [List.takeWhile_append_of_pos hs, List.takeWhile_cons_of_neg (by simp [hc]), List.append_nil]

lemma dropWhile_append_stop {p : Char → Bool} {s rest : List Char} {c : Char}
    (hs : ∀ d ∈ s, p d = true) (hc : p c = false) :
    (s ++ c :: rest).dropWhile p = c :: rest := by
  rw [List.dropWhile_append_of_pos hs, List.dropWhile_cons_of_neg (by simp [hc])]

/-- A separator whose first character does not occur again in it is found behind a text that does
not contain it. -/
lemma splitFirst?_append (c : Char) (separator : List Char) {before : List Char} (rest : List Char)
    (hc : c ∉ separator) (hbefore : ¬(c :: separator) <:+: before) :
    Text.splitFirst? (c :: separator) (before ++ (c :: separator ++ rest)) =
      some (before, rest) := by
  induction before with
  | nil =>
    rw [List.nil_append, List.cons_append]
    unfold Text.splitFirst?
    rw [← List.cons_append, isPrefixOf?_append]
  | cons d before ih =>
    have hrest : ¬(c :: separator) <:+: before := fun h => hbefore (List.infix_cons h)
    rw [List.cons_append]
    unfold Text.splitFirst?
    cases hprefix : (c :: separator).isPrefixOf? (d :: (before ++ (c :: separator ++ rest))) with
    | none => rw [ih hrest, Option.map_some]
    | some after =>
      exfalso
      have heq := Text.append_of_isPrefixOf? hprefix
      rw [← List.cons_append, List.append_eq_append_iff] at heq
      rcases heq with ⟨tail, hsep, htail⟩ | ⟨tail, hdb, -⟩
      · cases tail with
        | nil =>
          rw [List.append_nil] at hsep
          exact hbefore (hsep ▸ List.infix_refl _)
        | cons e tail =>
          rw [List.cons_append, List.cons_append, List.cons.injEq] at htail
          rw [List.cons_append, List.cons.injEq] at hsep
          refine hc ?_
          rw [hsep.2, htail.1]
          exact List.mem_append_right _ List.mem_cons_self
      · exact hbefore ⟨[], tail, by rw [List.nil_append, hdb]⟩

/-- No part of a header contains what ends it. -/
structure Separable (p : Parts) : Prop where
  digits : p.digits ≠ [] ∧ ∀ c ∈ p.digits, Text.isDigit c = true
  commentUrl : ']' ∉ p.commentUrl
  login : p.login ≠ [] ∧ '|' ∉ p.login ∧ ']' ∉ p.login
  userUrl : ']' ∉ p.userUrl
  name : ∀ name, p.name = some name → ¬afterName <:+: name
  time : ¬beforeBody <:+: p.time

lemma splitId?_append {digits : List Char} (rest : List Char) (hne : digits ≠ [])
    (hdigits : ∀ c ∈ digits, Text.isDigit c = true) :
    splitId? (opening ++ (digits ++ (afterId ++ rest))) = some (digits, rest) := by
  have hstop : Text.isDigit ')' = false := by decide
  have hafter : afterId ++ rest = ')' :: '|' :: rest := rfl
  unfold splitId?
  rw [isPrefixOf?_append, hafter]
  dsimp only [Option.bind_eq_bind, Option.bind_some]
  rw [takeWhile_append_stop hdigits hstop, dropWhile_append_stop hdigits hstop, ← hafter,
    isPrefixOf?_append, Option.bind_some, if_neg hne]

lemma splitAddress_append {address : List Char} (rest : List Char) (h : ']' ∉ address) :
    splitAddress (address ++ ']' :: rest) = (address, ']' :: rest) := by
  have hall : ∀ c ∈ address, decide (c ≠ ']') = true := by
    intro c hc
    rw [decide_eq_true_eq]
    exact fun heq => h (heq ▸ hc)
  unfold splitAddress
  rw [takeWhile_append_stop hall (by decide), dropWhile_append_stop hall (by decide)]

lemma splitLogin?_append {login : List Char} (rest : List Char)
    (h : login ≠ [] ∧ '|' ∉ login ∧ ']' ∉ login) :
    splitLogin? (login ++ '|' :: rest) = some (login, rest) := by
  obtain ⟨hne, hbar, hbracket⟩ := h
  have hall : ∀ c ∈ login, decide (c ≠ '|' ∧ c ≠ ']') = true := by
    intro c hc
    rw [decide_eq_true_eq]
    exact ⟨fun heq => hbar (heq ▸ hc), fun heq => hbracket (heq ▸ hc)⟩
  unfold splitLogin?
  rw [takeWhile_append_stop hall (by decide), dropWhile_append_stop hall (by decide)]
  cases login with
  | nil => exact absurd rfl hne
  | cons c login => rfl

lemma splitName?_append {p : Parts} (rest : List Char)
    (h : ∀ name, p.name = some name → ¬afterName <:+: name) :
    splitName? (p.nameText ++ rest) = some (p.name, rest) := by
  unfold splitName? Parts.nameText
  cases hname : p.name with
  | none =>
    have hno : beforeName.isPrefixOf? (beforeTime ++ rest) = none := rfl
    dsimp only
    rw [hno, isPrefixOf?_append]
    rfl
  | some name =>
    dsimp only
    rw [List.append_assoc, List.append_assoc, isPrefixOf?_append]
    dsimp only
    have hsplit := splitFirst?_append ')' " at ".toList rest (by decide) (h name hname)
    change (Text.splitFirst? (')' :: " at ".toList)
      (name ++ (')' :: " at ".toList ++ rest))).map _ = _
    rw [hsplit]
    rfl

lemma render_append (p : Parts) (text : List Char) :
    p.render ++ text = opening ++ (p.digits ++ (afterId ++ (p.commentUrl ++
      ']' :: (" from GitHub user [".toList ++ (p.login ++ '|' :: (p.userUrl ++
        ']' :: (p.nameText ++ (p.time ++ (beforeBody ++ text))))))))) := by
  unfold Parts.render
  simp only [List.append_assoc, List.cons_append]
  rfl

lemma isPrefixOf?_beforeLogin (rest : List Char) :
    beforeLogin.isPrefixOf? (']' :: (" from GitHub user [".toList ++ rest)) = some rest :=
  isPrefixOf?_append beforeLogin rest

/-- A header is read back from the front of any text. -/
theorem split?_render (p : Parts) (h : Separable p) (text : List Char) :
    split? (p.render ++ text) = some (p, text) := by
  have hclose : ∀ rest, [']'].isPrefixOf? (']' :: rest) = some rest :=
    fun rest => isPrefixOf?_append [']'] rest
  have hbody : Text.splitFirst? beforeBody (p.time ++ (beforeBody ++ text)) =
      some (p.time, text) :=
    splitFirst?_append ':' "\n\n".toList text (by decide) h.time
  unfold split?
  rw [render_append, splitId?_append _ h.digits.1 h.digits.2]
  dsimp only [Option.bind_eq_bind, Option.bind_some]
  rw [splitAddress_append _ h.commentUrl]
  dsimp only
  rw [isPrefixOf?_beforeLogin, Option.bind_some, splitLogin?_append _ h.login, Option.bind_some]
  dsimp only
  rw [splitAddress_append _ h.userUrl]
  dsimp only
  rw [hclose, Option.bind_some, splitName?_append _ h.name, Option.bind_some]
  dsimp only
  rw [hbody, Option.bind_some]

/-- The header of a GitHub comment, written for a user, reads back and leaves room for a text. -/
structure Legible (c : GitHub.Comment) (u : GitHub.User) : Prop where
  id : 0 ≤ c.id
  commentUrl : ']' ∉ c.htmlUrl.toList
  login : u.login.toList ≠ [] ∧ '|' ∉ u.login.toList ∧ ']' ∉ u.login.toList
  userUrl : ']' ∉ u.htmlUrl.toList
  name : ∀ name, u.shownName = some name → ¬") at ".toList <:+: name.toList
  short : (partsOf c u).render.length ≤ maxCommentLength

lemma isDigit_ofNat {n : Nat} {c : Char} (h : c ∈ Decimal.ofNat n) : c.isDigit = true :=
  Nat.isDigit_of_mem_toDigits (by decide) (by decide) h

lemma newline_not_mem_ofNat (n : Nat) : '\n' ∉ Decimal.ofNat n :=
  fun h => absurd (isDigit_ofNat h) (by decide)

lemma newline_not_mem_padded (width n : Nat) : '\n' ∉ Decimal.padded width n := by
  unfold Decimal.padded
  rw [List.mem_append]
  rintro (h | h)
  · exact absurd (List.eq_of_mem_replicate h) (by decide)
  · exact newline_not_mem_ofNat n h

lemma newline_not_mem_yearText (year : Int) : '\n' ∉ Instant.yearText year := by
  unfold Instant.yearText
  split_ifs
  · exact newline_not_mem_padded _ _
  · rw [List.mem_cons]
    rintro (h | h)
    · exact absurd h (by decide)
    · exact newline_not_mem_padded _ _ h
  · rw [List.mem_cons]
    rintro (h | h)
    · exact absurd h (by decide)
    · exact newline_not_mem_padded _ _ h

lemma newline_not_mem_monthName (month : Nat) : '\n' ∉ (Date.monthName month).toList := by
  have hall : ∀ name ∈ ["January", "February", "March", "April", "May", "June", "July", "August",
      "September", "October", "November", "December"], '\n' ∉ name.toList := by decide
  unfold Date.monthName
  rw [List.getD_eq_getElem?_getD]
  cases hget : ["January", "February", "March", "April", "May", "June", "July", "August",
      "September", "October", "November", "December"][month - 1]? with
  | none => decide
  | some name => exact hall name (List.mem_of_getElem? hget)

lemma newline_not_mem_headerChars (t : Instant) : '\n' ∉ t.headerChars := by
  have hnoon : ∀ b : Prop, [Decidable b] → '\n' ∉ (if b then " AM, " else " PM, ").toList := by
    intro b _
    split_ifs
    · decide
    · decide
  have hcolon : '\n' ≠ ':' := by decide
  have hspace : '\n' ≠ ' ' := by decide
  unfold Instant.headerChars
  dsimp only
  simp only [List.mem_append, List.mem_cons, not_or]
  exact ⟨⟨⟨⟨⟨newline_not_mem_padded _ _, hcolon, newline_not_mem_padded _ _⟩, hnoon _⟩,
    newline_not_mem_monthName _⟩, hspace, newline_not_mem_ofNat _⟩, hspace,
    newline_not_mem_yearText _⟩

lemma ofInt_id {c : GitHub.Comment} (h : 0 ≤ c.id) :
    Decimal.ofInt c.id.toInt = Decimal.ofNat c.id.toInt.toNat := by
  have hid : 0 ≤ c.id.toInt := by simpa using Int64.le_iff_toInt_le.mp h
  obtain ⟨n, hn⟩ := Int.eq_ofNat_of_zero_le hid
  rw [hn]
  rfl

lemma digits_partsOf {c : GitHub.Comment} (u : GitHub.User) (h : 0 ≤ c.id) :
    (partsOf c u).digits ≠ [] ∧ ∀ d ∈ (partsOf c u).digits, Text.isDigit d = true := by
  change Decimal.ofInt c.id.toInt ≠ [] ∧ ∀ d ∈ Decimal.ofInt c.id.toInt, Text.isDigit d = true
  rw [ofInt_id h]
  exact ⟨Nat.toDigits_ne_nil, fun d hd => Text.isDigit_of_ascii (isDigit_ofNat hd)⟩

lemma idOf_partsOf (c : GitHub.Comment) (u : GitHub.User) :
    idOf (partsOf c u).digits = .ok c.id := by
  have hread : Decimal.toInt64? (partsOf c u).digits = some c.id := by
    unfold Decimal.toInt64? partsOf
    rw [Decimal.toInt?_ofInt]
    dsimp only
    rw [if_pos ⟨c.id.minValue_le_toInt, c.id.toInt_le⟩, Int64.ofInt_toInt]
  unfold idOf
  rw [hread]

lemma length_digits_partsOf {c : GitHub.Comment} (u : GitHub.User) (h : 0 ≤ c.id) :
    (partsOf c u).digits.length ≤ 19 := by
  change (Decimal.ofInt c.id.toInt).length ≤ 19
  rw [ofInt_id h]
  refine (Nat.length_toDigits_le_iff (by decide) (by decide)).mpr ?_
  have hhigh := c.id.toInt_lt
  omega

lemma separable_partsOf {c : GitHub.Comment} {u : GitHub.User} (h : Legible c u) :
    Separable (partsOf c u) where
  digits := digits_partsOf u h.id
  commentUrl := h.commentUrl
  login := h.login
  userUrl := h.userUrl
  name := by
    intro name hname
    obtain ⟨shown, hshown, rfl⟩ := Option.map_eq_some_iff.mp hname
    exact h.name shown hshown
  time := fun hcut => newline_not_mem_headerChars c.createdAt (hcut.subset (by decide))

/-- Every comment that is written carries the number of its GitHub comment. -/
theorem id?_written {c : GitHub.Comment} (u : GitHub.User) (h : 0 ≤ c.id) :
    Header.id? (written c u) = .ok (some c.id) := by
  obtain ⟨hne, hdigits⟩ := digits_partsOf u h
  have hlength := length_digits_partsOf u h
  have hfront : ∃ rest, (partsOf c u).render ++ c.body.toList =
      opening ++ ((partsOf c u).digits ++ (afterId ++ rest)) := by
    unfold Parts.render
    simp only [List.append_assoc]
    exact ⟨_, rfl⟩
  obtain ⟨rest, hrest⟩ := hfront
  have htake : ∃ cut, (written c u).toList =
      opening ++ ((partsOf c u).digits ++ (afterId ++ cut)) := by
    unfold written
    rw [String.toList_ofList, hrest, ← List.append_assoc, ← List.append_assoc, List.take_append,
      List.take_of_length_le]
    · exact ⟨_, by rw [List.append_assoc, List.append_assoc]⟩
    · have hopening : opening.length = 13 := by decide
      have hafter : afterId.length = 2 := by decide
      rw [List.length_append, List.length_append, hopening, hafter]
      unfold maxCommentLength
      omega
  obtain ⟨cut, hcut⟩ := htake
  unfold Header.id?
  rw [hcut, splitId?_append cut hne hdigits]
  dsimp only
  rw [idOf_partsOf]
  rfl

lemma toList_written {c : GitHub.Comment} {u : GitHub.User}
    (h : (partsOf c u).render.length ≤ maxCommentLength) :
    (written c u).toList = (partsOf c u).render ++
      c.body.toList.take (maxCommentLength - (partsOf c u).render.length) := by
  unfold written
  rw [String.toList_ofList, List.take_append, List.take_of_length_le h]

/-- What was written reads back, but for what was cut from the end of the text. -/
theorem parse?_written {c : GitHub.Comment} {u : GitHub.User} (h : Legible c u) :
    Header.parse? (written c u) = .ok (some {
      id := c.id
      login := u.login
      shownName := u.shownName
      timestamp := c.createdAt.headerText
      body := String.ofList
        (c.body.toList.take (maxCommentLength - (partsOf c u).render.length)) }) := by
  unfold Header.parse?
  rw [toList_written h.short, split?_render _ (separable_partsOf h)]
  dsimp only
  rw [idOf_partsOf]
  have hname : ((partsOf c u).name.map String.ofList) = u.shownName := by
    unfold partsOf
    dsimp only
    rw [Option.map_map]
    cases u.shownName with
    | none => rfl
    | some name => simp
  rw [hname]
  simp [partsOf, Except.map, Instant.headerText]

lemma take_eq_take_iff {α : Type} (r : ℕ) (a b : List α) :
    b.take r = a.take r ↔ a.take r = b ∨ (r ≤ a.length ∧ a.take r <+: b) := by
  constructor
  · intro h
    by_cases hr : r ≤ a.length
    · right
      rw [← h]
      exact ⟨hr, List.take_prefix r b⟩
    · left
      have hb : b.length ≤ r := by
        have hlength := congrArg List.length h
        rw [List.length_take, List.length_take] at hlength
        omega
      rw [← h, List.take_of_length_le hb]
  · rintro (h | ⟨hr, rest, h⟩)
    · rw [← h, List.take_take, Nat.min_self]
    · rw [← h, List.take_left']
      rw [List.length_take]
      omega

/-- A comment that was written for one text is stale for another one if that would be written
differently. -/
lemma isStale_of_written {c c₀ : GitHub.Comment} {u : GitHub.User} (h : Legible c₀ u)
    (hparts : partsOf c u = partsOf c₀ u) (id : String) :
    CommentPlan.isStale c ⟨id, written c₀ u⟩ = .ok (decide (written c u ≠ written c₀ u)) := by
  let room := maxCommentLength - (partsOf c₀ u).render.length
  have hshort := h.short
  have hfull : maxCommentLength ≤ (written c₀ u).toList.length ↔ room ≤ c₀.body.toList.length := by
    have hroom : room = maxCommentLength - (partsOf c₀ u).render.length := rfl
    rw [toList_written hshort, List.length_append, List.length_take]
    omega
  have hwritten : written c u = written c₀ u ↔
      c.body.toList.take room = c₀.body.toList.take room := by
    rw [← String.toList_inj, toList_written hshort, toList_written (by rw [hparts]; exact hshort),
      hparts, List.append_cancel_left_eq]
  have hagree := hwritten.trans (take_eq_take_iff room c₀.body.toList c.body.toList)
  have hbody : String.ofList (c₀.body.toList.take room) = c.body ↔
      c₀.body.toList.take room = c.body.toList := by
    rw [← String.toList_inj, String.toList_ofList]
  unfold CommentPlan.isStale
  dsimp only
  rw [parse?_written h]
  dsimp only
  by_cases hsame : String.ofList (c₀.body.toList.take room) = c.body
  · rw [if_pos hsame]
    simp [hagree.mpr (Or.inl (hbody.mp hsame))]
  · rw [or_iff_right (fun heq => hsame (hbody.mpr heq)), ← hfull,
      ← List.isPrefixOf_iff_prefix] at hagree
    rw [if_neg hsame, String.toList_ofList]
    simp only [ne_eq, hagree, decide_not, Bool.decide_and, Bool.decide_eq_true, room]

/-- A comment that was just written is up to date. -/
theorem isStale_written {c : GitHub.Comment} {u : GitHub.User} (h : Legible c u) (id : String) :
    CommentPlan.isStale c ⟨id, written c u⟩ = .ok false := by
  rw [isStale_of_written h rfl]
  simp

end IssueBridge.Proofs
