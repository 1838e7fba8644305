import IssueBridge.Header.Pattern
import IssueBridge.Proofs.HeaderGrammar

/-!
# Headers and their patterns

A comment is taken apart as the patterns of headers match it. Each part of a header is followed by
a text that it cannot contain or that ends it where it first occurs, so the first choice of the
pattern is the only one that needs to be tried.
-/

namespace IssueBridge.Proofs

open Header Text Text.Pattern

variable {α : Type} {inClass : Char → Bool} {go : Cursor → Option α} {p : Text.Pattern}
  {c : Cursor} {s : List Char}

/-! ## Single patterns -/

lemma try_literal (s : List Char) :
    (literal s).tryAt go c = (s.isPrefixOf? c.rest).bind fun rest =>
      go { c with passed := c.passed ++ s, rest } := by
  rw [tryAt]
  cases s.isPrefixOf? c.rest <;> rfl

/-- No fewer characters of a class are taken if nothing matches in front of one. -/
lemma tryMost_eq {go : List Char → List Char → Option α}
    (h : ∀ passed d rest, inClass d = true → go passed (d :: rest) = none) (passed : List Char) :
    tryMost inClass go passed s = go (passed ++ s.takeWhile inClass) (s.dropWhile inClass) := by
  induction s generalizing passed with
  | nil => rw [tryMost, List.takeWhile_nil, List.append_nil, List.dropWhile_nil]
  | cons d s ih =>
    rw [tryMost]
    cases hclass : inClass d with
    | true =>
      rw [if_pos rfl, List.takeWhile_cons_of_pos hclass, List.dropWhile_cons_of_pos hclass, ih,
        List.append_assoc, List.singleton_append]
      cases go (passed ++ d :: s.takeWhile inClass) (s.dropWhile inClass) with
      | some a => rfl
      | none => exact h passed d s hclass
    | false =>
      rw [if_neg Bool.false_ne_true, List.takeWhile_cons_of_neg (by simp [hclass]),
        List.dropWhile_cons_of_neg (by simp [hclass]), List.append_nil]

/-- What follows matches nowhere in front of a character of a class. -/
def StopsAt (inClass : Char → Bool) (go : Cursor → Option α) : Prop :=
  ∀ passed d rest groups, inClass d = true → go ⟨passed, d :: rest, groups⟩ = none

lemma stopsAt_literal {d : Char} (hd : inClass d = false) (s : List Char) :
    StopsAt inClass ((literal (d :: s)).tryAt go) := by
  intro passed e rest groups he
  have hne : (d == e) = false := by
    rw [beq_eq_false_iff_ne]
    rintro rfl
    rw [hd] at he
    cases he
  rw [try_literal]
  simp [List.isPrefixOf?, hne]

lemma try_most (h : StopsAt inClass go) :
    (most inClass).tryAt go c = go { c with
      passed := c.passed ++ c.rest.takeWhile inClass
      rest := c.rest.dropWhile inClass } :=
  tryMost_eq (fun passed d rest hd => h passed d rest c.groups hd) c.passed

lemma try_oneOrMore (number : Nat) (h : StopsAt inClass go) :
    (group number (oneOrMore inClass)).tryAt go c =
      if c.rest.takeWhile inClass = [] then none
      else go {
        passed := c.passed ++ c.rest.takeWhile inClass
        rest := c.rest.dropWhile inClass
        groups := c.groups ++ [(number, c.rest.takeWhile inClass)] } := by
  have hgroup : StopsAt inClass fun d : Cursor => go { d with
      groups := d.groups ++ [(number, d.passed.drop c.passed.length)] } :=
    fun passed d rest groups hd => h _ _ _ _ hd
  rcases c with ⟨passed, _ | ⟨d, rest⟩, groups⟩
  · rfl
  · cases hd : inClass d with
    | true =>
      rw [tryAt, oneOrMore, tryAt, tryAt]
      dsimp only
      rw [if_pos hd, try_most hgroup, List.takeWhile_cons_of_pos hd,
        List.dropWhile_cons_of_pos hd, if_neg (List.cons_ne_nil _ _)]
      simp
    | false =>
      rw [List.takeWhile_cons_of_neg (by simp [hd]), if_pos rfl, tryAt, oneOrMore, tryAt, tryAt]
      dsimp only
      rw [if_neg (by simp [hd])]

/-! ## The first separator -/

lemma splitFirst?_suffix {separator s t : List Char} (hsuffix : t <:+ s)
    (h : splitFirst? separator s = none) : splitFirst? separator t = none := by
  induction s with
  | nil => rwa [List.suffix_nil.mp hsuffix]
  | cons d s ih =>
    rcases List.suffix_cons_iff.mp hsuffix with rfl | hsuffix
    · exact h
    · refine ih hsuffix ?_
      rw [splitFirst?] at h
      split at h
      · cases h
      · exact Option.map_eq_none_iff.mp h

/-- What does not match in front of a text matches in front of no end of it. -/
def Lasting (go : Cursor → Option α) : Prop :=
  ∀ c d, d.rest <:+ c.rest → go c = none → go d = none

/-- If nothing matches behind the first separator, then nothing matches behind a later one. -/
lemma tryFewest_eq {separator : List Char} (hne : separator ≠ [])
    {go : List Char → List Char → Option α}
    (hgo : ∀ passed passed' rest rest', rest' <:+ rest → go passed rest = none →
      go passed' rest' = none) (passed : List Char) :
    tryFewest (fun _ => true) (fun passed s => (separator.isPrefixOf? s).bind (go passed))
        passed s =
      (splitFirst? separator s).bind fun x => go (passed ++ x.1) x.2 := by
  induction s generalizing passed with
  | nil =>
    obtain ⟨d, separator, rfl⟩ := List.exists_cons_of_ne_nil hne
    rfl
  | cons d s ih =>
    rw [tryFewest, splitFirst?]
    cases hfirst : separator.isPrefixOf? (d :: s) with
    | none =>
      rw [Option.bind_none]
      dsimp only
      rw [if_pos rfl, ih, Option.bind_map]
      congr 1
      funext x
      rw [List.append_assoc]
      rfl
    | some after =>
      rw [Option.bind_some]
      dsimp only
      rw [Option.bind_some, List.append_nil]
      cases hafter : go passed after with
      | some a => rfl
      | none =>
        dsimp only
        rw [if_pos rfl, ih, Option.bind_eq_none_iff]
        rintro ⟨before, later⟩ hlater
        refine hgo passed _ after later ?_ hafter
        have hwhole := append_of_isPrefixOf? hfirst
        have hsplit := eq_append_of_splitFirst? hlater
        have hafter : after <:+ d :: s := ⟨separator, hwhole.symm⟩
        have hlater : later <:+ d :: s := ⟨d :: (before ++ separator), by simp [hsplit]⟩
        refine List.suffix_of_suffix_length_le hlater hafter ?_
        have hlength := congrArg List.length hwhole
        have hlength' := congrArg List.length hsplit
        simp only [List.length_cons, List.length_append] at hlength hlength'
        have hpos := List.length_pos_iff.mpr hne
        omega

lemma try_fewest (number : Nat) {separator : List Char} (hne : separator ≠ []) (hgo : Lasting go) :
    (group number (fewest fun _ => true)).tryAt ((literal separator).tryAt go) c =
      (splitFirst? separator c.rest).bind fun x => go {
        passed := c.passed ++ x.1 ++ separator
        rest := x.2
        groups := c.groups ++ [(number, x.1)] } := by
  rw [tryAt, tryAt]
  simp only [try_literal]
  rw [tryFewest_eq hne fun passed passed' rest rest' hsuffix h => hgo _ _ hsuffix h]
  simp only [List.drop_left]

/-! ## The number -/

/-- A pattern that begins at the start of the text is searched for nowhere else. -/
lemma search_start (p : Text.Pattern) (s : List Char) :
    (seq start p).search s = p.tryAt (fun c => some c.groups) ⟨[], s, []⟩ := by
  have hnil : ([] : List Char) = [] := rfl
  have hfirst : ∀ rest, (seq start p).tryAt (fun c => some c.groups) ⟨[], rest, []⟩ =
      p.tryAt (fun c => some c.groups) ⟨[], rest, []⟩ := fun rest => by
    rw [tryAt, tryAt, if_pos hnil]
  have hlater : ∀ s passed, passed ≠ [] → (seq start p).searchFrom passed s = none := by
    intro s
    induction s with
    | nil => exact fun passed hne => if_neg hne
    | cons d s ih =>
      intro passed hne
      have hnone : (seq start p).tryAt (fun c => some c.groups) ⟨passed, d :: s, []⟩ = none :=
        if_neg hne
      rw [searchFrom, hnone]
      exact ih _ (by simp)
  unfold search
  cases s with
  | nil => rw [searchFrom, hfirst]
  | cons d s =>
    rw [searchFrom, hfirst, hlater s _ (by simp)]
    cases p.tryAt (fun c => some c.groups) ⟨[], d :: s, []⟩ <;> rfl

lemma try_id (go : Cursor → Option α) (s : List Char) :
    (literal opening).tryAt ((group 1 (oneOrMore isDigit)).tryAt ((literal afterId).tryAt go))
        ⟨[], s, []⟩ =
      (splitId? s).bind fun x => go ⟨opening ++ x.1 ++ afterId, x.2, [(1, x.1)]⟩ := by
  have hstops : StopsAt isDigit ((literal afterId).tryAt go) :=
    stopsAt_literal (by decide) ['|']
  rw [try_literal]
  unfold splitId?
  simp only [try_oneOrMore 1 hstops, Option.bind_eq_bind]
  cases opening.isPrefixOf? s with
  | none => rfl
  | some behind =>
    simp only [Option.bind_some]
    by_cases hnil : behind.takeWhile isDigit = []
    · rw [if_pos hnil]
      cases afterId.isPrefixOf? (behind.dropWhile isDigit) with
      | none => rfl
      | some rest => simp [hnil]
    · rw [if_neg hnil, try_literal]
      cases afterId.isPrefixOf? (behind.dropWhile isDigit) with
      | none => rfl
      | some rest => simp [hnil]

/-- The pattern for the number matches the comments that begin with one, and keeps its digits. -/
theorem search_idPrefix (s : List Char) :
    idPrefix.search s = (splitId? s).map fun x => [(1, x.1)] := by
  have hid : idPrefix = seq start (seq (literal opening)
      (seq (group 1 (oneOrMore isDigit)) (seq (literal afterId) (literal [])))) := rfl
  rw [hid, search_start]
  refine (try_id _ s).trans ?_
  cases splitId? s with
  | none => rfl
  | some x => rfl

/-! ## The whole header -/

lemma try_address (hfirst : s.head? = some ']') :
    (most (· ≠ ']')).tryAt ((literal s).tryAt go) c =
      (s.isPrefixOf? (splitAddress c.rest).2).bind fun rest => go { c with
        passed := c.passed ++ (splitAddress c.rest).1 ++ s, rest } := by
  obtain ⟨s, rfl⟩ := List.head?_eq_some_iff.mp hfirst
  rw [try_most (stopsAt_literal (by decide) s), try_literal]
  rfl

lemma try_login :
    (group 2 (oneOrMore fun c => c ≠ '|' ∧ c ≠ ']')).tryAt ((literal ['|']).tryAt go) c =
      (splitLogin? c.rest).bind fun x => go {
        passed := c.passed ++ x.1 ++ ['|']
        rest := x.2
        groups := c.groups ++ [(2, x.1)] } := by
  rw [try_oneOrMore 2 (stopsAt_literal (by decide) []), try_literal]
  unfold splitLogin?
  dsimp only
  generalize c.rest.takeWhile (fun c => decide (c ≠ '|' ∧ c ≠ ']')) = login
  generalize c.rest.dropWhile (fun c => decide (c ≠ '|' ∧ c ≠ ']')) = behind
  cases login with
  | nil => rfl
  | cons d login =>
    rw [if_neg (List.cons_ne_nil _ _)]
    cases behind with
    | nil => rfl
    | cons e rest =>
      by_cases he : e = '|'
      · subst he
        rfl
      · have hne : ('|' == e) = false := beq_eq_false_iff_ne.mpr (Ne.symm he)
        simp [List.isPrefixOf?, hne, he]

lemma isPrefixOf?_append_left (s t text : List Char) :
    (s ++ t).isPrefixOf? text = (s.isPrefixOf? text).bind t.isPrefixOf? := by
  induction s generalizing text with
  | nil => cases text <;> rfl
  | cons d s ih =>
    cases text with
    | nil => rfl
    | cons e text =>
      change (if (d == e) = true then (s ++ t).isPrefixOf? text else none) =
        (if (d == e) = true then s.isPrefixOf? text else none).bind t.isPrefixOf?
      rw [ih]
      split <;> rfl

lemma try_literal_append (s t : List Char) :
    (literal s).tryAt ((literal t).tryAt go) = (literal (s ++ t)).tryAt go := by
  funext c
  simp only [try_literal, isPrefixOf?_append_left, Option.bind_assoc, List.append_assoc]

lemma try_empty : (literal []).tryAt go = go := by
  have hprefix : ∀ s : List Char, [].isPrefixOf? s = some s := fun s => by cases s <;> rfl
  funext c
  rw [try_literal, hprefix, Option.bind_some, List.append_nil]

/-- The time up to the empty line, and the text. -/
def timeAndText : Text.Pattern :=
  inOrder [group 4 (fewest fun _ => true), literal beforeBody, group 5 (most fun _ => true), stop]

/-- The display name with what stands around it. -/
def nameInBrackets : Text.Pattern :=
  inOrder [literal beforeName, group 3 (fewest fun _ => true), literal [')']]

lemma try_timeAndText :
    timeAndText.tryAt (fun c => some c.groups) c =
      (splitFirst? beforeBody c.rest).map fun x => c.groups ++ [(4, x.1), (5, x.2)] := by
  have htext : ∀ c, (group 5 (most fun _ => true)).tryAt (stop.tryAt ((literal []).tryAt
      fun c => some c.groups)) c = some (c.groups ++ [(5, c.rest)]) := by
    intro c
    have htake : c.rest.takeWhile (fun _ => true) = c.rest :=
      List.takeWhile_eq_self_iff.mpr fun _ _ => rfl
    have hdrop : c.rest.dropWhile (fun _ => true) = [] :=
      List.dropWhile_eq_nil_iff.mpr fun _ _ => rfl
    rw [tryAt, try_most fun passed d rest groups _ => if_neg (List.cons_ne_nil d rest), htake,
      hdrop, tryAt, if_pos rfl, List.drop_left]
    rfl
  have hlasting : Lasting ((group 5 (most fun _ => true)).tryAt (stop.tryAt ((literal []).tryAt
      fun c => some c.groups))) := by
    intro c d _ h
    rw [htext] at h
    cases h
  refine (try_fewest 4 (by decide) hlasting).trans ?_
  rw [Option.map_eq_bind]
  refine Option.bind_congr fun x _ => ?_
  rw [htext, List.append_assoc]
  rfl

/-- The display name, if there is one, the time and the text. -/
lemma try_name :
    (maybe nameInBrackets).tryAt ((literal beforeTime).tryAt
        (timeAndText.tryAt fun c => some c.groups)) c =
      (splitName? c.rest).bind fun x => (splitFirst? beforeBody x.2).map fun y =>
        c.groups ++ x.1.toList.map (Prod.mk 3) ++ [(4, y.1), (5, y.2)] := by
  have hlasting : Lasting (timeAndText.tryAt fun c => some c.groups) := by
    intro c d hsuffix h
    rw [try_timeAndText, Option.map_eq_none_iff] at h ⊢
    exact splitFirst?_suffix hsuffix h
  have hnamed : nameInBrackets.tryAt ((literal beforeTime).tryAt
      (timeAndText.tryAt fun c => some c.groups)) c =
        (beforeName.isPrefixOf? c.rest).bind fun rest => (splitFirst? afterName rest).bind fun x =>
          (splitFirst? beforeBody x.2).map fun y =>
            c.groups ++ [(3, x.1)] ++ [(4, y.1), (5, y.2)] := by
    change (literal beforeName).tryAt ((group 3 (fewest fun _ => true)).tryAt
      ((literal [')']).tryAt ((literal []).tryAt ((literal beforeTime).tryAt
        (timeAndText.tryAt fun c => some c.groups))))) c = _
    rw [try_empty, try_literal_append, try_literal]
    refine Option.bind_congr fun rest _ => ?_
    refine (try_fewest 3 (by decide) hlasting).trans (Option.bind_congr fun x _ => ?_)
    rw [try_timeAndText]
  have hunnamed : (literal beforeTime).tryAt (timeAndText.tryAt fun c => some c.groups) c =
      (beforeTime.isPrefixOf? c.rest).bind fun rest => (splitFirst? beforeBody rest).map fun y =>
        c.groups ++ [(4, y.1), (5, y.2)] := by
    rw [try_literal]
    refine Option.bind_congr fun rest _ => ?_
    rw [try_timeAndText]
  rw [tryAt, hnamed, hunnamed]
  unfold splitName?
  cases hname : beforeName.isPrefixOf? c.rest with
  | some rest =>
    -- a blank and a parenthesis are not the words in front of a time
    have htime : beforeTime.isPrefixOf? c.rest = none := by
      rw [append_of_isPrefixOf? hname]
      rfl
    rw [htime, Option.bind_some, Option.bind_map]
    dsimp only
    rw [Option.bind_none]
    cases splitFirst? afterName rest with
    | none => rfl
    | some x =>
      dsimp only [Option.bind_some, Function.comp_apply]
      cases splitFirst? beforeBody x.2 <;> rfl
  | none =>
    dsimp only [Option.bind_none]
    rw [Option.bind_map]
    refine Option.bind_congr fun rest _ => ?_
    simp

/-- The groups of a header and the text after it. -/
def groupsOf (p : Parts) (text : List Char) : List (Nat × List Char) :=
  [(1, p.digits), (2, p.login)] ++ p.name.toList.map (Prod.mk 3) ++ [(4, p.time), (5, text)]

/-- The pattern for the whole comment matches the comments that can be taken apart, and its groups
are their parts. -/
theorem search_fullHeader (s : List Char) :
    fullHeader.search s = (split? s).map fun x => groupsOf x.1 x.2 := by
  have hfull : fullHeader = seq start (seq (literal opening)
      (seq (group 1 (oneOrMore isDigit)) (seq (literal afterId) (seq (most (· ≠ ']'))
        (seq (literal beforeLogin) (seq (group 2 (oneOrMore fun c => c ≠ '|' ∧ c ≠ ']'))
          (seq (literal ['|']) (seq (most (· ≠ ']')) (seq (literal [']'])
            (seq (maybe nameInBrackets) (seq (literal beforeTime) timeAndText))))))))))) := rfl
  rw [hfull, search_start]
  refine (try_id _ s).trans ?_
  unfold split?
  simp only [Option.bind_eq_bind, Option.map_bind, Function.comp_def]
  refine Option.bind_congr fun x _ => ?_
  refine (try_address rfl).trans (Option.bind_congr fun rest _ => ?_)
  refine try_login.trans (Option.bind_congr fun y _ => ?_)
  refine (try_address rfl).trans (Option.bind_congr fun rest _ => ?_)
  refine try_name.trans (Option.bind_congr fun z _ => ?_)
  cases splitFirst? beforeBody z.2 <;> rfl

end IssueBridge.Proofs
