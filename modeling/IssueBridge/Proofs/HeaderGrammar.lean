import IssueBridge.Proofs.HeaderRoundTrip
import Mathlib.Data.List.TakeWhile

/-!
# The grammar of headers

A comment is read exactly if it is made up of the parts of a header and a text, and it is made up of
such parts in one way only. The number in front is read alone by the same rule, so the two readings
never disagree.
-/

namespace IssueBridge.Proofs

open Header

variable {s digits login rest text : List Char} {p : Parts} {body : String}

/-! ## Parts -/

/-- What stands before the first occurrence of a separator does not contain it. -/
lemma not_infix_of_splitFirst? {separator before after : List Char} (hne : separator ≠ [])
    (h : Text.splitFirst? separator s = some (before, after)) : ¬separator <:+: before := by
  induction s generalizing before with
  | nil =>
    unfold Text.splitFirst? at h
    rw [if_neg (by simpa using hne)] at h
    cases h
  | cons c s ih =>
    have hwhole := Text.eq_append_of_splitFirst? h
    unfold Text.splitFirst? at h
    cases hinitial : separator.isPrefixOf? (c :: s) with
    | some tail =>
      rw [hinitial] at h
      obtain ⟨rfl, -⟩ := Prod.mk.inj (Option.some.inj h)
      simpa using hne
    | none =>
      rw [hinitial] at h
      obtain ⟨⟨b, a⟩, hsplit, hpair⟩ := Option.map_eq_some_iff.mp h
      obtain ⟨rfl, rfl⟩ := Prod.mk.inj hpair
      rw [List.infix_cons_iff]
      rintro (⟨tail, htail⟩ | hinfix)
      · -- the separator would have been found in front
        rw [← htail, List.append_assoc, List.append_assoc] at hwhole
        rw [hwhole, isPrefixOf?_append] at hinitial
        cases hinitial
      · exact ih hsplit hinfix

lemma splitId?_eq_some_iff :
    splitId? s = some (digits, rest) ↔
      s = opening ++ (digits ++ (afterId ++ rest)) ∧ digits ≠ [] ∧
        ∀ c ∈ digits, Text.isDigit c = true := by
  constructor
  · intro h
    obtain ⟨behind, hopening, h⟩ := Option.bind_eq_some_iff.mp h
    obtain ⟨rest', hafter, h⟩ := Option.bind_eq_some_iff.mp h
    by_cases hnil : behind.takeWhile Text.isDigit = []
    · rw [if_pos hnil] at h
      cases h
    · rw [if_neg hnil] at h
      obtain ⟨rfl, rfl⟩ := Prod.mk.inj (Option.some.inj h)
      refine ⟨?_, hnil, List.all_eq_true.mp List.all_takeWhile⟩
      rw [← Text.append_of_isPrefixOf? hafter, List.takeWhile_append_dropWhile]
      exact Text.append_of_isPrefixOf? hopening
  · rintro ⟨rfl, hne, hdigits⟩
    exact splitId?_append rest hne hdigits

lemma address_of_splitAddress {address : List Char} (h : splitAddress s = (address, rest)) :
    s = address ++ rest ∧ ']' ∉ address := by
  obtain ⟨rfl, rfl⟩ := Prod.mk.inj h
  refine ⟨List.takeWhile_append_dropWhile.symm, fun hbracket => ?_⟩
  simpa using List.mem_takeWhile_imp hbracket

lemma login_of_splitLogin? (h : splitLogin? s = some (login, rest)) :
    s = login ++ '|' :: rest ∧ login ≠ [] ∧ '|' ∉ login ∧ ']' ∉ login := by
  have hwhole := List.takeWhile_append_dropWhile (p := fun c => decide (c ≠ '|' ∧ c ≠ ']')) (l := s)
  unfold splitLogin? at h
  dsimp only at h
  split at h
  · rename_i c front behind hfront hbehind
    obtain ⟨rfl, rfl⟩ := Prod.mk.inj (Option.some.inj h)
    rw [hbehind] at hwhole
    have hfree : ∀ d ∈ s.takeWhile fun c => decide (c ≠ '|' ∧ c ≠ ']'), d ≠ '|' ∧ d ≠ ']' :=
      fun d hd => by simpa using List.mem_takeWhile_imp hd
    refine ⟨hwhole.symm, ?_, fun hbar => (hfree _ hbar).1 rfl, fun hclose => (hfree _ hclose).2 rfl⟩
    rw [hfront]
    exact List.cons_ne_nil c front
  · cases h

lemma name_of_splitName? (h : splitName? s = some (p.name, rest)) :
    s = p.nameText ++ rest ∧ ∀ name, p.name = some name → ¬afterName <:+: name := by
  unfold splitName? at h
  unfold Parts.nameText
  cases hopen : beforeName.isPrefixOf? s with
  | some behind =>
    rw [hopen] at h
    obtain ⟨⟨shown, tail⟩, hsplit, hpair⟩ := Option.map_eq_some_iff.mp h
    obtain ⟨hname, rfl⟩ := Prod.mk.inj hpair
    rw [← hname]
    dsimp only
    refine ⟨?_, fun _ heq => ?_⟩
    · rw [Text.append_of_isPrefixOf? hopen, Text.eq_append_of_splitFirst? hsplit]
      simp only [List.append_assoc]
    · obtain rfl := Option.some.inj heq
      exact not_infix_of_splitFirst? (by decide) hsplit
  | none =>
    rw [hopen] at h
    obtain ⟨behind, hbehind, hpair⟩ := Option.map_eq_some_iff.mp h
    obtain ⟨hname, rfl⟩ := Prod.mk.inj hpair
    rw [← hname]
    exact ⟨Text.append_of_isPrefixOf? hbehind, fun _ heq => by cases heq⟩

/-! ## Whole headers -/

/-- A header is taken apart exactly into the parts that it is made up of. -/
theorem split?_eq_some_iff : split? s = some (p, text) ↔ s = p.render ++ text ∧ Separable p := by
  constructor
  · intro h
    unfold split? at h
    obtain ⟨⟨digits, s₁⟩, hid, h⟩ := Option.bind_eq_some_iff.mp h
    dsimp only at h
    rcases hcomment : splitAddress s₁ with ⟨commentUrl, s₂⟩
    rw [hcomment] at h
    obtain ⟨s₃, hopen, h⟩ := Option.bind_eq_some_iff.mp h
    obtain ⟨⟨login, s₄⟩, hlogin, h⟩ := Option.bind_eq_some_iff.mp h
    dsimp only at h
    rcases huser : splitAddress s₄ with ⟨userUrl, s₅⟩
    rw [huser] at h
    obtain ⟨s₆, hclose, h⟩ := Option.bind_eq_some_iff.mp h
    obtain ⟨⟨name, s₇⟩, hname, h⟩ := Option.bind_eq_some_iff.mp h
    obtain ⟨⟨time, body⟩, htime, h⟩ := Option.bind_eq_some_iff.mp h
    obtain ⟨rfl, rfl⟩ := Prod.mk.inj (Option.some.inj h)
    obtain ⟨rfl, hdigits⟩ := splitId?_eq_some_iff.mp hid
    obtain ⟨rfl, hcommentUrl⟩ := address_of_splitAddress hcomment
    obtain rfl := Text.append_of_isPrefixOf? hopen
    obtain ⟨rfl, hfree⟩ := login_of_splitLogin? hlogin
    obtain ⟨rfl, huserUrl⟩ := address_of_splitAddress huser
    obtain rfl := Text.append_of_isPrefixOf? hclose
    obtain ⟨rfl, hshown⟩ :=
      name_of_splitName? (p := ⟨digits, commentUrl, login, userUrl, name, time⟩) hname
    obtain rfl := Text.eq_append_of_splitFirst? htime
    refine ⟨?_, ⟨hdigits, hcommentUrl, hfree, huserUrl, hshown,
      not_infix_of_splitFirst? (by decide) htime⟩⟩
    rw [render_append]
    simp only [List.append_assoc]
    rfl
  · rintro ⟨rfl, hseparable⟩
    exact split?_render p hseparable text

/-! ## Numbers -/

/-- Digits that are the decimal form of an identifier: all of them are ASCII, and the number is not
too large. -/
def Denotes (digits : List Char) : Prop :=
  (∀ c ∈ digits, c.isDigit = true) ∧ Nat.ofDigitChars 10 digits 0 ≤ Int64.maxValue.toInt

def numberOf (digits : List Char) : Int64 :=
  Int64.ofNat (Nat.ofDigitChars 10 digits 0)

lemma int64_bounds : Int64.minValue.toInt = -9223372036854775808 ∧
    Int64.maxValue.toInt = 9223372036854775807 := by
  decide

lemma toInt?_of_digits (hdigits : ∀ c ∈ digits, Text.isDigit c = true) :
    Decimal.toInt? digits = (Decimal.toNat? digits).map Int.ofNat := by
  have hsigns : Text.isDigit '-' = false ∧ Text.isDigit '+' = false := by decide
  unfold Decimal.toInt?
  split
  · simp [hsigns.1] at hdigits
  · simp [hsigns.2] at hdigits
  · rfl

lemma toNat?_of_ascii (hne : digits ≠ []) (hascii : ∀ c ∈ digits, c.isDigit = true) :
    Decimal.toNat? digits = some (Nat.ofDigitChars 10 digits 0) :=
  if_pos ⟨hne, List.all_eq_true.mpr hascii⟩

lemma idOf_of_denotes (hne : digits ≠ []) (hdigits : ∀ c ∈ digits, Text.isDigit c = true)
    (hdenotes : Denotes digits) : idOf digits = .ok (numberOf digits) := by
  have hsmall := hdenotes.2
  unfold idOf Decimal.toInt64?
  rw [int64_bounds.2] at hsmall
  rw [toInt?_of_digits hdigits, toNat?_of_ascii hne hdenotes.1, int64_bounds.1, int64_bounds.2]
  simp only [Option.map_some, Int.ofNat_eq_natCast]
  rw [if_pos (by omega)]
  rfl

lemma idOf_of_not_denotes (hne : digits ≠ []) (hdigits : ∀ c ∈ digits, Text.isDigit c = true)
    (hdenotes : ¬Denotes digits) : idOf digits = .error (.invalidId (String.ofList digits)) := by
  unfold idOf Decimal.toInt64?
  rw [toInt?_of_digits hdigits, int64_bounds.1, int64_bounds.2]
  by_cases hascii : ∀ c ∈ digits, c.isDigit = true
  · have hlarge : ¬Nat.ofDigitChars 10 digits 0 ≤ Int64.maxValue.toInt :=
      fun h => hdenotes ⟨hascii, h⟩
    rw [int64_bounds.2] at hlarge
    rw [toNat?_of_ascii hne hascii]
    simp only [Option.map_some, Int.ofNat_eq_natCast]
    rw [if_neg (by omega)]
  · have hnone : Decimal.toNat? digits = none :=
      if_neg fun h => hascii (List.all_eq_true.mp h.2)
    rw [hnone]
    rfl

lemma nonneg_numberOf (h : Denotes digits) : 0 ≤ numberOf digits := by
  have hsmall := h.2
  rw [int64_bounds.2] at hsmall
  rw [Int64.le_iff_toInt_le]
  unfold numberOf
  rw [Int64.toInt_ofNat_of_lt (by omega)]
  exact Int.natCast_nonneg _

/-! ## Both readings -/

/-- A comment consists of the parts of a header, none of which contains what ends it, and a text. -/
def Composed (body : String) (p : Parts) (text : List Char) : Prop :=
  body.toList = p.render ++ text ∧ Separable p

/-- A comment begins with a number in decimal digits of any script. -/
def Opened (body : String) (digits rest : List Char) : Prop :=
  body.toList = opening ++ (digits ++ (afterId ++ rest)) ∧ digits ≠ [] ∧
    ∀ c ∈ digits, Text.isDigit c = true

/-- What the parts of a header say. -/
def headed (p : Parts) (text : List Char) : HeadedComment :=
  { id := numberOf p.digits
    login := String.ofList p.login
    shownName := p.name.map String.ofList
    timestamp := String.ofList p.time
    body := String.ofList text }

/-- What is made up in some way is read, and rejected if its digits do not fit; nothing else is. -/
structure ReadAs {ι α : Type} (made : ι → Prop) (digits : ι → List Char) (value : ι → α)
    (r : Except HeaderError (Option α)) : Prop where
  read : ∀ a, r = .ok (some a) ↔ ∃ i, made i ∧ Denotes (digits i) ∧ a = value i
  rejected : ∀ e, r = .error e ↔
    ∃ i, made i ∧ ¬Denotes (digits i) ∧ e = .invalidId (String.ofList (digits i))
  unread : r = .ok none ↔ ∀ i, ¬made i

lemma readAs_of_cases {ι α : Type} {made : ι → Prop} {digits : ι → List Char} {value : ι → α}
    {r : Except HeaderError (Option α)}
    (hread : ∀ i, made i → Denotes (digits i) → r = .ok (some (value i)))
    (hrejected : ∀ i, made i → ¬Denotes (digits i) →
      r = .error (.invalidId (String.ofList (digits i))))
    (hunread : (∀ i, ¬made i) → r = .ok none) : ReadAs made digits value r := by
  have hcases : (∃ i, made i ∧ Denotes (digits i)) ∨ (∃ i, made i ∧ ¬Denotes (digits i)) ∨
      ∀ i, ¬made i := by
    by_cases hmade : ∃ i, made i
    · obtain ⟨i, hi⟩ := hmade
      by_cases hdenotes : Denotes (digits i)
      · exact Or.inl ⟨i, hi, hdenotes⟩
      · exact Or.inr (Or.inl ⟨i, hi, hdenotes⟩)
    · exact Or.inr (Or.inr fun i hi => hmade ⟨i, hi⟩)
  refine ⟨fun a => ⟨fun h => ?_, ?_⟩, fun e => ⟨fun h => ?_, ?_⟩, ⟨fun h i hi => ?_, hunread⟩⟩
  · rcases hcases with ⟨i, hi, hdenotes⟩ | ⟨i, hi, hdenotes⟩ | hnone
    · rw [hread i hi hdenotes] at h
      exact ⟨i, hi, hdenotes, (Option.some.inj (Except.ok.inj h)).symm⟩
    · rw [hrejected i hi hdenotes] at h
      cases h
    · rw [hunread hnone] at h
      cases h
  · rintro ⟨i, hi, hdenotes, rfl⟩
    exact hread i hi hdenotes
  · rcases hcases with ⟨i, hi, hdenotes⟩ | ⟨i, hi, hdenotes⟩ | hnone
    · rw [hread i hi hdenotes] at h
      cases h
    · rw [hrejected i hi hdenotes] at h
      exact ⟨i, hi, hdenotes, (Except.error.inj h).symm⟩
    · rw [hunread hnone] at h
      cases h
  · rintro ⟨i, hi, hdenotes, rfl⟩
    exact hrejected i hi hdenotes
  · by_cases hdenotes : Denotes (digits i)
    · rw [hread i hi hdenotes] at h
      cases h
    · rw [hrejected i hi hdenotes] at h
      cases h

lemma splitId?_eq_none (h : ∀ digits rest, ¬Opened body digits rest) :
    splitId? body.toList = none := by
  rw [Option.eq_none_iff_forall_ne_some]
  exact fun x hx => h x.1 x.2 (splitId?_eq_some_iff.mp hx)

lemma id?_readAs (body : String) :
    ReadAs (fun x : List Char × List Char => Opened body x.1 x.2) (fun x => x.1)
      (fun x => numberOf x.1) (id? body) := by
  have hopened : ∀ digits rest, Opened body digits rest → id? body = (idOf digits).map some := by
    intro digits rest h
    unfold id?
    rw [splitId?_eq_some_iff.mpr h]
  refine readAs_of_cases (fun ⟨digits, rest⟩ h hdenotes => ?_) (fun ⟨digits, rest⟩ h hdenotes => ?_)
    fun h => ?_
  · rw [hopened digits rest h, idOf_of_denotes h.2.1 h.2.2 hdenotes]
    rfl
  · rw [hopened digits rest h, idOf_of_not_denotes h.2.1 h.2.2 hdenotes]
    rfl
  · unfold id?
    rw [splitId?_eq_none fun digits rest => h (digits, rest)]

lemma parse?_readAs (body : String) :
    ReadAs (fun x : Parts × List Char => Composed body x.1 x.2) (fun x => x.1.digits)
      (fun x => headed x.1 x.2) (parse? body) := by
  have hcomposed : ∀ p text, Composed body p text →
      parse? body = (idOf p.digits).map fun id => some { headed p text with id } := by
    intro p text h
    unfold parse?
    rw [split?_eq_some_iff.mpr h]
    rfl
  refine readAs_of_cases (fun ⟨p, text⟩ h hdenotes => ?_) (fun ⟨p, text⟩ h hdenotes => ?_)
    fun h => ?_
  · rw [hcomposed p text h, idOf_of_denotes h.2.digits.1 h.2.digits.2 hdenotes]
    rfl
  · rw [hcomposed p text h, idOf_of_not_denotes h.2.digits.1 h.2.digits.2 hdenotes]
    rfl
  · have hnone : split? body.toList = none := by
      rw [Option.eq_none_iff_forall_ne_some]
      exact fun x hx => h x (split?_eq_some_iff.mp hx)
    unfold parse?
    rw [hnone]

lemma opened_of_composed (h : Composed body p text) : ∃ rest, Opened body p.digits rest :=
  ⟨_, h.1.trans (render_append p text), h.2.digits⟩

/-- A comment that is read in full has its number read alone. -/
lemma id?_of_parse? {found : HeadedComment} (h : parse? body = .ok (some found)) :
    id? body = .ok (some found.id) := by
  obtain ⟨⟨p, text⟩, hcomposed, hdenotes, rfl⟩ := ((parse?_readAs body).read _).mp h
  obtain ⟨rest, hopened⟩ := opened_of_composed hcomposed
  exact ((id?_readAs body).read _).mpr ⟨(p.digits, rest), hopened, hdenotes, rfl⟩

lemma id?_of_parse?_error {e : HeaderError} (h : parse? body = .error e) :
    id? body = .error e := by
  obtain ⟨⟨p, text⟩, hcomposed, hdenotes, rfl⟩ := ((parse?_readAs body).rejected _).mp h
  obtain ⟨rest, hopened⟩ := opened_of_composed hcomposed
  exact ((id?_readAs body).rejected _).mpr ⟨(p.digits, rest), hopened, hdenotes, rfl⟩

lemma begins_iff (body : String) :
    begins body = true ↔ ∃ digits rest, Opened body digits rest := by
  unfold begins
  rw [Option.isSome_iff_exists]
  constructor
  · rintro ⟨⟨digits, rest⟩, h⟩
    exact ⟨digits, rest, splitId?_eq_some_iff.mp h⟩
  · rintro ⟨digits, rest, h⟩
    exact ⟨(digits, rest), splitId?_eq_some_iff.mpr h⟩

/-- A comment can be taken apart in one way only. Both readings accept exactly their grammar, by one
rule for the number, and the number of the whole header is the one in front. -/
theorem headers_read_exactly (body : String) :
    (∀ p p' text text', Composed body p text → Composed body p' text' → p = p' ∧ text = text') ∧
      ReadAs (fun x : Parts × List Char => Composed body x.1 x.2) (fun x => x.1.digits)
        (fun x => headed x.1 x.2) (parse? body) ∧
      ReadAs (fun x : List Char × List Char => Opened body x.1 x.2) (fun x => x.1)
        (fun x => numberOf x.1) (id? body) ∧
      (begins body = true ↔ ∃ digits rest, Opened body digits rest) ∧
      (∀ found, parse? body = .ok (some found) → id? body = .ok (some found.id)) ∧
      ∀ e, parse? body = .error e → id? body = .error e := by
  refine ⟨fun p p' text text' h h' => ?_, parse?_readAs body, id?_readAs body, begins_iff body,
    fun _ => id?_of_parse?, fun _ => id?_of_parse?_error⟩
  have hsplit := split?_eq_some_iff.mpr h
  rw [split?_eq_some_iff.mpr h'] at hsplit
  obtain ⟨hparts, htext⟩ := Prod.mk.inj (Option.some.inj hsplit)
  exact ⟨hparts.symm, htext.symm⟩

-- an Arabic digit opens a header, but is no number
example : id? "Comment [(ID ٣)|" = .error (.invalidId "٣") := rfl

end IssueBridge.Proofs
