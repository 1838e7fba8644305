import IssueBridge.Cutoff.Basic
import IssueBridge.Proofs.InstantRoundTrip

/-!
# Cutoffs read back

A timestamp holds no character that a string would escape, so the cutoff reads back from the text
in which it is kept.
-/

namespace IssueBridge.Proofs

open Instant Json

/-- A character that stands for itself in a string. -/
def Plain (c : Char) : Prop :=
  c ≠ '"' ∧ c ≠ '\\' ∧ 0x20 ≤ c.toNat

instance (c : Char) : Decidable (Plain c) :=
  inferInstanceAs (Decidable (_ ∧ _))

lemma escape_plain {c : Char} (h : Plain c) : Printer.escape c = [c] := by
  obtain ⟨hquote, hslash, hspace⟩ := h
  have hcontrol : ∀ d : Char, d.toNat < 0x20 → c ≠ d := by
    intro d hd heq
    rw [heq] at hspace
    omega
  unfold Printer.escape
  rw [if_neg hquote, if_neg hslash, if_neg (hcontrol _ (by decide)),
    if_neg (hcontrol _ (by decide)), if_neg (hcontrol _ (by decide)),
    if_neg (hcontrol _ (by decide)), if_neg (hcontrol _ (by decide)), if_neg (by omega)]

lemma quoted_plain {s : String} (h : ∀ c ∈ s.toList, Plain c) :
    Printer.quoted s = '"' :: (s.toList ++ ['"']) := by
  have hescape : ∀ l : List Char, (∀ c ∈ l, Plain c) → l.flatMap Printer.escape = l := by
    intro l hl
    induction l with
    | nil => rfl
    | cons c l ih =>
      rw [List.forall_mem_cons] at hl
      rw [List.flatMap_cons, escape_plain hl.1, ih hl.2, List.singleton_append]
  unfold Printer.quoted
  rw [hescape _ h]

lemma string_plain (lenient : Bool) {l : List Char} (done : List Char) (rest : List (Option Char))
    (h : ∀ c ∈ l, Plain c) :
    Reader.string lenient done (l.map some ++ some '"' :: rest) =
      some (String.ofList (done.reverse ++ l), rest) := by
  induction l generalizing done with
  | nil => rw [List.map_nil, List.nil_append, Reader.string, List.append_nil]
  | cons c l ih =>
    rw [List.forall_mem_cons] at h
    obtain ⟨⟨hquote, hslash, hspace⟩, hrest⟩ := h
    rw [List.map_cons, List.cons_append, Reader.string.eq_5 _ _ _ _ hquote
      (fun _ _ _ _ _ _ _ _ _ _ heq => hslash heq) (fun _ _ _ _ _ _ heq => hslash heq)
      (fun _ _ _ heq => hslash heq)]
    have hplain : ¬(c.toNat < 0x20 ∨ c = '\\') := not_or.mpr ⟨by omega, hslash⟩
    rw [if_neg hplain, ih _ hrest, List.reverse_cons, List.append_assoc, List.singleton_append]

lemma value_plain (fuel : Nat) (want : Option Want) (depth : Nat) {l : List Char}
    (rest : List (Option Char)) (h : ∀ c ∈ l, Plain c) :
    Reader.value (fuel + 1) want depth (some ' ' :: some '"' :: (l.map some ++ some '"' :: rest)) =
      some (.str (String.ofList l), rest) := by
  have hskip : ∀ s, Reader.skipSpace (some ' ' :: some '"' :: s) = some '"' :: s := fun _ => rfl
  rw [Reader.value, hskip]
  simp only [string_plain _ [] rest h, List.reverse_nil, List.nil_append, Option.map_some]

lemma members_plain (fuel : Nat) (want : Option Want) (depth : Nat) {k l : List Char}
    (rest : List (Option Char)) (hk : ∀ c ∈ k, Plain c) (hl : ∀ c ∈ l, Plain c) :
    Reader.members (fuel + 2) want depth []
      (some '\n' :: some ' ' :: some ' ' :: some '"' :: (k.map some ++ some '"' :: some ':' ::
        some ' ' :: some '"' :: (l.map some ++ some '"' :: some '\n' :: some '\x7d' :: rest))) =
      some ([(String.ofList k, .str (String.ofList l))], rest) := by
  have hskip : ∀ s, Reader.skipSpace (some '\n' :: some ' ' :: some ' ' :: some '"' :: s) =
      some '"' :: s := fun _ => rfl
  have hcolon : ∀ s, Reader.skipSpace (some ':' :: s) = some ':' :: s := fun _ => rfl
  have hbrace : Reader.skipSpace (some '\n' :: some '\x7d' :: rest) = some '\x7d' :: rest := rfl
  rw [Reader.members, hskip]
  simp only [string_plain _ [] _ hk, List.reverse_nil, List.nil_append, hcolon,
    value_plain fuel _ depth _ hl, hbrace, List.reverse_cons]

/-- An object with one string reads back from its indented text, whatever is wanted of it. -/
lemma parse?_pretty (want : Want) {key s : String} (hkey : ∀ c ∈ key.toList, Plain c)
    (hs : ∀ c ∈ s.toList, Plain c) :
    parse? want (pretty (.obj [(key, .str s)])) = some (.obj [(key, .str s)]) := by
  have htext : (RawText.ofString (pretty (.obj [(key, .str s)]))).chars =
      some '\x7b' :: some '\n' :: some ' ' :: some ' ' :: some '"' ::
        (key.toList.map some ++ some '"' :: some ':' :: some ' ' :: some '"' ::
          (s.toList.map some ++ some '"' :: some '\n' :: some '\x7d' :: [])) := by
    unfold RawText.ofString pretty
    rw [String.toList_ofList]
    simp [Printer.indented, Printer.indentedMembers, Printer.lineEnd, Printer.scalar,
      quoted_plain hkey, quoted_plain hs]
  have hopen : ∀ l, Reader.skipSpace (some '\x7b' :: l) = some '\x7b' :: l := fun _ => rfl
  have hskip : ∀ l, Reader.skipSpace (some '\n' :: some ' ' :: some ' ' :: some '"' :: l) =
      some '"' :: l := fun _ => rfl
  have hnests : Reader.nests (some want) 0 = true := rfl
  unfold parse?
  simp only
  rw [htext]
  -- An object takes a unit of fuel for itself, and so do its members and their values.
  obtain ⟨fuel, hfuel⟩ : ∃ fuel, 2 * (some '\x7b' :: some '\n' :: some ' ' :: some ' ' ::
      some '"' :: (key.toList.map some ++ some '"' :: some ':' :: some ' ' :: some '"' ::
        (s.toList.map some ++ some '"' :: some '\n' :: some '\x7d' :: []))).length + 2 =
      fuel + 3 := ⟨_, rfl⟩
  rw [hfuel, Reader.value, hopen]
  simp only [hnests, if_true, hskip, members_plain fuel _ _ [] hkey hs, String.ofList_toList,
    Option.map_some]
  rfl

lemma plain_of_isDigit {c : Char} (h : c.isDigit = true) : Plain c := by
  refine ⟨?_, ?_, ?_⟩
  · rintro rfl
    exact absurd h (by decide)
  · rintro rfl
    exact absurd h (by decide)
  · simp only [Char.isDigit, Bool.and_eq_true, decide_eq_true_eq, UInt32.le_iff_toNat_le] at h
    have hlow : 48 ≤ c.toNat := h.1
    omega

lemma plain_padded (width n : Nat) : ∀ c ∈ Decimal.padded width n, Plain c :=
  fun c hc => plain_of_isDigit (isDigit_padded c hc)

lemma plain_append {s t : List Char} (hs : ∀ c ∈ s, Plain c) (ht : ∀ c ∈ t, Plain c) :
    ∀ c ∈ s ++ t, Plain c :=
  List.forall_mem_append.mpr ⟨hs, ht⟩

lemma plain_cons {c : Char} {s : List Char} (hc : Plain c) (hs : ∀ c ∈ s, Plain c) :
    ∀ d ∈ c :: s, Plain d :=
  List.forall_mem_cons.mpr ⟨hc, hs⟩

lemma plain_yearText (y : Int) : ∀ c ∈ yearText y, Plain c := by
  unfold yearText
  split_ifs
  · exact plain_padded _ _
  · exact plain_cons (by decide) (plain_padded _ _)
  · exact plain_cons (by decide) (plain_padded _ _)

lemma plain_dateText (d : Date) : ∀ c ∈ dateText d, Plain c := by
  unfold dateText
  apply plain_append
  · apply plain_append (plain_yearText _)
    exact plain_cons (by decide) (plain_padded _ _)
  · exact plain_cons (by decide) (plain_padded _ _)

lemma plain_clockText (t : Civil) : ∀ c ∈ clockText t, Plain c := by
  unfold clockText
  apply plain_append
  · apply plain_append (plain_padded _ _)
    exact plain_cons (by decide) (plain_padded _ _)
  · exact plain_cons (by decide) (plain_padded _ _)

lemma plain_fractionText (n : Nat) : ∀ c ∈ fractionText n, Plain c := by
  unfold fractionText
  split_ifs
  · exact List.forall_mem_nil _
  · exact plain_cons (by decide) (plain_padded _ _)
  · exact plain_cons (by decide) (plain_padded _ _)
  · exact plain_cons (by decide) (plain_padded _ _)

lemma plain_rfc3339 (t : Instant) : ∀ c ∈ t.rfc3339.toList, Plain c := by
  unfold rfc3339 rfc3339Chars
  rw [String.toList_ofList]
  apply plain_append
  · apply plain_append
    · apply plain_append (plain_dateText _)
      exact plain_cons (by decide) (plain_clockText _)
    · exact plain_fractionText _
  · exact plain_cons (by decide) (List.forall_mem_nil _)

/-- A cutoff reads back from the text in which it is kept. -/
theorem ofText?_text (t : Instant) : Cutoff.ofText? (Cutoff.text ⟨some t⟩) = some ⟨some t⟩ := by
  have hall : "since".toList.all (fun c => decide (Plain c)) = true := by decide
  have hkey : ∀ c ∈ "since".toList, Plain c :=
    fun c hc => of_decide_eq_true (List.all_eq_true.mp hall c hc)
  have hparse : parse? Cutoff.form.want (Cutoff.text ⟨some t⟩) =
      some (.obj [("since", .str t.rfc3339)]) :=
    parse?_pretty _ hkey (plain_rfc3339 t)
  have hfield : (Record.named [("since", Json.str t.rfc3339)]).field? "since" 0 =
      some (some (.str t.rfc3339)) := rfl
  unfold Cutoff.ofText? Form.read?
  rw [hparse, Option.bind_some]
  unfold Cutoff.form Cutoff.ofJson? record? Record.optional
  simp only [Option.bind_eq_bind, Option.bind_some, hfield, str?, ofTimestamp?_rfc3339]

end IssueBridge.Proofs
