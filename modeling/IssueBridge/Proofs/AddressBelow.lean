import IssueBridge.Http.Url
import IssueBridge.Proofs.HeaderRoundTrip
import IssueBridge.Proofs.PercentRoundTrip
import Mathlib.Data.List.TakeWhile

/-!
# Addresses below an address

An address with a path and a query put behind it names the same site. Its path ends in the one that
was put there, and its query is the one that was put there.
-/

namespace IssueBridge.Http.Url

/-! ## Characters -/

/-- A visible character that has no meaning in a path and needs no escape. -/
def isOrdinary (c : Char) : Bool :=
  0x20 < c.toNat && c.toNat < 0x7F && !" \"#<>'\x60\x7b\x7d?/\\".toList.contains c

lemma toNat_lt_of_isUnreserved {c : Char} (h : Percent.isUnreserved c = true) :
    c.toNat < 0x7F := by
  simp only [Percent.isUnreserved, Bool.or_eq_true, beq_iff_eq] at h
  rcases h with (((h | rfl) | rfl) | rfl) | rfl
  · change ((decide (65 ≤ c.val ∧ c.val ≤ 90) || decide (97 ≤ c.val) && decide (c.val ≤ 122)) ||
      decide (48 ≤ c.val) && decide (c.val ≤ 57)) = true at h
    simp only [Bool.or_eq_true, Bool.and_eq_true, decide_eq_true_eq, UInt32.le_iff_toNat_le] at h
    change ((65 ≤ c.toNat ∧ c.toNat ≤ 90) ∨ (97 ≤ c.toNat ∧ c.toNat ≤ 122)) ∨
      (48 ≤ c.toNat ∧ c.toNat ≤ 57) at h
    omega
  all_goals decide

lemma isOrdinary_of_isUnreserved {c : Char} (h : Percent.isUnreserved c = true) :
    isOrdinary c = true := by
  have hbelow : ∀ n < 0x7F, Percent.isUnreserved (Char.ofNat n) = true →
      isOrdinary (Char.ofNat n) = true := by decide
  have hlt := toNat_lt_of_isUnreserved h
  rw [← Char.ofNat_toNat c] at h ⊢
  exact hbelow _ hlt h

lemma visible_of_isOrdinary {c : Char} (h : isOrdinary c = true) : 0x20 < c.toNat ∧ c ≠ '#' := by
  simp only [isOrdinary, Bool.and_eq_true, decide_eq_true_eq] at h
  refine ⟨h.1.1, ?_⟩
  rintro rfl
  exact absurd h.2 (by decide)

lemma escapeSet_of_isOrdinary {others : String} {s : List Char}
    (hothers : others.toList.all (!isOrdinary ·) = true) (h : ∀ c ∈ s, isOrdinary c = true) :
    escapeSet others s = s := by
  refine Percent.encodeExcept_of_keep fun c hc => ?_
  have hordinary := h c hc
  have hnot : others.toList.contains c = false := by
    rw [List.contains_eq_mem, decide_eq_false_iff_not]
    intro hmem
    have hreserved := List.all_eq_true.mp hothers c hmem
    rw [hordinary] at hreserved
    cases hreserved
  simp only [isOrdinary, Bool.and_eq_true, decide_eq_true_eq] at hordinary
  rw [hnot]
  simp
  omega

lemma clean_of_visible {s : List Char} (h : ∀ c ∈ s, 0x20 < c.toNat) : clean s = s := by
  have hdrop : ∀ t : List Char, (∀ c ∈ t, 0x20 < c.toNat) → t.dropWhile isEdge = t := by
    intro t ht
    refine List.dropWhile_eq_self_iff.mpr fun hl => ?_
    have hfirst := ht _ (List.getElem_mem hl)
    simp only [isEdge, decide_eq_true_eq]
    omega
  unfold clean
  rw [hdrop s h, hdrop _ fun c hc => h c (List.mem_reverse.mp hc), List.reverse_reverse]
  refine List.filter_eq_self.mpr fun c hc => ?_
  have hvisible := h c hc
  have hcontrol : c ≠ '\t' ∧ c ≠ '\n' ∧ c ≠ '\r' := by
    refine ⟨?_, ?_, ?_⟩ <;> rintro rfl <;> exact absurd hvisible (by decide)
  exact decide_eq_true hcontrol

/-! ## The steps of reading -/

/-- The name and password, the host and the service number in an authority. -/
def authority? (secure : Bool) (authority : List Char) :
    Option (List Char × List Char × Option Nat) := do
  let (user, site) := splitUser authority
  let (hostText, serviceText) := splitHost false site
  let host ← if hostText = [] then none else host? hostText
  let service ← service? secure serviceText
  return ((user.map userText).getD [], host, service)

/-- The address of an authority with what stands below it. -/
def locate (secure : Bool) (site : List Char × List Char × Option Nat) (below : List Char) : Url :=
  let rest := below.dropWhile fun c => c ≠ '?' ∧ c ≠ '#'
  let (query, rest) := match rest with
    | '?' :: more =>
      (some (escapeQuery (more.takeWhile (· ≠ '#'))), more.dropWhile (· ≠ '#'))
    | _ => (none, rest)
  let fragment := match rest with
    | '#' :: more => some (escapeFragment more)
    | _ => none
  { secure, query, fragment
    userinfo := site.1
    host := site.2.1
    service := site.2.2
    path := pathText (below.takeWhile fun c => c ≠ '?' ∧ c ≠ '#') }

/-- The authority behind a scheme. -/
def authorityOf (rest : List Char) : List Char :=
  (rest.dropWhile isSlash).takeWhile fun c => !endsAuthority c

/-- What stands below the authority behind a scheme. -/
def belowOf (rest : List Char) : List Char :=
  (rest.dropWhile isSlash).dropWhile fun c => !endsAuthority c

lemma parse?_eq (text : String) :
    parse? text = do
      let (secure, rest) ← scheme? (clean text.toList)
      let site ← authority? secure (authorityOf rest)
      return locate secure site (belowOf rest) := by
  unfold parse? authority? locate authorityOf belowOf
  simp only [Option.bind_eq_bind, Option.pure_def]
  refine congrArg _ (funext fun scheme => ?_)
  split
  · rfl
  · rw [Option.bind_assoc]
    refine congrArg _ (funext fun host => ?_)
    rw [Option.bind_assoc]
    rfl

lemma splitFirst?_append_right {c : Char} {s before after : List Char}
    (h : Text.splitFirst? [c] s = some (before, after)) (t : List Char) :
    Text.splitFirst? [c] (s ++ t) = some (before, after ++ t) := by
  induction s generalizing before with
  | nil => cases h
  | cons d s ih =>
    rw [List.cons_append]
    unfold Text.splitFirst? at h ⊢
    by_cases hcd : c = d
    · have hfound : ∀ u, [c].isPrefixOf? (d :: u) = some u := by
        rw [hcd]
        exact Proofs.isPrefixOf?_append [d]
      rw [hfound] at h ⊢
      cases h
      rfl
    · have hnone : ∀ u, [c].isPrefixOf? (d :: u) = none := fun u => if_neg (by simpa using hcd)
      rw [hnone] at h ⊢
      obtain ⟨⟨before', after'⟩, hrest, heq⟩ := Option.map_eq_some_iff.mp h
      cases heq
      dsimp only
      rw [ih hrest, Option.map_some]

lemma scheme?_append {s rest : List Char} {secure : Bool} (h : scheme? s = some (secure, rest))
    (t : List Char) : scheme? (s ++ t) = some (secure, rest ++ t) := by
  unfold scheme? at h ⊢
  simp only [Option.bind_eq_bind, Option.bind_eq_some_iff] at h
  obtain ⟨⟨name, after⟩, hsplit, h⟩ := h
  rw [splitFirst?_append_right hsplit]
  simp only [Option.bind_eq_bind, Option.bind_some]
  split at h
  · rename_i hname
    rw [if_pos hname]
    cases h
    rfl
  · split at h
    · rename_i hname hname'
      rw [if_neg hname, if_pos hname']
      cases h
      rfl
    · cases h

lemma suffix_of_scheme? {s rest : List Char} {secure : Bool}
    (h : scheme? s = some (secure, rest)) : rest <:+ s := by
  unfold scheme? at h
  simp only [Option.bind_eq_bind, Option.bind_eq_some_iff] at h
  obtain ⟨⟨name, after⟩, hsplit, h⟩ := h
  have hafter : after = rest := by
    split at h
    · cases h
      rfl
    · split at h
      · cases h
        rfl
      · cases h
  rw [Text.eq_append_of_splitFirst? hsplit, ← hafter]
  exact List.suffix_append _ _

lemma authority?_nil (secure : Bool) : authority? secure [] = none :=
  rfl

section Spans

variable {p : Char → Bool} {c : Char} {s t : List Char}

lemma takeWhile_append_cons (hc : p c = false) :
    (s ++ c :: t).takeWhile p = s.takeWhile p := by
  induction s with
  | nil => exact List.takeWhile_cons_of_neg (by simp [hc])
  | cons d s ih => rw [List.cons_append, List.takeWhile_cons, List.takeWhile_cons, ih]

lemma dropWhile_append_cons (hc : p c = false) :
    (s ++ c :: t).dropWhile p = s.dropWhile p ++ c :: t := by
  rw [List.dropWhile_append]
  split
  · rename_i hempty
    rw [List.isEmpty_iff.mp hempty, List.dropWhile_cons_of_neg (by simp [hc]), List.nil_append]
  · rfl

end Spans

/-- A slash behind an authority ends it. -/
lemma parts_append {rest : List Char} (h : authorityOf rest ≠ []) (t : List Char) :
    authorityOf (rest ++ '/' :: t) = authorityOf rest ∧
      belowOf (rest ++ '/' :: t) = belowOf rest ++ '/' :: t := by
  have hhost : rest.dropWhile isSlash ≠ [] := by
    intro hnil
    rw [authorityOf, hnil, List.takeWhile_nil] at h
    exact h rfl
  have hslashes : (rest ++ '/' :: t).dropWhile isSlash = rest.dropWhile isSlash ++ '/' :: t := by
    rw [List.dropWhile_append, if_neg (by simpa using hhost)]
  unfold authorityOf belowOf
  rw [hslashes]
  exact ⟨takeWhile_append_cons (by decide), dropWhile_append_cons (by decide)⟩

lemma belowOf_suffix (rest : List Char) : belowOf rest <:+ rest :=
  (List.dropWhile_suffix _).trans (List.dropWhile_suffix _)

/-- Characters of an address that has neither a query nor a fragment. -/
def Plain (s : List Char) : Prop :=
  ∀ c ∈ s, 0x20 < c.toNat ∧ c ≠ '?' ∧ c ≠ '#'

instance (s : List Char) : Decidable (Plain s) :=
  List.decidableBAll _ _

lemma locate_query {below q : List Char} (hbelow : Plain below) (hq : '#' ∉ q) (secure : Bool)
    (site : List Char × List Char × Option Nat) :
    locate secure site (below ++ '?' :: q) =
      { secure, userinfo := site.1, host := site.2.1, service := site.2.2
        path := pathText below, query := some (escapeQuery q), fragment := none } := by
  have hkept : ∀ c ∈ below, (decide (c ≠ '?' ∧ c ≠ '#')) = true :=
    fun c hc => decide_eq_true (hbelow c hc).2
  have hmark : ∀ c ∈ q, (decide (c ≠ '#')) = true := by
    intro c hc
    refine decide_eq_true ?_
    rintro rfl
    exact hq hc
  have htake := List.takeWhile_eq_self_iff.mpr hmark
  have hdrop := List.dropWhile_eq_nil_iff.mpr hmark
  unfold locate
  rw [Proofs.takeWhile_append_stop hkept (by decide),
    Proofs.dropWhile_append_stop hkept (by decide)]
  simp only [htake, hdrop]

lemma plain_append {s p : List Char} (hs : Plain s) (hp : Plain p) : Plain (s ++ '/' :: p) := by
  intro c hc
  rcases List.mem_append.mp hc with hc | hc
  · exact hs c hc
  · rcases List.mem_cons.mp hc with rfl | hc
    · decide
    · exact hp c hc

/-- What an address says with a path and a query put behind it. -/
lemma parse?_below {base text : String} {site : Url} {p q : List Char}
    (hbase : Plain base.toList) (hsite : parse? base = some site) (hp : Plain p)
    (hq : ∀ c ∈ q, 0x20 < c.toNat ∧ c ≠ '#')
    (htext : text.toList = base.toList ++ '/' :: (p ++ '?' :: q)) :
    ∃ below, parse? text = some { site with
      path := pathText (below ++ '/' :: p), query := some (escapeQuery q), fragment := none } := by
  have hvisible : ∀ c ∈ text.toList, 0x20 < c.toNat := by
    rw [htext, ← List.cons_append, ← List.append_assoc]
    intro c hc
    rcases List.mem_append.mp hc with hc | hc
    · exact (plain_append hbase hp c hc).1
    · rcases List.mem_cons.mp hc with rfl | hc
      · decide
      · exact (hq c hc).1
  rw [parse?_eq, clean_of_visible fun c hc => (hbase c hc).1] at hsite
  simp only [Option.bind_eq_bind, Option.bind_eq_some_iff] at hsite
  obtain ⟨⟨secure, rest⟩, hscheme, auth, hauth, hsite⟩ := hsite
  dsimp only at hauth hsite
  -- Without a host the base would not be an address. So its authority is not empty, and in the text
  -- it still ends before the slash of the path.
  have hhost : authorityOf rest ≠ [] := by
    intro hnil
    rw [hnil, authority?_nil] at hauth
    cases hauth
  obtain ⟨hsame, hbehind⟩ := parts_append hhost (p ++ '?' :: q)
  have hbelow : Plain (belowOf rest ++ '/' :: p) := by
    refine plain_append (fun c hc => hbase c ?_) hp
    exact (suffix_of_scheme? hscheme).subset ((belowOf_suffix rest).subset hc)
  refine ⟨belowOf rest, ?_⟩
  rw [parse?_eq, clean_of_visible hvisible, htext, scheme?_append hscheme]
  simp only [Option.bind_eq_bind, Option.bind_some]
  rw [hsame, hbehind, hauth, Option.bind_some, ← List.cons_append, ← List.append_assoc,
    locate_query hbelow fun hmem => (hq _ hmem).2 rfl]
  cases hsite
  rfl

/-! ## Paths -/

/-- A segment of a path that stays as it is. -/
structure Stays (segment : List Char) : Prop where
  ordinary : segment.all isOrdinary = true
  notUp : isUp segment = false
  notHere : isHere segment = false

lemma isOrdinary_of_stays {segment : List Char} (h : Stays segment) :
    ∀ c ∈ segment, isOrdinary c = true :=
  List.all_eq_true.mp h.ordinary

lemma walk_append (segments before : List (List Char)) :
    ∀ done, ∃ done', walk done (before ++ segments) = walk done' segments := by
  induction before with
  | nil => exact fun done => ⟨done, rfl⟩
  | cons segment before ih =>
    intro done
    rw [List.cons_append, walk]
    split
    · exact ih _
    · split <;> exact ih _

lemma walk_of_stays {segments : List (List Char)} (h : ∀ s ∈ segments, Stays s) :
    ∀ done, walk done segments = done.reverse ++ segments := by
  induction segments with
  | nil => simp [walk]
  | cons segment segments ih =>
    intro done
    have hsegment := h segment List.mem_cons_self
    rw [walk, hsegment.notUp, hsegment.notHere, if_neg Bool.false_ne_true,
      if_neg Bool.false_ne_true, ih fun s hs => h s (List.mem_cons_of_mem _ hs),
      List.reverse_cons, List.append_assoc, List.singleton_append]

lemma intercalate_append {c : Char} {xs ys : List (List Char)} (hxs : xs ≠ []) (hys : ys ≠ []) :
    [c].intercalate (xs ++ ys) = [c].intercalate xs ++ c :: [c].intercalate ys := by
  induction xs with
  | nil => exact absurd rfl hxs
  | cons x xs ih =>
    rw [List.cons_append, List.intercalate_cons_of_ne_nil (by simp [hys])]
    cases xs with
    | nil => simp
    | cons x' xs => rw [ih (List.cons_ne_nil _ _), List.intercalate_cons_cons]; simp

lemma mem_intercalate {c d : Char} {xs : List (List Char)} (h : d ∈ [c].intercalate xs) :
    d = c ∨ ∃ x ∈ xs, d ∈ x := by
  induction xs with
  | nil => simp at h
  | cons x xs ih =>
    cases xs with
    | nil => exact Or.inr ⟨x, List.mem_cons_self, by simpa using h⟩
    | cons x' xs =>
      rw [List.intercalate_cons_cons, List.append_assoc] at h
      rcases List.mem_append.mp h with h | h
      · exact Or.inr ⟨x, List.mem_cons_self, h⟩
      · rcases List.mem_append.mp h with h | h
        · exact Or.inl (List.mem_singleton.mp h)
        · rcases ih h with h | ⟨y, hy, h⟩
          · exact Or.inl h
          · exact Or.inr ⟨y, List.mem_cons_of_mem _ hy, h⟩

/-- The text with all its slashes straight. -/
def straight (s : List Char) : List Char :=
  s.map fun c => if c = '\\' then '/' else c

/-- The segments of a path before its steps are taken. -/
def segmentsOf (s : List Char) : List (List Char) :=
  Text.pieces '/' (straight (match s with
    | c :: rest => if isSlash c then rest else c :: rest
    | [] => []))

lemma pathText_eq (s : List Char) :
    pathText s = '/' :: ['/'].intercalate (walk [] ((segmentsOf s).map escapePath)) := by
  unfold pathText segmentsOf
  cases s <;> rfl

section

variable {segments : List (List Char)}

lemma pieces_straight (hne : segments ≠ []) (h : ∀ s ∈ segments, Stays s) :
    Text.pieces '/' (straight (['/'].intercalate segments)) = segments := by
  have hsame : straight (['/'].intercalate segments) = ['/'].intercalate segments := by
    refine (List.map_congr_left fun c hc => if_neg ?_).trans (List.map_id _)
    rintro rfl
    rcases mem_intercalate hc with hc | ⟨s, hs, hc⟩
    · cases hc
    · exact absurd (isOrdinary_of_stays (h s hs) _ hc) (by decide)
  rw [hsame, Text.pieces_eq_splitOn]
  refine List.splitOn_intercalate '/' (fun s hs hc => ?_) hne
  exact absurd (isOrdinary_of_stays (h s hs) _ hc) (by decide)

lemma segmentsOf_append (hne : segments ≠ []) (h : ∀ s ∈ segments, Stays s) (below : List Char) :
    ∃ before, segmentsOf (below ++ '/' :: ['/'].intercalate segments) = before ++ segments := by
  have hback : ∀ front, Text.pieces '/' (straight (front ++ '/' :: ['/'].intercalate segments)) =
      Text.pieces '/' (straight front) ++ segments := by
    intro front
    rw [straight, List.map_append, List.map_cons]
    exact (Text.pieces_append_cons '/' _ _).trans (congrArg _ (pieces_straight hne h))
  cases below with
  | nil => exact ⟨[], pieces_straight hne h⟩
  | cons c below =>
    rw [List.cons_append, segmentsOf]
    split
    · exact ⟨_, hback below⟩
    · exact ⟨_, hback (c :: below)⟩

/-- The path of an address ends in the segments that were put behind it. -/
theorem suffix_pathText (hne : segments ≠ []) (h : ∀ s ∈ segments, Stays s) (below : List Char) :
    '/' :: ['/'].intercalate segments <:+
      pathText (below ++ '/' :: ['/'].intercalate segments) := by
  have hescape : segments.map escapePath = segments :=
    (List.map_congr_left fun s hs => escapeSet_of_isOrdinary (by decide)
      (isOrdinary_of_stays (h s hs))).trans (List.map_id _)
  obtain ⟨before, hbefore⟩ := segmentsOf_append hne h below
  obtain ⟨done, hwalk⟩ := walk_append segments (before.map escapePath) []
  rw [pathText_eq, hbefore, List.map_append, hescape, hwalk, walk_of_stays h]
  by_cases hdone : done.reverse = []
  · rw [hdone]
    exact List.suffix_refl _
  · rw [intercalate_append hdone hne]
    exact List.suffix_append ('/' :: _) _

end

end IssueBridge.Http.Url
