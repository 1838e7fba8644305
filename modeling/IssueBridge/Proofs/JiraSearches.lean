import IssueBridge.Jira.Client
import IssueBridge.Proofs.AddressBelow

/-!
# Searches

A search is a request for a part of what a query matches. The requests of the client, read as a
server reads them, are searches for the query that the client means.
-/

namespace IssueBridge.Jira

/-- Asks for at most `limit` of the issues that a query matches, from a place on. -/
structure Search where
  jql : String
  start : Nat
  limit : Nat
  deriving DecidableEq

/-! ## Reading requests -/

/-- A value of a form with its escapes resolved; a plus is a space. -/
def formValue? (s : List Char) : Option (List Char) :=
  Percent.decode? (s.map fun c => if c = '+' then ' ' else c)

/-- The value of the first parameter of a name. -/
def parameter? (name : String) (query : List Char) : Option (List Char) :=
  (Text.pieces '&' query).findSome? fun entry =>
    (Text.splitFirst? ['='] entry).bind fun (key, value) =>
      if key = name.toList then formValue? value else none

/-- The steps of the path that searches have. -/
def searchSteps : List (List Char) :=
  ["rest".toList, "api".toList, "2".toList, "search".toList]

def isSearch (r : Http.Request) : Bool :=
  r.method = .get ∧ '/' :: ['/'].intercalate searchSteps <:+ r.url.path

/-- The search that a request asks for. -/
def search? (r : Http.Request) : Option Search :=
  if isSearch r then do
    let query ← r.url.query
    let jql ← parameter? "jql" query
    let start ← (parameter? "startAt" query).bind Decimal.toNat?
    let limit ← (parameter? "maxResults" query).bind Decimal.toNat?
    some ⟨String.ofList jql, start, limit⟩
  else none

section Queries

variable {entries : List (String × List Char)} {name : String}

/-- Names and values in the query of an address. -/
def queryOf (entries : List (String × List Char)) : List Char :=
  ['&'].intercalate (entries.map fun e => e.1.toList ++ '=' :: e.2)

/-- No mark of a query stands in a name or in its value. -/
def Unmarked (e : String × List Char) : Prop :=
  '=' ∉ e.1.toList ∧ '&' ∉ e.1.toList ∧ '&' ∉ e.2

lemma pieces_queryOf (hne : entries ≠ []) (h : ∀ e ∈ entries, Unmarked e) :
    Text.pieces '&' (queryOf entries) = entries.map fun e => e.1.toList ++ '=' :: e.2 := by
  rw [Text.pieces_eq_splitOn]
  refine List.splitOn_intercalate '&' (fun s hs hc => ?_) (by simpa using hne)
  obtain ⟨e, he, rfl⟩ := List.mem_map.mp hs
  rcases List.mem_append.mp hc with hc | hc
  · exact (h e he).2.1 hc
  · rcases List.mem_cons.mp hc with hc | hc
    · cases hc
    · exact (h e he).2.2 hc

lemma findSome?_congr {α β : Type} {f g : α → Option β} {items : List α}
    (h : ∀ a ∈ items, f a = g a) : items.findSome? f = items.findSome? g := by
  induction items with
  | nil => rfl
  | cons a items ih =>
    rw [List.findSome?_cons, List.findSome?_cons, h a List.mem_cons_self,
      ih fun b hb => h b (List.mem_cons_of_mem _ hb)]

/-- A parameter has the value of the first entry of its name that can be read. -/
lemma parameter?_queryOf (hne : entries ≠ []) (h : ∀ e ∈ entries, Unmarked e) :
    parameter? name (queryOf entries) =
      entries.findSome? fun e => if e.1 = name then formValue? e.2 else none := by
  unfold parameter?
  rw [pieces_queryOf hne h, List.findSome?_map]
  refine findSome?_congr fun e he => ?_
  have hsplit : Text.splitFirst? ['='] (e.1.toList ++ '=' :: e.2) = some (e.1.toList, e.2) := by
    refine Proofs.splitFirst?_append '=' [] _ (by simp) fun hmark => ?_
    exact (h e he).1 (hmark.subset List.mem_cons_self)
  rw [Function.comp_apply, hsplit, Option.bind_some]
  dsimp only
  simp only [String.toList_inj]

end Queries

/-! ## Encoded values -/

lemma formValue?_encode (s : List Char) :
    formValue? (Percent.encodeExcept Percent.isUnreserved s) = some s := by
  have hsame : (Percent.encodeExcept Percent.isUnreserved s).map
      (fun c => if c = '+' then ' ' else c) = Percent.encodeExcept Percent.isUnreserved s := by
    refine (List.map_congr_left fun c hc => if_neg ?_).trans (List.map_id _)
    rintro rfl
    rcases Percent.isUnreserved_of_mem_encode hc with h | h
    · exact absurd h (by decide)
    · cases h
  unfold formValue?
  rw [hsame, Percent.decode?_encodeExcept (by decide)]

lemma isUnreserved_ofNat {n : Nat} {c : Char} (h : c ∈ Decimal.ofNat n) :
    Percent.isUnreserved c = true := by
  have hdigit : c.isDigit = true := Nat.isDigit_of_mem_toDigits (by decide) (by decide) h
  simp [Percent.isUnreserved, Char.isAlphanum, hdigit]

lemma formValue?_ofNat (n : Nat) : formValue? (Decimal.ofNat n) = some (Decimal.ofNat n) := by
  have h := formValue?_encode (Decimal.ofNat n)
  rwa [Percent.encodeExcept_of_keep fun c hc => isUnreserved_ofNat hc] at h

/-! ## The searches of the client -/

variable {σ : Type}

/-- Requests can be sent to the address of the server, which has neither query nor fragment. -/
structure Reachable (a : Access σ) : Prop where
  plain : Http.Url.Plain a.baseUrl.toList
  address : (Http.Url.parse? a.baseUrl).isSome = true
  authorization : a.authorization.toList.all Http.Request.isHeaderChar = true

/-- The parameters of a search of the client. -/
def searchEntries (jql : String) (start : Nat) : List (String × List Char) :=
  [("jql", Percent.encodeExcept Percent.isUnreserved jql.toList), ("startAt", Decimal.ofNat start),
    ("maxResults", "1000".toList), ("fields", "*all".toList)]

lemma toList_searchAddress (c : Client σ) (jql : String) (start : Nat) :
    (c.searchAddress jql start).toList = c.access.baseUrl.toList ++
      '/' :: (['/'].intercalate searchSteps ++ '?' :: queryOf (searchEntries jql start)) := by
  unfold Client.searchAddress Percent.encode
  simp only [String.toList_append, String.toList_ofList, Decimal.toList_toString,
    List.append_assoc, queryOf, searchEntries, List.map_cons, List.map_nil,
    List.intercalate_cons_cons, List.intercalate_singleton, List.cons_append, List.nil_append]
  rfl

/-- A character that may stand in the value of a parameter. -/
def isValueChar (c : Char) : Bool :=
  Percent.isUnreserved c || c == '%' || c == '*'

lemma chars_searchEntries {jql : String} {start : Nat} :
    ∀ e ∈ searchEntries jql start,
      e.1.toList.all Percent.isUnreserved = true ∧ e.2.all isValueChar = true := by
  have hencoded :
      (Percent.encodeExcept Percent.isUnreserved jql.toList).all isValueChar = true := by
    refine List.all_eq_true.mpr fun c hc => ?_
    rcases Percent.isUnreserved_of_mem_encode hc with h | rfl
    · simp [isValueChar, h]
    · decide
  have hdigits : (Decimal.ofNat start).all isValueChar = true :=
    List.all_eq_true.mpr fun c hc => by simp [isValueChar, isUnreserved_ofNat hc]
  have hjql : "jql".toList.all Percent.isUnreserved = true := by decide
  have hstart : "startAt".toList.all Percent.isUnreserved = true := by decide
  intro e he
  simp only [searchEntries, List.mem_cons, List.not_mem_nil, or_false] at he
  rcases he with rfl | rfl | rfl | rfl
  · exact ⟨hjql, hencoded⟩
  · exact ⟨hstart, hdigits⟩
  · exact ⟨by decide, by decide⟩
  · exact ⟨by decide, by decide⟩

lemma unmarked_searchEntries {jql : String} {start : Nat} :
    ∀ e ∈ searchEntries jql start, Unmarked e := by
  intro e he
  obtain ⟨hname, hvalue⟩ := chars_searchEntries e he
  refine ⟨fun hc => ?_, fun hc => ?_, fun hc => ?_⟩
  · exact absurd (List.all_eq_true.mp hname _ hc) (by decide)
  · exact absurd (List.all_eq_true.mp hname _ hc) (by decide)
  · exact absurd (List.all_eq_true.mp hvalue _ hc) (by decide)

lemma isOrdinary_of_isValueChar {c : Char} (h : isValueChar c = true) :
    Http.Url.isOrdinary c = true := by
  simp only [isValueChar, Bool.or_eq_true, beq_iff_eq] at h
  rcases h with (h | rfl) | rfl
  · exact Http.Url.isOrdinary_of_isUnreserved h
  · decide
  · decide

lemma isOrdinary_searchEntries {jql : String} {start : Nat} :
    ∀ c ∈ queryOf (searchEntries jql start), Http.Url.isOrdinary c = true := by
  intro c hc
  rcases Http.Url.mem_intercalate hc with rfl | ⟨s, hs, hc⟩
  · decide
  · obtain ⟨e, he, rfl⟩ := List.mem_map.mp hs
    obtain ⟨hname, hvalue⟩ := chars_searchEntries e he
    rcases List.mem_append.mp hc with hc | hc
    · exact Http.Url.isOrdinary_of_isUnreserved (List.all_eq_true.mp hname c hc)
    · rcases List.mem_cons.mp hc with rfl | hc
      · decide
      · exact isOrdinary_of_isValueChar (List.all_eq_true.mp hvalue c hc)

lemma stays_searchSteps : ∀ s ∈ searchSteps, Http.Url.Stays s := by
  intro s hs
  refine ⟨?_, ?_, ?_⟩ <;> revert s <;> decide

lemma search?_searchEntries {r : Http.Request} {jql : String} {start : Nat}
    (hsearch : isSearch r = true)
    (hquery : r.url.query = some (queryOf (searchEntries jql start))) :
    search? r = some ⟨jql, start, 1000⟩ := by
  have hvalue : ∀ name, parameter? name (queryOf (searchEntries jql start)) =
      (searchEntries jql start).findSome? fun e => if e.1 = name then formValue? e.2 else none :=
    fun name => parameter?_queryOf (List.cons_ne_nil _ _) unmarked_searchEntries
  have hjql : parameter? "jql" (queryOf (searchEntries jql start)) = some jql.toList := by
    rw [hvalue, searchEntries, List.findSome?_cons, if_pos rfl, formValue?_encode]
  have hstart : parameter? "startAt" (queryOf (searchEntries jql start)) =
      some (Decimal.ofNat start) := by
    rw [hvalue, searchEntries, List.findSome?_cons, if_neg (show "jql" ≠ "startAt" by decide),
      List.findSome?_cons, if_pos rfl, formValue?_ofNat]
  have hlimit : parameter? "maxResults" (queryOf (searchEntries jql start)) =
      some (Decimal.ofNat 1000) := by
    rw [hvalue, searchEntries, List.findSome?_cons, if_neg (show "jql" ≠ "maxResults" by decide),
      List.findSome?_cons, if_neg (show "startAt" ≠ "maxResults" by decide), List.findSome?_cons,
      if_pos rfl]
    exact formValue?_ofNat 1000
  unfold search?
  rw [if_pos hsearch, hquery]
  simp only [Option.bind_eq_bind, Option.bind_some, hjql, hstart, hlimit, Decimal.toNat?_ofNat,
    String.ofList_toList]

/-- The request for a page is sent, and the server reads it as the search for that page. -/
theorem request_search {c : Client σ} (h : Reachable c.access) (jql : String) (start : Nat) :
    ∃ r, c.access.request .get (c.searchAddress jql start) none = some r ∧
      search? r = some ⟨jql, start, 1000⟩ := by
  obtain ⟨site, hsite⟩ := Option.isSome_iff_exists.mp h.address
  obtain ⟨below, hparse⟩ := Http.Url.parse?_below h.plain hsite (by decide)
    (fun c hc => Http.Url.visible_of_isOrdinary (isOrdinary_searchEntries c hc))
    (toList_searchAddress c jql start)
  rw [Http.Url.escapeQuery, Http.Url.escapeSet_of_isOrdinary (by decide)
    isOrdinary_searchEntries] at hparse
  have hpath := Http.Url.suffix_pathText (by decide) stays_searchSteps below
  unfold Access.request Http.Request.make?
  rw [hparse, Option.bind_eq_bind, Option.bind_some, Option.getD_some, if_pos h.authorization]
  exact ⟨_, rfl, search?_searchEntries (decide_eq_true ⟨rfl, hpath⟩) rfl⟩

end IssueBridge.Jira
