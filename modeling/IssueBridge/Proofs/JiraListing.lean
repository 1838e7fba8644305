import IssueBridge.Plan.IssuePlan
import IssueBridge.Proofs.Exchanges
import IssueBridge.Proofs.JiraSearches

/-!
# Complete searches

A search goes on from page to page, however long the server makes each of them, and finds all that
its query matches. So the issues that stand for some GitHub issues are found whether the query lists
the numbers or is for the whole project.
-/

namespace IssueBridge.Jira

variable {σ : Type}

/-! ## Servers -/

/-- A page is a part of what a query matches: it begins at the start of the search, keeps to its
limit, and is empty only behind the end. -/
structure Slice (all : List Issue) (s : Search) (total : Nat) (page : List Issue) : Prop where
  counted : total = all.length
  part : page <+: all.drop s.start
  limited : page.length ≤ s.limit
  progress : page = [] → all.length ≤ s.start ∨ s.limit = 0

section Slice

variable {all page : List Issue} {s : Search} {total : Nat}

lemma append_of_slice (h : Slice all s total page) :
    page ++ all.drop (s.start + page.length) = all.drop s.start := by
  rw [← List.drop_drop]
  exact (List.prefix_append_drop h.part).symm

lemma eq_drop_of_slice (h : Slice all s total page) (hlimit : s.limit ≠ 0)
    (hlast : page = [] ∨ total ≤ s.start + page.length) : page = all.drop s.start := by
  have hend : all.length ≤ s.start + page.length := by
    rcases hlast with hempty | htotal
    · have hprogress := h.progress hempty
      omega
    · rw [← h.counted]
      exact htotal
  rw [← append_of_slice h, List.drop_eq_nil_of_le hend, List.append_nil]

end Slice

/-- A server whose pages are parts of what queries match. It may fail to answer. -/
def Serves (t : Http.Transport σ) (matching : String → List Issue) : Prop :=
  ∀ r s limit w v reply took total page, search? r = some s →
    t.attempt r limit w = ((.reply reply, took), v) → reply.isSuccess = true →
    reply.decode searchPage = .ok (total, page) → Slice (matching s.jql) s total page

/-- A server that answers each attempt at a search with a page. -/
def Steady (t : Http.Transport σ) : Prop :=
  ∀ r s limit w, search? r = some s → ∃ reply took v page,
    t.attempt r limit w = ((.reply reply, took), v) ∧ reply.isSuccess = true ∧
      reply.decode searchPage = .ok page

/-- The query for the issues of a project. -/
def projectQuery (key : String) : String :=
  "project='" ++ key ++ "'"

/-- The query for the issues of a project with one of some numbers in a custom field. -/
def fieldQuery (key : String) (field : Int64) (numbers : List Int64) : String :=
  projectQuery key ++ " AND cf[" ++ toString field.toInt ++ "] in (" ++
    String.intercalate "," (numbers.map fun n => toString n.toInt) ++ ")"

/-- The issues whose GitHub-ID field holds one of some numbers. -/
def mirrorsOf (ids : FieldNumbers) (numbers : List Int64) (project : List Issue) : List Issue :=
  project.filter fun j => (IssuePlan.githubId? ids j).any numbers.contains

/-- What the two queries for some numbers match. -/
structure Matches (c : Client σ) (numbers : List Int64) (project : List Issue)
    (matching : String → List Issue) : Prop where
  ofProject : matching (projectQuery c.project.key) = project
  ofField : matching (fieldQuery c.project.key c.ids.githubId numbers) =
    mirrorsOf c.ids numbers project

/-! ## Searches in a world -/

namespace Client

def watched (c : Client σ) : Client (Watched σ Http.Request) :=
  { c with access := { c.access with connection := c.access.connection.watched } }

/-- The request for a page is answered with it. -/
def Answers (c : Client σ) (jql : String) (start : Nat) (w : World σ) (page : Nat × List Issue)
    (v : World σ) : Prop :=
  ∃ reply,
    (c.access.connection.send (c.access.request .get (c.searchAddress jql start) none)).run w =
      (.ok reply, v) ∧ reply.decode searchPage = .ok page

/-- The request for a page fails, or its reply is no page. -/
def Breaks (c : Client σ) (jql : String) (start : Nat) (w : World σ) : Prop :=
  ∀ page v, ¬c.Answers jql start w page v

/-- A search at one page comes to another one. -/
inductive Reaches (c : Client σ) (jql : String) : Nat → World σ → Nat → World σ → Prop
  | here (start : Nat) (w : World σ) : Reaches c jql start w start w
  | next {start start' total : Nat} {w u v : World σ} {page : List Issue}
      (hpage : c.Answers jql start w (total, page) u) (hne : page ≠ [])
      (hmore : start + page.length < total)
      (hrest : Reaches c jql (start + page.length) u start' v) : Reaches c jql start w start' v

variable {c : Client σ} {jql : String} {start total patience : Nat} {w u v : World σ}
  {page found : List Issue} {matching : String → List Issue}

/-! ### One page -/

lemma get_of_answers {result : Nat × List Issue} (h : c.Answers jql start w result v) :
    (c.access.get (c.searchAddress jql start) searchPage).run w = (.ok result, v) := by
  obtain ⟨reply, hsend, hdecode⟩ := h
  unfold Access.get
  rw [Proofs.call_bind_of_ok (Proofs.within_of_ok hsend), hdecode]
  rfl

lemma answers_of_get {result : Nat × List Issue}
    (h : (c.access.get (c.searchAddress jql start) searchPage).run w = (.ok result, v)) :
    c.Answers jql start w result v := by
  unfold Access.get at h
  rcases Proofs.within_bind h with ⟨reply, u, hsend, h⟩ | ⟨e, e', -, he⟩
  · rcases Proofs.call_within h with ⟨a, ha, hrun⟩ | ⟨e, e', he, -⟩
    · obtain ⟨hdecode, rfl⟩ := Proofs.call_ofExcept hrun
      cases ha
      exact ⟨reply, hsend, hdecode⟩
    · cases he
  · cases he

lemma get_of_breaks (h : c.Breaks jql start w) :
    ∃ e v, (c.access.get (c.searchAddress jql start) searchPage).run w = (.error e, v) := by
  rcases hrun : (c.access.get (c.searchAddress jql start) searchPage).run w with ⟨_ | page, v⟩
  · exact ⟨_, _, rfl⟩
  · exact absurd (answers_of_get hrun) (h page v)

lemma search_of_breaks (h : c.Breaks jql start w) (patience : Nat) :
    ∃ e v, (c.search jql patience start).run w = (.error e, v) := by
  cases patience with
  | zero => exact ⟨_, _, rfl⟩
  | succ patience =>
    obtain ⟨e, v, hget⟩ := get_of_breaks h
    exact ⟨e, v, Proofs.call_bind_of_error hget⟩

lemma search_last (h : c.Answers jql start w (total, page) v)
    (hlast : page = [] ∨ total ≤ start + page.length) :
    (c.search jql (patience + 1) start).run w = (.ok page, v) := by
  rw [search, Proofs.call_bind_of_ok (get_of_answers h)]
  dsimp only
  rw [if_pos (by simpa using hlast)]
  rfl

lemma search_next (h : c.Answers jql start w (total, page) u) (hne : page ≠ [])
    (hmore : start + page.length < total) :
    (c.search jql (patience + 1) start).run w =
      (((c.search jql patience (start + page.length)).run u).1.map (page ++ ·),
        ((c.search jql patience (start + page.length)).run u).2) := by
  rw [search, Proofs.call_bind_of_ok (get_of_answers h)]
  dsimp only
  rw [if_neg (by simp [hne]; omega), Proofs.run_bind]
  rcases (c.search jql patience (start + page.length)).run u with ⟨_ | rest, v⟩
  · rfl
  · rfl

/-- The page that is had, if there is one, is the last one or has a next one. -/
lemma page_cases (c : Client σ) (jql : String) (start : Nat) (w : World σ) :
    c.Breaks jql start w ∨
      (∃ total page v, c.Answers jql start w (total, page) v ∧
        (page = [] ∨ total ≤ start + page.length)) ∨
      ∃ total page v, c.Answers jql start w (total, page) v ∧ page ≠ [] ∧
        start + page.length < total := by
  by_cases h : c.Breaks jql start w
  · exact Or.inl h
  · unfold Breaks at h
    push Not at h
    obtain ⟨⟨total, page⟩, v, hpage⟩ := h
    by_cases hlast : page = [] ∨ total ≤ start + page.length
    · exact Or.inr (Or.inl ⟨total, page, v, hpage, hlast⟩)
    · push Not at hlast
      exact Or.inr (Or.inr ⟨total, page, v, hpage, hlast⟩)

lemma slice_of_answers (hreach : Reachable c.access)
    (hserves : Serves c.access.connection.transport matching)
    (h : c.Answers jql start w (total, page) v) :
    Slice (matching jql) ⟨jql, start, 1000⟩ total page := by
  obtain ⟨reply, hsend, hdecode⟩ := h
  obtain ⟨r, u, hrequest, ⟨took, hattempt⟩, hsuccess⟩ := Proofs.send_ok hsend
  obtain ⟨r', hrequest', hsearch⟩ := request_search hreach jql start
  rw [hrequest, Option.some.injEq] at hrequest'
  subst hrequest'
  exact hserves _ _ _ _ _ _ _ _ _ hsearch hattempt hsuccess hdecode

/-! ### All pages -/

/-- A search that ends has found all that the query matches, from its start on. -/
lemma search_found (hreach : Reachable c.access)
    (hserves : Serves c.access.connection.transport matching) :
    ∀ {patience start : Nat} {w v : World σ} {found : List Issue},
      (c.search jql patience start).run w = (.ok found, v) → found = (matching jql).drop start := by
  intro patience
  induction patience with
  | zero =>
    intro start w v found h
    cases (Proofs.call_ofExcept h).1
  | succ patience ih =>
    intro start w v found h
    rcases page_cases c jql start w with hbreaks | ⟨total, page, u, hpage, hlast⟩ |
      ⟨total, page, u, hpage, hne, hmore⟩
    · obtain ⟨e, u, hrun⟩ := search_of_breaks hbreaks (patience + 1)
      rw [hrun] at h
      cases h
    · rw [search_last hpage hlast] at h
      cases h
      exact eq_drop_of_slice (slice_of_answers hreach hserves hpage) (Nat.succ_ne_zero 999) hlast
    · rw [search_next hpage hne hmore] at h
      rcases hrest : (c.search jql patience (start + page.length)).run u with ⟨_ | rest, v⟩
      · rw [hrest] at h
        cases h
      · rw [hrest] at h
        cases h
        rw [ih hrest]
        exact append_of_slice (slice_of_answers hreach hserves hpage)

/-- A search with patience enough fails only at a page that cannot be had. -/
lemma search_failed (hreach : Reachable c.access)
    (hserves : Serves c.access.connection.transport matching) :
    ∀ {patience start : Nat} {w v : World σ} {e : Failure}, start ≤ (matching jql).length →
      (matching jql).length < start + patience →
      (c.search jql patience start).run w = (.error e, v) →
      ∃ start' u, c.Reaches jql start w start' u ∧ c.Breaks jql start' u := by
  intro patience
  -- Each page moves the start on by one at least, and no next page starts behind the end, so the
  -- patience lasts to the end.
  induction patience with
  | zero =>
    intro start w v e hstart hpatience h
    omega
  | succ patience ih =>
    intro start w v e hstart hpatience h
    rcases page_cases c jql start w with hbreaks | ⟨total, page, u, hpage, hlast⟩ |
      ⟨total, page, u, hpage, hne, hmore⟩
    · exact ⟨start, w, .here start w, hbreaks⟩
    · rw [search_last hpage hlast] at h
      cases h
    · rw [search_next hpage hne hmore] at h
      rcases hrest : (c.search jql patience (start + page.length)).run u with ⟨e' | rest, v⟩
      · have hcounted := (slice_of_answers hreach hserves hpage).counted
        have hlength := List.length_pos_iff.mpr hne
        have hbegin : start + page.length ≤ (matching jql).length := by omega
        have henough : (matching jql).length < start + page.length + patience := by omega
        obtain ⟨start', u', hreaches, hbreaks⟩ := ih hbegin henough hrest
        exact ⟨start', u', .next hpage hne hmore hreaches, hbreaks⟩
      · rw [hrest] at h
        cases h

/-- A search fails if it comes to a page that cannot be had. -/
lemma search_of_reaches {start' : Nat} (h : c.Reaches jql start w start' v)
    (hbreaks : c.Breaks jql start' v) (patience : Nat) :
    ∃ e u, (c.search jql patience start).run w = (.error e, u) := by
  induction h generalizing patience with
  | here => exact search_of_breaks hbreaks patience
  | next hpage hne hmore _ ih =>
    cases patience with
    | zero => exact ⟨_, _, rfl⟩
    | succ patience =>
      obtain ⟨e, u, hrun⟩ := ih hbreaks patience
      rw [search_next hpage hne hmore, hrun]
      exact ⟨e, u, rfl⟩

/-- Each page of a steady server can be had. -/
lemma not_breaks_of_steady (hreach : Reachable c.access)
    (hsteady : Steady c.access.connection.transport) (hpatience : 0 < c.access.connection.patience)
    (jql : String) (start : Nat) (w : World σ) : ¬c.Breaks jql start w := by
  intro hbreaks
  obtain ⟨r, hrequest, hsearch⟩ := request_search hreach jql start
  obtain ⟨reply, took, v, page, hattempt, hsuccess, hdecode⟩ :=
    hsteady r _ c.access.connection.policy.attemptLimit w hsearch
  have hanswered : Proofs.Answered c.access.connection r reply w v := ⟨⟨took, hattempt⟩, hsuccess⟩
  refine hbreaks page v ⟨reply, ?_, hdecode⟩
  rw [hrequest]
  exact Proofs.send_answered hanswered hpatience

/-! ### The issues for some numbers -/

variable {numbers : List Int64} {project : List Issue}

lemma standsFor_eq (c : Client σ) (numbers : List Int64) :
    c.standsFor numbers = fun j => (IssuePlan.githubId? c.ids j).any numbers.contains := by
  funext j
  unfold standsFor IssuePlan.githubId?
  cases (j.field (c.ids.key .githubId)).int64? <;> rfl

/-- The query of a listing. -/
def listingQuery (c : Client σ) (numbers : List Int64) : String :=
  query c.project.key (c.ids.id .githubId) numbers

lemma listingQuery_eq (c : Client σ) (numbers : List Int64) :
    c.listingQuery numbers =
      if numbers.length < longestList then fieldQuery c.project.key c.ids.githubId numbers
      else projectQuery c.project.key := by
  unfold listingQuery query fieldQuery FieldNumbers.id
  simp only [Decimal.ofList_ofInt]
  rfl

/-- The issues to return among those that a search found. -/
def kept (c : Client σ) (numbers : List Int64) (found : List Issue) : List Issue :=
  if numbers.length < longestList then found else found.filter (c.standsFor numbers)

lemma issues_eq (hne : numbers ≠ []) (w : World σ) :
    (c.issues numbers).run w =
      let (r, v) := (c.search (c.listingQuery numbers) c.access.connection.patience 0).run w
      (r.map (c.kept numbers), v) := by
  unfold issues listingQuery
  rw [if_neg (by simpa using hne), Proofs.run_bind]
  rcases (c.search _ c.access.connection.patience 0).run w with ⟨_ | found, v⟩
  · rfl
  · rfl

lemma kept_matching (h : Matches c numbers project matching) :
    c.kept numbers (matching (c.listingQuery numbers)) =
      mirrorsOf c.ids numbers project := by
  rw [kept, listingQuery_eq]
  split
  · exact h.ofField
  · rw [h.ofProject, standsFor_eq]
    rfl

lemma length_matching (h : Matches c numbers project matching) :
    (matching (c.listingQuery numbers)).length ≤ project.length := by
  rw [listingQuery_eq]
  split
  · rw [h.ofField]
    exact List.length_filter_le _ _
  · rw [h.ofProject]

lemma issues_found (hreach : Reachable c.access)
    (hserves : Serves c.access.connection.transport matching)
    (hmatches : Matches c numbers project matching) (hne : numbers ≠ [])
    (h : (c.issues numbers).run w = (.ok found, v)) : found = mirrorsOf c.ids numbers project := by
  rw [issues_eq hne] at h
  rcases hsearch : (c.search (c.listingQuery numbers) c.access.connection.patience 0).run w
    with ⟨_ | all, u⟩
  · rw [hsearch] at h
    cases h
  · rw [hsearch] at h
    cases h
    rw [search_found hreach hserves hsearch, List.drop_zero, kept_matching hmatches]

lemma issues_failed (hreach : Reachable c.access)
    (hserves : Serves c.access.connection.transport matching)
    (hmatches : Matches c numbers project matching)
    (hpatience : project.length < c.access.connection.patience) (hne : numbers ≠ []) {e : Failure}
    (h : (c.issues numbers).run w = (.error e, v)) :
    ∃ start u, c.Reaches (c.listingQuery numbers) 0 w start u ∧
      c.Breaks (c.listingQuery numbers) start u := by
  have henough := Nat.lt_of_le_of_lt (length_matching hmatches) hpatience
  rw [← Nat.zero_add c.access.connection.patience] at henough
  rw [issues_eq hne] at h
  rcases hsearch : (c.search (c.listingQuery numbers) c.access.connection.patience 0).run w
    with ⟨e' | all, u⟩
  · exact search_failed hreach hserves (Nat.zero_le _) henough hsearch
  · rw [hsearch] at h
    cases h

lemma issues_of_breaks (hne : numbers ≠ [])
    (hreaches : c.Reaches (c.listingQuery numbers) 0 w start u)
    (hbreaks : c.Breaks (c.listingQuery numbers) start u) :
    ∃ e v, (c.issues numbers).run w = (.error e, v) := by
  obtain ⟨e, v, hsearch⟩ := search_of_reaches hreaches hbreaks c.access.connection.patience
  rw [issues_eq hne, hsearch]
  exact ⟨e, v, rfl⟩

end Client

lemma mirrorsOf_nil (ids : FieldNumbers) (project : List Issue) :
    mirrorsOf ids [] project = [] := by
  refine List.filter_eq_nil_iff.mpr fun j _ => ?_
  cases IssuePlan.githubId? ids j <;> simp

/-- The issues that stand for some numbers are all found, once and in order, or none at all: a
listing fails exactly if it comes to a page that cannot be had. -/
theorem mirrors_found (c : Client σ) (numbers : List Int64) (project : List Issue)
    (matching : String → List Issue) (w : World σ) (hreach : Reachable c.access)
    (hserves : Serves c.access.connection.transport matching)
    (hmatches : Matches c numbers project matching)
    (hpatience : project.length < c.access.connection.patience) :
    (numbers = [] → (c.issues numbers).run w = (.ok [], w) ∧
      ∀ past, (c.watched.issues numbers).run (w.watched past) = (.ok [], w.watched past)) ∧
    (∀ found v, (c.issues numbers).run w = (.ok found, v) →
      found = mirrorsOf c.ids numbers project) ∧
    ((∃ e v, (c.issues numbers).run w = (.error e, v)) ↔
      numbers ≠ [] ∧ ∃ start u, c.Reaches (c.listingQuery numbers) 0 w start u ∧
        c.Breaks (c.listingQuery numbers) start u) ∧
    (Steady c.access.connection.transport →
      ∃ v, (c.issues numbers).run w = (.ok (mirrorsOf c.ids numbers project), v)) := by
  by_cases hne : numbers = []
  · subst hne
    have hnil : (c.issues []).run w = (.ok [], w) := rfl
    rw [hnil, mirrorsOf_nil]
    refine ⟨fun _ => ⟨rfl, fun past => rfl⟩, ?_, ?_, fun _ => ⟨w, rfl⟩⟩
    · intro found v h
      cases h
      rfl
    · refine ⟨?_, fun h => absurd rfl h.1⟩
      rintro ⟨e, v, h⟩
      cases h
  · refine ⟨fun h => absurd h hne,
      fun found v h => Client.issues_found hreach hserves hmatches hne h, ⟨?_, ?_⟩, ?_⟩
    · rintro ⟨e, v, h⟩
      exact ⟨hne, Client.issues_failed hreach hserves hmatches hpatience hne h⟩
    · rintro ⟨-, start, u, hreaches, hbreaks⟩
      exact Client.issues_of_breaks hne hreaches hbreaks
    · intro hsteady
      rcases hrun : (c.issues numbers).run w with ⟨e | found, v⟩
      · obtain ⟨start, u, -, hbreaks⟩ :=
          Client.issues_failed hreach hserves hmatches hpatience hne hrun
        exact absurd hbreaks (Client.not_breaks_of_steady hreach hsteady (by omega) _ _ _)
      · rw [Client.issues_found hreach hserves hmatches hne hrun]
        exact ⟨v, rfl⟩

/-! ## A server with two issues -/

/-- Two issues of a project, and the JSON of each. -/
def holdings : List (Issue × String) :=
  [({ id := "1", key := "A-1", custom := [("customfield_1", .num (.ofInt 7))] },
      "\x7b\"id\":\"1\",\"key\":\"A-1\",\"fields\":\x7b\"customfield_1\":7\x7d\x7d"),
    ({ id := "2", key := "A-2", custom := [("customfield_1", .text "9")] },
      "\x7b\"id\":\"2\",\"key\":\"A-2\",\"fields\":\x7b\"customfield_1\":\"9\"\x7d\x7d")]

/-- All issues for the query of the project, and the first one for any other query. -/
def heldFor (jql : String) : List (Issue × String) :=
  if jql = projectQuery "A" then holdings else holdings.take 1

/-- One issue at most. -/
def heldPage (s : Search) : List (Issue × String) :=
  ((heldFor s.jql).drop s.start).take (min 1 s.limit)

def pageText (total : Nat) (page : List (Issue × String)) : String :=
  "\x7b\"total\":" ++ toString total ++ ",\"issues\":[" ++
    String.intercalate "," (page.map Prod.snd) ++ "]\x7d"

/-- A server that answers each search with one issue at most, and nothing else. -/
def onePerPage : Http.Transport Unit where
  attempt r _ := pure (match search? r with
    | some s => (.reply ⟨200, [], pageText (heldFor s.jql).length (heldPage s)⟩, 0)
    | none => (.dropped, 0))
  wait _ := pure ()

def sampleClient : Client Unit where
  access := ⟨⟨onePerPage, .ofTimeout 0, 3⟩, "http://jira/base", "Basic dTp0"⟩
  project := ⟨"1", "A", []⟩
  ids := ⟨1, 2, 3, 4, 5, 6⟩
  dryRun := false

lemma heldFor_mem (jql : String) : heldFor jql ∈ [holdings, holdings.take 1] := by
  unfold heldFor
  split <;> simp

lemma heldPage_mem (s : Search) : heldPage s ∈
    [[], (heldFor s.jql).take 1, ((heldFor s.jql).drop 1).take 1] := by
  have hlength : ∀ all ∈ [holdings, holdings.take 1], all.length ≤ 2 := by decide
  have hall := hlength _ (heldFor_mem s.jql)
  unfold heldPage
  rcases Nat.eq_zero_or_pos s.limit with hlimit | hlimit
  · simp [hlimit]
  · rw [Nat.min_eq_left hlimit]
    rcases s.start with _ | _ | start
    · simp
    · simp
    · have hend : (heldFor s.jql).length ≤ start + 1 + 1 := by omega
      rw [List.drop_eq_nil_of_le hend]
      exact List.mem_cons_self

/-- The replies of the server can be decoded. -/
lemma decode_pageText (s : Search) :
    (Http.Reply.mk 200 [] (pageText (heldFor s.jql).length (heldPage s))).decode searchPage =
      .ok ((heldFor s.jql).length, (heldPage s).map Prod.fst) := by
  have hpages : ∀ all ∈ [holdings, holdings.take 1], ∀ page ∈ [[], all.take 1, (all.drop 1).take 1],
      searchPage.read? (pageText all.length page) =
        some (all.length, page.map Prod.fst) := by
    decide +kernel
  unfold Http.Reply.decode
  rw [hpages _ (heldFor_mem s.jql) _ (heldPage_mem s)]

lemma attempt_onePerPage {r : Http.Request} {s : Search} (hsearch : search? r = some s)
    (limit : Duration) (w : World Unit) : onePerPage.attempt r limit w =
      ((.reply ⟨200, [], pageText (heldFor s.jql).length (heldPage s)⟩, 0), w) := by
  change ((match search? r with
    | some s =>
      (Http.Outcome.reply ⟨200, [], pageText (heldFor s.jql).length (heldPage s)⟩, (0 : Duration))
    | none => (.dropped, 0)), w) = _
  rw [hsearch]

lemma serves_onePerPage : Serves onePerPage fun jql => (heldFor jql).map Prod.fst := by
  intro r s limit w v reply took total page hsearch hattempt _ hdecode
  rw [attempt_onePerPage hsearch] at hattempt
  cases hattempt
  rw [decode_pageText] at hdecode
  cases hdecode
  refine ⟨(List.length_map _).symm, ?_, ?_, ?_⟩
  · rw [heldPage, ← List.map_drop, List.map_take]
    exact List.take_prefix _ _
  · rw [List.length_map, heldPage, List.length_take]
    omega
  · intro hempty
    have hnil := List.map_eq_nil_iff.mp hempty
    rw [heldPage, List.take_eq_nil_iff, List.drop_eq_nil_iff] at hnil
    rw [List.length_map]
    omega

lemma steady_onePerPage : Steady onePerPage := by
  intro r s limit w hsearch
  exact ⟨_, _, _, _, attempt_onePerPage hsearch limit w, rfl, decode_pageText s⟩

lemma reachable_sampleClient : Reachable sampleClient.access :=
  ⟨by decide, by decide +kernel, by decide⟩

lemma matches_sampleClient {numbers : List Int64}
    (h : mirrorsOf sampleClient.ids numbers (holdings.map Prod.fst) =
      (holdings.take 1).map Prod.fst) :
    Matches sampleClient numbers (holdings.map Prod.fst) fun jql => (heldFor jql).map Prod.fst := by
  have hother : fieldQuery "A" sampleClient.ids.githubId numbers ≠ projectQuery "A" := by
    intro heq
    have hlength := congrArg String.length heq
    have hmore : " AND cf[".length = 8 := by decide
    simp only [fieldQuery, String.length_append] at hlength
    omega
  refine ⟨?_, ?_⟩
  · exact congrArg (List.map Prod.fst) (if_pos rfl)
  · rw [h]
    exact congrArg (List.map Prod.fst) (if_neg hother)

/-- The issue for the number 7 is found with a query that lists the number, and page by page among
all issues of the project. -/
theorem mirrors_found_onePerPage :
    (∃ v, (sampleClient.issues [7]).run ⟨(), []⟩ = (.ok ((holdings.take 1).map Prod.fst), v)) ∧
    ∃ v, (sampleClient.issues (7 :: List.replicate 100 5)).run ⟨(), []⟩ =
      (.ok ((holdings.take 1).map Prod.fst), v) := by
  have hlisted : mirrorsOf sampleClient.ids [7] (holdings.map Prod.fst) =
      (holdings.take 1).map Prod.fst := by decide +kernel
  have hlong : mirrorsOf sampleClient.ids (7 :: List.replicate 100 5) (holdings.map Prod.fst) =
      (holdings.take 1).map Prod.fst := by decide +kernel
  have hpatience : (holdings.map Prod.fst).length < sampleClient.access.connection.patience := by
    decide
  constructor
  · rw [← hlisted]
    exact (mirrors_found sampleClient [7] _ _ ⟨(), []⟩ reachable_sampleClient serves_onePerPage
      (matches_sampleClient hlisted) hpatience).2.2.2 steady_onePerPage
  · rw [← hlong]
    exact (mirrors_found sampleClient _ _ _ ⟨(), []⟩ reachable_sampleClient serves_onePerPage
      (matches_sampleClient hlong) hpatience).2.2.2 steady_onePerPage

end IssueBridge.Jira
