import IssueBridge.Proofs.IssueAccounts

/-!
# The order of comment writes

The calls that a plan for comments asks for: one write after another, and right in front of the
first comment of each author the question who that is. The calls that are made are these, up to the
first one that fails, and each comment is written with the user that its author was found to be.
-/

namespace IssueBridge

/-- A call about comments that is to be made. -/
inductive Posting where
  | user (login : String)
  | add (key body : String)
  | edit (key id body : String)
  deriving DecidableEq

namespace Posting

def isWrite : Posting → Bool
  | user _ => false
  | add .. | edit .. => true

def login? : Posting → Option String
  | user login => some login
  | add .. | edit .. => none

end Posting

/-- The call that was made, whatever came of it. -/
def Deed.posting? : Deed → Option Posting
  | user login _ => some (.user login)
  | addComment key body _ => some (.add key body)
  | editComment key id body _ => some (.edit key id body)
  | _ => none

/-- The failure of a call, in the course of the operation that it was made for. -/
def Deed.failure? : Deed → Option Failure
  | user login (.error e) => some (e.within ("looking up GitHub user " ++ login))
  | addComment key _ (.error e) => some (e.within ("creating comment on " ++ key))
  | editComment key id _ (.error e) => some (e.within ("updating comment " ++ id ++ " on " ++ key))
  | _ => none

namespace CommentWrite

def author (x : CommentWrite) : String :=
  x.source.author

/-- The call that writes a comment with the user that its author is. -/
def posting (key : String) (users : String → GitHub.User) (x : CommentWrite) : Posting :=
  match x with
  | create c => .add key (Header.written c (users c.author))
  | edit c t => .edit key t.id (Header.written c (users c.author))

end CommentWrite

namespace Proofs

open CommentPlan (ofComments)

variable {σ : Type} {p : Pass σ} {g : GitHub.Issue} {j : Jira.Issue} {key login : String}
  {known known' : Dictionary GitHub.User} {u : GitHub.User} {users : String → GitHub.User}
  {x : CommentWrite} {before ws : List CommentWrite} {r : Except Failure (Dictionary GitHub.User)}
  {o : CommentOutcome} {deeds look : List Deed} {seen : List String}

/-! ## Planned calls -/

/-- The question for an author that nobody asked before. -/
def inquiry (seen : List String) (login : String) : List Posting :=
  if login ∈ seen then [] else [.user login]

/-- The calls for some comments if no call fails, where some authors have been asked for and all are
as given. -/
def planned (users : String → GitHub.User) (key : String) :
    List String → List CommentWrite → List Posting
  | _, [] => []
  | seen, x :: ws =>
    inquiry seen x.author ++ x.posting key users :: planned users key (x.author :: seen) ws

/-- The calls of a plan: the new comments and then the edited ones, each with its text, the authors
in the order of their first comments, and each author right in front of that comment. -/
structure Scheduled (users : String → GitHub.User) (key : String) (plan : CommentPlan)
    (calls : List Posting) : Prop where
  writes : calls.filter Posting.isWrite =
    plan.additions.map (fun c => .add key (Header.written c (users c.author))) ++
      plan.edits.map fun (c, t) => .edit key t.id (Header.written c (users c.author))
  lookups : calls.filterMap Posting.login? =
    (plan.additions.map GitHub.Comment.author ++ plan.edits.map fun x => x.1.author).eraseDups
  adjacent : ∀ before x after, plan.writes = before ++ x :: after → ∃ front rest,
    calls = front ++ inquiry (before.map CommentWrite.author) x.author ++
      x.posting key users :: rest ∧
    front.filter Posting.isWrite = before.map (CommentWrite.posting key users)

lemma inquiry_congr {seen' : List String} (h : login ∈ seen ↔ login ∈ seen') :
    inquiry seen login = inquiry seen' login := by
  unfold inquiry
  simp only [h]

lemma isWrite_posting (key : String) (users : String → GitHub.User) (x : CommentWrite) :
    (x.posting key users).isWrite = true := by
  cases x <;> rfl

lemma login?_posting (key : String) (users : String → GitHub.User) (x : CommentWrite) :
    (x.posting key users).login? = none := by
  cases x <;> rfl

lemma writes_planned (users : String → GitHub.User) (key : String) (seen : List String)
    (ws : List CommentWrite) :
    (planned users key seen ws).filter Posting.isWrite =
      ws.map (CommentWrite.posting key users) := by
  induction ws generalizing seen with
  | nil => rfl
  | cons x ws ih =>
    have hinquiry : (inquiry seen x.author).filter Posting.isWrite = [] := by
      unfold inquiry
      split <;> rfl
    rw [planned, List.filter_append, hinquiry, List.nil_append,
      List.filter_cons_of_pos (isWrite_posting key users x), ih, List.map_cons]

lemma lookups_planned (users : String → GitHub.User) (key : String) (seen : List String)
    (ws : List CommentWrite) :
    (planned users key seen ws).filterMap Posting.login? =
      ((ws.map CommentWrite.author).filter fun login => login ∉ seen).eraseDups := by
  induction ws generalizing seen with
  | nil => rfl
  | cons x ws ih =>
    rw [planned, List.filterMap_append, List.filterMap_cons_none (login?_posting key users x), ih,
      List.map_cons]
    unfold inquiry
    by_cases hseen : x.author ∈ seen
    · have hskip : ∀ login, (login ∉ x.author :: seen) = (login ∉ seen) := by
        intro login
        simp only [List.mem_cons, not_or, eq_iff_iff, and_iff_right_iff_imp]
        rintro hlogin rfl
        exact hlogin hseen
      rw [if_pos hseen, List.filter_cons_of_neg (by simpa using hseen)]
      simp only [hskip]
      rfl
    · have hskip : ∀ login, (!login == x.author && decide (login ∉ seen)) =
          decide (login ∉ x.author :: seen) := by
        intro login
        by_cases hlogin : login = x.author <;> simp [hlogin]
      rw [if_neg hseen, List.filter_cons_of_pos (by simpa using hseen), List.eraseDups_cons,
        List.filter_filter]
      simp only [hskip]
      rfl

lemma planned_cons (users : String → GitHub.User) (key : String) (seen : List String)
    (x : CommentWrite) (ws : List CommentWrite) :
    planned users key seen (x :: ws) = (inquiry seen x.author ++ [x.posting key users]) ++
      planned users key (x.author :: seen) ws :=
  List.append_cons _ _ _

/-- Which authors have been asked for depends on the comments before, in any order. -/
lemma planned_append (users : String → GitHub.User) (key : String) (seen : List String)
    (before ws : List CommentWrite) :
    planned users key seen (before ++ ws) = planned users key seen before ++
      planned users key ((before.map CommentWrite.author).reverse ++ seen) ws := by
  induction before generalizing seen with
  | nil => rfl
  | cons x before ih =>
    rw [List.cons_append, planned, planned, ih, List.map_cons, List.reverse_cons,
      List.append_assoc, List.append_assoc]
    rfl

lemma scheduled_planned (users : String → GitHub.User) (key : String) (plan : CommentPlan) :
    Scheduled users key plan (planned users key [] plan.writes) := by
  refine ⟨?_, ?_, fun before x after hsplit => ?_⟩
  · rw [writes_planned, CommentPlan.writes, List.map_append, List.map_map, List.map_map]
    rfl
  · rw [lookups_planned, CommentPlan.writes, List.map_append, List.map_map, List.map_map,
      List.filter_eq_self.mpr (by simp)]
    rfl
  · have hseen : inquiry ((before.map CommentWrite.author).reverse ++ []) x.author =
        inquiry (before.map CommentWrite.author) x.author :=
      inquiry_congr (by simp)
    refine ⟨planned users key [] before,
      planned users key (x.author :: ((before.map CommentWrite.author).reverse ++ [])) after, ?_,
      writes_planned users key [] before⟩
    rw [hsplit, planned_append, planned, hseen, List.append_assoc]

/-! ## Calls that are made -/

/-- The answers to all questions for users are as given. -/
def Agreed (users : String → GitHub.User) (deeds : List Deed) : Prop :=
  ∀ login u, .user login (.ok u) ∈ deeds → users login = u

/-- The users that are known are those that have been asked for, and are as given. -/
def Recalled (users : String → GitHub.User) (seen : List String) (known : Dictionary GitHub.User) :
    Prop :=
  ∀ login, known.get? login = if login ∈ seen then some (users login) else none

/-- Only the last call may fail, and then its failure is the given one. -/
structure Ends (failure : Option Failure) (deeds : List Deed) : Prop where
  stops : ∀ d ∈ deeds.dropLast, d.failure? = none
  failure : deeds.getLast?.bind Deed.failure? = failure

/-- The calls made for some comments are those planned, up to the first one that fails, and each
comment is written with the user that was found for its author before. -/
structure InOrder (key : String) (ws : List CommentWrite) (o : CommentOutcome)
    (deeds : List Deed) : Prop where
  consistent : ∃ users, Agreed users deeds
  front : ∀ users, Agreed users deeds →
    deeds.map Deed.posting? <+: (planned users key [] ws).map some
  whole : o.failure = none → ∀ users, Agreed users deeds →
    deeds.map Deed.posting? = (planned users key [] ws).map some
  signed : ∀ d ∈ deeds, d.isWrite = true → ∃ x ∈ ws, ∃ u, .user x.author (.ok u) ∈ deeds ∧
    d.posting? = some (x.posting key fun _ => u)
  ends : Ends o.failure deeds

lemma recalled_insert (h : Recalled users seen known) (hu : users login = u) :
    Recalled users (login :: seen) (known.insert login u) := by
  intro other
  by_cases heq : other = login
  · rw [heq, Dictionary.get?_insert_self, if_pos List.mem_cons_self, hu]
  · rw [Dictionary.get?_insert_of_ne known u heq, h other]
    simp only [List.mem_cons, heq, false_or]

lemma recalled_cons (h : Recalled users seen known) (hlogin : login ∈ seen) :
    Recalled users (login :: seen) known := by
  intro other
  have hmem : other ∈ login :: seen ↔ other ∈ seen := by
    rw [List.mem_cons, or_iff_right_of_imp]
    rintro rfl
    exact hlogin
  rw [h other]
  simp only [hmem]

/-- The question that was asked is the planned one, and its answer is kept. -/
lemma looked_inquiry (h : Looked known login u known' look) (hrecalled : Recalled users seen known)
    (hagreed : Agreed users look) :
    look.map Deed.posting? = (inquiry seen login).map some ∧ users login = u ∧
      Recalled users (login :: seen) known' := by
  have hlogin := hrecalled login
  unfold inquiry
  cases h with
  | known hknown =>
    rw [hknown] at hlogin
    by_cases hseen : login ∈ seen
    · rw [if_pos hseen] at hlogin ⊢
      exact ⟨rfl, (Option.some.inj hlogin).symm, recalled_cons hrecalled hseen⟩
    · rw [if_neg hseen] at hlogin
      cases hlogin
  | asked hnone =>
    have hu : users login = u := hagreed login u List.mem_cons_self
    have hseen : login ∉ seen := by
      intro hseen
      rw [hnone, if_pos hseen] at hlogin
      cases hlogin
    rw [if_neg hseen]
    exact ⟨rfl, hu, recalled_insert hrecalled hu⟩

lemma posting?_deed (hu : users x.author = u) (r : Except Failure Jira.Comment) :
    (x.deed key u r).posting? = some (x.posting key users) := by
  subst hu
  cases x <;> rfl

lemma wrote_planned (h : Wrote key known x (.ok known') deeds)
    (hrecalled : Recalled users seen known) (hagreed : Agreed users deeds) :
    deeds.map Deed.posting? = (inquiry seen x.author ++ [x.posting key users]).map some ∧
      Recalled users (x.author :: seen) known' := by
  cases h with
  | written hlooked t =>
    obtain ⟨hlook, hu, hrecalled'⟩ := looked_inquiry hlooked hrecalled fun login u h =>
      hagreed login u (List.mem_append_left _ h)
    refine ⟨?_, hrecalled'⟩
    rw [List.map_append, List.map_append, hlook, List.map_singleton, posting?_deed hu]
    rfl

lemma unwritten_planned {e : Failure} (h : Wrote key known x (.error e) deeds)
    (hrecalled : Recalled users seen known) (hagreed : Agreed users deeds) :
    deeds.map Deed.posting? <+: (inquiry seen x.author ++ [x.posting key users]).map some := by
  cases h with
  | unknown hnone e =>
    have hseen : x.author ∉ seen := by
      intro hseen
      have hauthor := hrecalled x.author
      rw [if_pos hseen] at hauthor
      rw [CommentWrite.author, hnone] at hauthor
      cases hauthor
    unfold inquiry
    rw [if_neg hseen]
    exact ⟨[some (x.posting key users)], rfl⟩
  | refused hlooked e =>
    obtain ⟨hlook, hu, -⟩ := looked_inquiry hlooked hrecalled fun login u h =>
      hagreed login u (List.mem_append_left _ h)
    rw [List.map_append, List.map_append, hlook, List.map_singleton, posting?_deed hu]
    exact List.prefix_refl _

lemma failure_count (o : CommentOutcome) (x : CommentWrite) : (o.count x).failure = o.failure := by
  cases x <;> rfl

lemma delivered_planned (h : Delivered key known ws o deeds) (hrecalled : Recalled users seen known)
    (hagreed : Agreed users deeds) :
    deeds.map Deed.posting? <+: (planned users key seen ws).map some ∧
      (o.failure = none → deeds.map Deed.posting? = (planned users key seen ws).map some) := by
  induction h generalizing seen with
  | done => exact ⟨List.prefix_refl _, fun _ => rfl⟩
  | stopped hwrote =>
    refine ⟨(unwritten_planned hwrote hrecalled hagreed).trans ?_, nofun⟩
    rw [planned_cons]
    exact (List.prefix_append _ _).map some
  | @next _ _ x ws o deeds deeds' hwrote _ ih =>
    obtain ⟨hcalls, hrecalled'⟩ := wrote_planned hwrote hrecalled fun login u h =>
      hagreed login u (List.mem_append_left _ h)
    obtain ⟨hfront, hwhole⟩ := ih hrecalled' fun login u h =>
      hagreed login u (List.mem_append_right _ h)
    rw [failure_count, planned_cons, List.map_append, List.map_append, hcalls]
    refine ⟨(List.prefix_append_right_inj _).mpr hfront, fun hnone => ?_⟩
    rw [hwhole hnone]

/-! ## Users that are found -/

/-- A user was known, or was found by one of the calls. -/
def Found (known : Dictionary GitHub.User) (deeds : List Deed) (login : String) (u : GitHub.User) :
    Prop :=
  known.get? login = some u ∨ .user login (.ok u) ∈ deeds

lemma looked_found (h : Looked known login u known' look) :
    known'.get? login = some u ∧
      ∀ other v, known'.get? other = some v ↔ Found known look other v := by
  unfold Found
  cases h with
  | known hknown => exact ⟨hknown, fun other v => by simp⟩
  | asked hnone =>
    refine ⟨Dictionary.get?_insert_self known login u, fun other v => ?_⟩
    by_cases heq : other = login
    · rw [heq, Dictionary.get?_insert_self, hnone]
      simp [eq_comm]
    · rw [Dictionary.get?_insert_of_ne known u heq]
      simp [heq]

lemma user_notMem_deed (key : String) (u : GitHub.User) (x : CommentWrite)
    (r : Except Failure Jira.Comment) (login : String) (r' : Except Failure GitHub.User) :
    .user login r' ∉ [x.deed key u r] := by
  cases x <;> simp [CommentWrite.deed]

/-- The users that are known after a comment are those that were found until then. -/
lemma wrote_found (h : Wrote key known x (.ok known') deeds) (login : String) (u : GitHub.User) :
    known'.get? login = some u ↔ Found known deeds login u := by
  cases h with
  | written hlooked t =>
    unfold Found
    rw [(looked_found hlooked).2, List.mem_append,
      or_iff_left (user_notMem_deed key _ x _ login (.ok u))]
    rfl

/-- What the later comments find with the users known by then is what all comments find. -/
lemma found_next {deeds' : List Deed} (h : Wrote key known x (.ok known') deeds) :
    Found known' deeds' login u ↔ Found known (deeds ++ deeds') login u := by
  unfold Found
  rw [wrote_found h, List.mem_append, ← or_assoc]
  rfl

/-- The users that are known, and anyone for other logins. -/
def usersOf (known : Dictionary GitHub.User) (login : String) : GitHub.User :=
  (known.get? login).getD default

lemma usersOf_of_get? (h : known.get? login = some u) : usersOf known login = u := by
  unfold usersOf
  rw [h]
  rfl

/-- However the calls go, users can be given that agree with all answers. -/
lemma consistent_of_delivered (h : Delivered key known ws o deeds) :
    ∃ users : String → GitHub.User, ∀ login u, Found known deeds login u → users login = u := by
  induction h with
  | done known =>
    refine ⟨usersOf known, fun login u hu => usersOf_of_get? ?_⟩
    exact hu.resolve_right List.not_mem_nil
  | @stopped known x ws e deeds hwrote =>
    cases hwrote with
    | unknown hnone e =>
      refine ⟨usersOf known, fun login u hu => usersOf_of_get? ?_⟩
      exact hu.resolve_right (by simp)
    | @refused _ known' look hlooked e =>
      refine ⟨usersOf known', fun login u hu => usersOf_of_get? ?_⟩
      rw [(looked_found hlooked).2]
      refine hu.imp_right fun hmem => (List.mem_append.mp hmem).resolve_right ?_
      exact user_notMem_deed key _ x _ login (.ok u)
  | next hwrote _ ih =>
    obtain ⟨users, husers⟩ := ih
    exact ⟨users, fun login u hu => husers login u ((found_next hwrote).mpr hu)⟩

lemma eq_user_of_looked (h : Looked known login u known' look) :
    ∀ d ∈ look, d = .user login (.ok u) := by
  cases h with
  | known => exact fun d hd => absurd hd List.not_mem_nil
  | asked => exact fun d hd => List.mem_singleton.mp hd

lemma signed_of_looked {t : Except Failure Jira.Comment}
    (h : Looked known x.source.author u known' look) :
    ∀ d ∈ look ++ [x.deed key u t], d.isWrite = true →
      ∃ v, Found known (look ++ [x.deed key u t]) x.author v ∧
        d.posting? = some (x.posting key fun _ => v) := by
  intro d hd hwrite
  rcases List.mem_append.mp hd with hd | hd
  · rw [eq_user_of_looked h d hd] at hwrite
    cases hwrite
  · obtain ⟨hu, hfound⟩ := looked_found h
    refine ⟨u, ((hfound _ u).mp hu).imp_right (List.mem_append_left _), ?_⟩
    have hsame : (fun _ => u : String → GitHub.User) x.author = u := rfl
    rw [List.mem_singleton.mp hd]
    exact posting?_deed hsame t

lemma signed_of_wrote (h : Wrote key known x r deeds) :
    ∀ d ∈ deeds, d.isWrite = true → ∃ u, Found known deeds x.author u ∧
      d.posting? = some (x.posting key fun _ => u) := by
  cases h with
  | unknown => simp [Deed.isWrite]
  | refused hlooked e => exact signed_of_looked hlooked
  | written hlooked t => exact signed_of_looked hlooked

lemma signed_of_delivered (h : Delivered key known ws o deeds) :
    ∀ d ∈ deeds, d.isWrite = true → ∃ x ∈ ws, ∃ u, Found known deeds x.author u ∧
      d.posting? = some (x.posting key fun _ => u) := by
  induction h with
  | done => simp
  | stopped hwrote =>
    intro d hd hwrite
    exact ⟨_, List.mem_cons_self, signed_of_wrote hwrote d hd hwrite⟩
  | next hwrote _ ih =>
    intro d hd hwrite
    rcases List.mem_append.mp hd with hd | hd
    · obtain ⟨u, hu, hposting⟩ := signed_of_wrote hwrote d hd hwrite
      exact ⟨_, List.mem_cons_self, u, hu.imp_right (List.mem_append_left _), hposting⟩
    · obtain ⟨x, hx, u, hu, hposting⟩ := ih d hd hwrite
      exact ⟨x, List.mem_cons_of_mem _ hx, u, (found_next hwrote).mp hu, hposting⟩

/-! ## The first failure -/

lemma ends_append {f : Option Failure} {deeds' : List Deed}
    (h : ∀ d ∈ deeds, d.failure? = none) (h' : Ends f deeds') : Ends f (deeds ++ deeds') := by
  constructor
  · intro d hd
    rw [List.dropLast_append] at hd
    split at hd
    · exact h d (List.dropLast_subset _ hd)
    · rcases List.mem_append.mp hd with hd | hd
      · exact h d hd
      · exact h'.stops d hd
  · rw [List.getLast?_append, ← h'.failure]
    cases hlast : deeds'.getLast? with
    | some d => rfl
    | none =>
      rw [Option.none_or, Option.bind_none, Option.bind_eq_none_iff]
      exact fun d hd => h d (List.mem_of_getLast? hd)

lemma looked_failure? (h : Looked known login u known' look) : ∀ d ∈ look, d.failure? = none := by
  intro d hd
  rw [eq_user_of_looked h d hd]
  rfl

lemma ends_of_wrote (h : Wrote key known x r deeds) :
    Ends (match r with | .ok _ => none | .error e => some e) deeds := by
  cases h with
  | unknown hnone e => exact ⟨by simp, rfl⟩
  | refused hlooked e =>
    refine ends_append (looked_failure? hlooked) ⟨by simp, ?_⟩
    cases x <;> rfl
  | written hlooked t =>
    refine ends_append (looked_failure? hlooked) ⟨by simp, ?_⟩
    cases x <;> rfl

lemma wrote_failure? (h : Wrote key known x (.ok known') deeds) :
    ∀ d ∈ deeds, d.failure? = none := by
  cases h with
  | written hlooked t =>
    intro d hd
    rcases List.mem_append.mp hd with hd | hd
    · exact looked_failure? hlooked d hd
    · rw [List.mem_singleton.mp hd]
      cases x <;> rfl

lemma ends_of_delivered (h : Delivered key known ws o deeds) : Ends o.failure deeds := by
  induction h with
  | done => exact ⟨by simp, rfl⟩
  | stopped hwrote => exact ends_of_wrote hwrote
  | next hwrote _ ih =>
    rw [failure_count]
    exact ends_append (wrote_failure? hwrote) ih

/-! ## The comments of an issue -/

lemma inOrder_of_delivered (h : Delivered key [] ws o deeds) : InOrder key ws o deeds := by
  have hrecalled : ∀ users, Recalled users [] [] := fun users login => rfl
  have hfound : ∀ login u, Found [] deeds login u ↔ .user login (.ok u) ∈ deeds := by
    intro login u
    exact or_iff_right nofun
  refine ⟨?_, ?_, ?_, ?_, ends_of_delivered h⟩
  · obtain ⟨users, husers⟩ := consistent_of_delivered h
    exact ⟨users, fun login u hu => husers login u ((hfound login u).mpr hu)⟩
  · exact fun users husers => (delivered_planned h (hrecalled users) husers).1
  · exact fun hnone users husers => (delivered_planned h (hrecalled users) husers).2 hnone
  · simpa only [hfound] using signed_of_delivered h

lemma synced_mono {Posts Posts' : List CommentWrite → CommentOutcome → List Deed → Prop}
    (h : Synced p g j Posts o deeds) (hposts : ∀ ws o deeds, Posts ws o deeds → Posts' ws o deeds) :
    Synced p g j Posts' o deeds := by
  cases h with
  | quiet hzero => exact .quiet hzero
  | unlisted hzero e => exact .unlisted hzero e
  | unplanned hzero hplan => exact .unplanned hzero hplan
  | planned hzero hplan h => exact .planned hzero hplan (hposts _ _ _ h)

/-- Whatever calls fail, those made for a plan are the planned ones in their order, up to the first
one that fails, and each comment is written with the user that was found for its author. The work on
an issue makes them for the plan of its comments, once these are listed. -/
theorem comments_in_order (p : Pass σ) :
    (∀ users key (plan : CommentPlan),
        Scheduled users key plan (planned users key [] plan.writes)) ∧
      (∀ key (plan : CommentPlan), Notes (p.watched.writeComments key [] plan.writes)
        (p.writeComments key [] plan.writes) (InOrder key plan.writes)) ∧
      ∀ g j, Notes (p.watched.workOnComments g j) (p.workOnComments g j)
        (Synced p g j (InOrder j.key)) := by
  refine ⟨scheduled_planned, fun key plan => ?_, fun g j => ?_⟩
  · exact notes_mono (writeComments_notes p key [] plan.writes) fun o deeds =>
      inOrder_of_delivered
  · exact notes_mono (workOnComments_notes p g j) fun o deeds h =>
      synced_mono h fun ws o deeds => inOrder_of_delivered

end Proofs

end IssueBridge
