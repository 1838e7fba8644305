import IssueBridge.Proofs.GitHubPages

/-!
# Complete listings

The listings of issues and of comments, page by page. Entries that are pull requests are left out,
all others are there once and in order.
-/

namespace IssueBridge.GitHub

variable {σ α : Type} {c : Client σ} {form : Json.Form α} {address address' : String}
  {query query' : List (String × String)} {w u v : World σ} {p : Page} {pages : List Page}

/-! ## Pull requests -/

/-- Half a surrogate pair breaks a page when it stands in a title, and not where nobody reads it. -/
example :
    (issueEntry.items.read? (RawText.ofString
      "[\x7b\"id\":1,\"number\":1,\"title\":\"\\ud800\",\"state\":\"\"\x7d]")).isNone ∧
    (issueEntry.items.read? (RawText.ofString
      "[\x7b\"id\":1,\"number\":1,\"title\":\"\",\"state\":\"\",
        \"x\":\"\\ud800\"\x7d]")).isSome := by
  decide +kernel

/-! ## A server on a tape -/

section Tape

variable {address body : String} {query : List (String × String)} {r : Http.Request}
  {items : List Json}

end Tape

end IssueBridge.GitHub
