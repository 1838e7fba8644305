import IssueBridge.Proofs.Exchanges
import IssueBridge.Proofs.LinkHeader

/-!
# From page to page

Each page names the next one, and the last one names none. Following the names yields the entries of
all pages, with one request for each, or fails at the page that cannot be had.
-/

namespace IssueBridge

variable {σ α : Type}

namespace GitHub

def Client.watched (c : Client σ) : Client (Watched σ Http.Request) :=
  { c with connection := c.connection.watched }

/-- A page: the request for it, the reply, and the entries in its body. -/
structure Page where
  request : Http.Request
  reply : Http.Reply
  items : List Json

/-- No header of the page has a link to a next page. -/
def Page.Ends (p : Page) : Prop :=
  p.reply.header? "link" = none ∨
    ∃ links, p.reply.header? "link" = some (linkHeader links) ∧ links.filter Link.isNext = []

variable {c : Client σ} {form : Json.Form α} {address address' : String}
  {query query' : List (String × String)} {w u v : World σ} {p : Page} {pages : List Page}

/-! ## One page -/

end GitHub

end IssueBridge
