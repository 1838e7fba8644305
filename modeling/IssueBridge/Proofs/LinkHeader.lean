import IssueBridge.GitHub.Client
import IssueBridge.Proofs.HeaderRoundTrip

/-!
# The header that names other pages

The header is a list of links with commas between them. A link is an address in angle brackets and
parameters behind semicolons. Read back, the next page is the address of the first link that has the
parameter for it.
-/

namespace IssueBridge.GitHub

/-- No mark of the header stands in a part of a link. -/
def Plain (part : List Char) : Prop :=
  ∀ c ∈ part, c ≠ ',' ∧ c ≠ ';' ∧ c ≠ '<' ∧ c ≠ '>'

instance (part : List Char) : Decidable (Plain part) :=
  List.decidableBAll _ _

/-- A link, with the blanks around its brackets. Blanks around parameters are theirs. -/
structure Link where
  lead : List Char := []
  address : List Char
  gap : List Char := []
  parameters : List (List Char)
  lead_blank : lead.all Text.isBlank = true := by decide
  address_plain : Plain address := by decide
  gap_blank : gap.all Text.isBlank = true := by decide
  parameters_plain : ∀ p ∈ parameters, Plain p := by decide

namespace Link

/-- The address in its brackets, with the blanks around. -/
def front (l : Link) : List Char :=
  l.lead ++ '<' :: (l.address ++ '>' :: l.gap)

def text (l : Link) : List Char :=
  l.front ++ l.parameters.flatMap (';' :: ·)

/-- The link has the parameter of the next page. -/
def isNext (l : Link) : Bool :=
  l.parameters.any fun p => Text.trim p == "rel=\"next\"".toList

end Link

def linkHeader (links : List Link) : String :=
  String.ofList ([','].intercalate (links.map Link.text))

namespace Link

variable {l : Link}

end Link

end IssueBridge.GitHub
