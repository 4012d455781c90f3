import BookCatalog.Html.Position

/-!
# Equality of trees

Whether two trees of a page are equal can be decided by walking through both, so a statement about a page
that is given can be checked by reading the page.
-/

namespace BookCatalog.Html

mutual

/-- Decides whether two elements are equal. -/
def Element.decEq : (a b : Element) → Decidable (a = b)
  | .mk space name attrs contents, .mk space' name' attrs' contents' =>
    have := Node.decEqList contents contents'
    decidable_of_iff (space = space' ∧ name = name' ∧ attrs = attrs' ∧ contents = contents') (by simp)

/-- Decides whether two nodes are equal. -/
def Node.decEq : (a b : Node) → Decidable (a = b)
  | .element e, .element e' =>
    have := e.decEq e'
    decidable_of_iff (e = e') (by simp)
  | .text s, .text s' => decidable_of_iff (s = s') (by simp)
  | .comment s, .comment s' => decidable_of_iff (s = s') (by simp)
  | .fragment contents, .fragment contents' =>
    have := Node.decEqList contents contents'
    decidable_of_iff (contents = contents') (by simp)
  | .element _, .text _ | .element _, .comment _ | .element _, .fragment _
  | .text _, .element _ | .text _, .comment _ | .text _, .fragment _
  | .comment _, .element _ | .comment _, .text _ | .comment _, .fragment _
  | .fragment _, .element _ | .fragment _, .text _ | .fragment _, .comment _ => isFalse nofun

/-- Decides whether two lists of nodes are equal. -/
def Node.decEqList : (as bs : List Node) → Decidable (as = bs)
  | [], [] => isTrue rfl
  | a :: as, b :: bs =>
    have := a.decEq b
    have := Node.decEqList as bs
    decidable_of_iff (a = b ∧ as = bs) (by simp)
  | [], _ :: _ | _ :: _, [] => isFalse nofun

end

instance : DecidableEq Element := Element.decEq
instance : DecidableEq Node := Node.decEq

deriving instance DecidableEq for Spot
deriving instance DecidableEq for Position

end BookCatalog.Html
