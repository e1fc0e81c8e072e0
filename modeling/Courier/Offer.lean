/-!
# Streams as their readers see them

At any moment a stream offers its oldest item, or nothing yet, or it has come to its end.
-/

namespace Courier

/-- What a stream has to offer. -/
inductive Offer (α : Type) where
  /-- Nothing yet. -/
  | nothing
  /-- An item. -/
  | item (a : α)
  /-- Nothing any more. -/
  | ended
deriving DecidableEq, Repr

end Courier
