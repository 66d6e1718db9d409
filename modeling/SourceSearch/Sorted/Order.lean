/-!
# Orders to sort by
-/

namespace SourceSearch

/-- A strict order that sorts: it is transitive, and of two different values one is smaller. -/
class SortOrder (α : Type) [LT α] : Prop where
  /-- Nothing is smaller than itself. -/
  irrefl : ∀ a : α, ¬ a < a
  /-- What is smaller than something smaller is smaller. -/
  trans : ∀ {a b c : α}, a < b → b < c → a < c
  /-- Values of which neither is smaller are equal. -/
  connected : ∀ {a b : α}, ¬ a < b → ¬ b < a → a = b

instance : SortOrder String where
  irrefl := String.lt_irrefl
  trans := String.lt_trans
  connected := fun h k => Std.Trichotomous.trichotomous _ _ h k

instance : SortOrder Nat where
  irrefl := Nat.lt_irrefl
  trans := Nat.lt_trans
  connected := fun h k => Nat.le_antisymm (Nat.le_of_not_lt k) (Nat.le_of_not_lt h)

end SourceSearch
