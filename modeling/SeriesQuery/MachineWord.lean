/-!
# Machine words

Seconds, amounts of a shift and integers of a settings file are kept in signed words of 64 bits;
what does not fit is refused where it comes up.
-/

namespace SeriesQuery

/-- Whether a number fits a signed word of 64 bits. -/
def IsWord (n : Int) : Prop := -9223372036854775808 ≤ n ∧ n ≤ 9223372036854775807

instance (n : Int) : Decidable (IsWord n) := inferInstanceAs (Decidable (_ ∧ _))

end SeriesQuery
