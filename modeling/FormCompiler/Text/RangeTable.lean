/-!
# Tables of code point ranges

A character property of a standard is a list of inclusive code point ranges in increasing
order. Membership walks the list and stops at the first range that starts beyond the code point.
-/

namespace FormCompiler.Text

/-- Inclusive ranges of code points, in increasing order. -/
abbrev RangeTable := List (Nat × Nat)

namespace RangeTable

def holds : RangeTable → Nat → Bool
  | [], _ => false
  | (low, high) :: rest, code =>
      if code < low then false
      else if code ≤ high then true
      else holds rest code

/-- Ranges that are non-empty and leave a gap between neighbours. -/
def Ordered : RangeTable → Prop
  | [] => True
  | [(low, high)] => low ≤ high
  | (low, high) :: (next, last) :: rest =>
      low ≤ high ∧ high < next ∧ Ordered ((next, last) :: rest)

theorem exists_of_holds {table : RangeTable} {code : Nat} (h : table.holds code = true) :
    ∃ range ∈ table, range.1 ≤ code ∧ code ≤ range.2 := by
  induction table with
  | nil => simp [holds] at h
  | cons range rest ih =>
      obtain ⟨low, high⟩ := range
      unfold holds at h
      split at h
      · simp at h
      · split at h
        · exact ⟨(low, high), by simp, by omega, by assumption⟩
        · obtain ⟨found, member, bounds⟩ := ih h
          exact ⟨found, List.mem_cons_of_mem _ member, bounds⟩

end RangeTable

end FormCompiler.Text
