import FormCompiler.Proofs.Json.RoundTrip

/-!
# The numbers of documents

All numbers of a document that was read can be written again: a whole number has 64 bits and any
other one is finite.  Every step of the reader keeps this.
-/

namespace FormCompiler

mutual

/-- Whether all numbers of a document can be written. -/
def Node.IsWritable : Node → Prop
  | .null => True
  | .boolean _ => True
  | .number none => True
  | .number (some value) => value.IsWritable
  | .text _ => True
  | .array items => items.AreWritable
  | .object members => members.HaveWritable
  | .broken _ _ _ => True

/-- Whether all numbers of some items can be written. -/
def Items.AreWritable : Items → Prop
  | .done _ => True
  | .more head rest => head.IsWritable ∧ rest.AreWritable

/-- Whether all numbers of some members can be written. -/
def Members.HaveWritable : Members → Prop
  | .done _ => True
  | .more _ value rest => value.IsWritable ∧ rest.HaveWritable
  | .stray value => value.IsWritable

end

namespace Json

theorem isWritable_of_numberOf {negative isWhole : Bool} {whole fraction : List Char}
    {exponent : Int} {number : JsonNumber}
    (h : numberOf negative isWhole whole fraction exponent = some number) :
    number.IsWritable := by
  have hsignificand : (takeSignificand 0 whole).1 < UInt64.size := takeSignificand_lt (by decide) _
  unfold numberOf at h
  dsimp only at h
  generalize (takeSignificand 0 whole).1 = significand at h hsignificand
  generalize hsigned : (if negative = true then -(significand : Int) else significand) = signed at h
  split at h
  · next hwhole =>
    simp only [Bool.and_eq_true, decide_eq_true_eq] at hwhole
    obtain rfl := Option.some.inj h
    refine ⟨hwhole.2, ?_⟩
    rw [← hsigned]
    split <;> omega
  · split at h
    · next hfinite =>
      obtain rfl := Option.some.inj h
      have hbelow := Binary64.magnitude_lt_of_isFinite hfinite
      exact (Binary64.isFinite_ofMagnitude_iff (le_of_lt hbelow)).mpr hbelow
    · cases h

theorem exists_numberOf_of_readNumber {input rest : List Char} {number : Option JsonNumber}
    (h : readNumber input = .ok (number, rest)) :
    ∃ negative isWhole whole fraction exponent,
      number = numberOf negative isWhole whole fraction exponent := by
  unfold readNumber at h
  dsimp only at h
  generalize takeOne (· == '-') input = sign at h
  generalize Numeral.takeDigits sign.2 = whole at h
  generalize takeOne (· == '.') whole.2 = point at h
  generalize (if point.1 then Numeral.takeDigits point.2 else ([], whole.2)) = fraction at h
  generalize takeOne (fun c => c == 'e' || c == 'E') fraction.2 = mark at h
  split at h
  · cases h
  · split at h
    · cases h
    · split at h
      · cases h
      · split at h
        · cases hexponent : readExponent mark.2 with
          | error fault =>
              rw [hexponent] at h
              cases h
          | ok part =>
              rw [hexponent] at h
              obtain ⟨rfl, -⟩ := Prod.mk.inj (Except.ok.inj h)
              exact ⟨_, _, _, _, _, rfl⟩
        · obtain ⟨rfl, -⟩ := Prod.mk.inj (Except.ok.inj h)
          exact ⟨_, _, _, _, _, rfl⟩

theorem isWritable_of_readNumber {input rest : List Char} {number : Option JsonNumber}
    (h : readNumber input = .ok (number, rest)) : (Node.number number).IsWritable := by
  obtain ⟨negative, isWhole, whole, fraction, exponent, rfl⟩ := exists_numberOf_of_readNumber h
  cases hnumber : numberOf negative isWhole whole fraction exponent with
  | none => trivial
  | some value => exact isWritable_of_numberOf hnumber

/-- Every document that the reader gives in so many steps has numbers that can be written. -/
structure GivesWritable (steps : Nat) : Prop where
  node : ∀ input, (readNode steps input).1.IsWritable
  items : ∀ first input, (readItems steps first input).1.AreWritable
  item : ∀ input, (readItem steps input).1.AreWritable
  members : ∀ first input, (readMembers steps first input).1.HaveWritable
  member : ∀ input, (readMember steps input).1.HaveWritable

namespace GivesWritable

variable {steps : Nat}

theorem zero : GivesWritable 0 where
  node _ := trivial
  items _ _ := trivial
  item _ := trivial
  members _ _ := trivial
  member _ := trivial

theorem wordNode_isWritable {value : Node} (h : value.IsWritable) (word input : List Char) :
    (wordNode value word input).1.IsWritable := by
  unfold wordNode
  split
  · exact h
  · trivial

theorem node_succ (h : GivesWritable steps) (input : List Char) :
    (readNode (steps + 1) input).1.IsWritable := by
  rw [readNode]
  split
  · trivial
  split
  · split <;> trivial
  split
  · exact h.items true _
  split
  · exact h.members true _
  split
  · exact wordNode_isWritable (show Node.null.IsWritable from trivial) _ _
  split
  · exact wordNode_isWritable (show (Node.boolean true).IsWritable from trivial) _ _
  split
  · exact wordNode_isWritable (show (Node.boolean false).IsWritable from trivial) _ _
  split
  · split
    · next hnumber => exact isWritable_of_readNumber hnumber
    · trivial
  · trivial

theorem succ (h : GivesWritable steps) : GivesWritable (steps + 1) where
  node := h.node_succ
  items first input := by
    rw [readItems]
    split
    · trivial
    · trivial
    · split
      · exact h.item _
      · split
        · split
          · trivial
          · trivial
          · exact h.item _
        · trivial
  item input := by
    rw [readItem]
    have hhead := h.node input
    split
    · next heq =>
      rw [heq] at hhead
      exact ⟨hhead, trivial⟩
    · next heq =>
      rw [heq] at hhead
      exact ⟨hhead, h.items false _⟩
  members first input := by
    rw [readMembers]
    split
    · trivial
    · trivial
    · split
      · split
        · exact h.member _
        · exact h.node _
      · split
        · split
          · trivial
          · exact h.member _
          · trivial
        · trivial
  member input := by
    rw [readMember]
    split
    · exact ⟨trivial, trivial⟩
    · split
      · exact ⟨trivial, trivial⟩
      · next after _ =>
        have hvalue := h.node after
        split
        · next heq =>
          rw [heq] at hvalue
          exact ⟨hvalue, trivial⟩
        · next heq =>
          rw [heq] at hvalue
          exact ⟨hvalue, h.members false _⟩
      · exact ⟨trivial, trivial⟩

end GivesWritable

theorem givesWritable (steps : Nat) : GivesWritable steps := by
  induction steps with
  | zero => exact GivesWritable.zero
  | succ steps ih => exact ih.succ

/-- All numbers of a text can be written again. -/
theorem isWritable_read (input : String) : (read input).1.IsWritable := by
  have hnode := (givesWritable (3 * input.toList.length + 3)).node input.toList
  unfold read
  dsimp only
  split <;>
  · next heq =>
    rw [heq] at hnode
    exact hnode

end Json

end FormCompiler
