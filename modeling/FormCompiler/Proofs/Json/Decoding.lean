import FormCompiler.Json.Decoder
import FormCompiler.Proofs.Json.Documents

/-!
# Typed readers

A typed reader keeps what is true of all documents it may be given: a property of the defaults that
every field keeps is a property of the record that is read.  In the other direction, a reader gives
back what was written for it, and so do the readers of lists, of optional values and of records
that are put together from such readers.
-/

namespace FormCompiler

/-! ## What typed readers keep -/

theorem JsonNumber.isFinite_toBinary64 {number : JsonNumber} (h : number.IsWritable) :
    number.toBinary64.isFinite = true := by
  cases number with
  | whole value =>
      obtain ⟨hlow, hhigh⟩ := h
      have hmin : Int64.minValue.toInt = -9223372036854775808 := rfl
      have hmax : (UInt64.size : Int) = 18446744073709551616 := rfl
      exact Binary64.isFinite_ofInt (by omega)
  | real x => exact h

theorem Node.isFinite_of_readReal {node : Node} (h : node.IsWritable) {x : Binary64}
    (hread : node.readReal = .ok x) : x.isFinite = true := by
  unfold readReal at hread
  split at hread
  · cases hread
    exact JsonNumber.isFinite_toBinary64 h
  · cases hread

section Keeps

variable {α ρ : Type}

/-- What the reader gives for a document that can be written has the property. -/
def Keeps (reader : Node → Except Fault α) (p : α → Prop) : Prop :=
  ∀ node : Node, node.IsWritable → ∀ a, reader node = .ok a → p a

theorem Keeps.readOptional {reader : Node → Except Fault α} {p : α → Prop} (h : Keeps reader p) :
    Keeps (Node.readOptional reader) fun found => ∀ a ∈ found, p a := by
  intro node hnode found hread
  unfold Node.readOptional at hread
  split at hread
  · cases hread
    exact fun a hmem => absurd hmem (Option.not_mem_none a)
  · cases hread
  · cases hinner : reader node with
    | error fault =>
        rw [hinner] at hread
        cases hread
    | ok a =>
        rw [hinner] at hread
        cases hread
        rintro _ ⟨⟩
        exact h node hnode a hinner

theorem exists_of_bind_eq_ok {β ε : Type} {step : Except ε α} {next : α → Except ε β} {b : β}
    (h : step >>= next = .ok b) : ∃ a, step = .ok a ∧ next a = .ok b := by
  cases step with
  | error fault => cases h
  | ok a => exact ⟨a, rfl, h⟩

theorem exists_of_map_eq_ok {β ε : Type} {step : Except ε α} {f : α → β} {b : β}
    (h : step.map f = .ok b) : ∃ a, step = .ok a ∧ f a = b := by
  cases step with
  | error fault => cases h
  | ok a => exact ⟨a, rfl, Except.ok.inj h⟩

theorem mapError_eq_ok_iff {β ε ε' : Type} {step : Except ε β} {f : ε → ε'} {b : β} :
    step.mapError f = .ok b ↔ step = .ok b := by
  cases step <;> simp [Except.mapError]

theorem Keeps.readAll {reader : Node → Except Fault α} {p : α → Prop} (h : Keeps reader p) :
    ∀ items : Items, items.AreWritable → ∀ list, items.readAll reader = .ok list →
      ∀ a ∈ list, p a
  | .done ending, _, list, hread => by
      obtain ⟨-, -, rfl⟩ := exists_of_map_eq_ok hread
      exact fun a hmem => absurd hmem List.not_mem_nil
  | .more head rest, hitems, list, hread => by
      obtain ⟨first, hfirst, hread⟩ := exists_of_bind_eq_ok hread
      obtain ⟨others, hothers, hread⟩ := exists_of_bind_eq_ok hread
      obtain rfl := Except.ok.inj hread
      exact List.forall_mem_cons.mpr
        ⟨h head hitems.1 first hfirst, h.readAll rest hitems.2 others hothers⟩

theorem Keeps.readList {reader : Node → Except Fault α} {p : α → Prop} (h : Keeps reader p) :
    Keeps (Node.readList reader) fun list => ∀ a ∈ list, p a := by
  intro node hnode list hread
  unfold Node.readList at hread
  split at hread
  · exact h.readAll _ hnode list hread
  · cases hread

/-- Reading the field keeps a property of the record that is read. -/
def RecordField.Keeps (field : RecordField ρ) (p : ρ → Prop) : Prop :=
  ∀ node : Node, node.IsWritable → ∀ record record', field.read node record = .ok record' →
    p record → p record'

theorem keeps_members {fields : List (RecordField ρ)} {p : ρ → Prop}
    (h : ∀ field ∈ fields, field.Keeps p) :
    ∀ members : Members, members.HaveWritable → ∀ seen record record',
      members.readRecord fields seen record = .ok record' → p record → p record'
  | .done ending, _, seen, record, record', hread, hp => by
      unfold Members.readRecord at hread
      split at hread
      · cases hread
      · obtain ⟨-, -, hread⟩ := exists_of_bind_eq_ok hread
        obtain rfl := Except.ok.inj hread
        exact hp
  | .stray value, _, seen, record, record', hread, hp => by cases hread
  | .more name value rest, hmembers, seen, record, record', hread, hp => by
      obtain ⟨name, -, hread⟩ := exists_of_bind_eq_ok hread
      split at hread
      · next field hfield =>
        split at hread
        · cases hread
        · obtain ⟨between, hbetween, hread⟩ := exists_of_bind_eq_ok hread
          have hkept := h field (List.mem_of_find?_eq_some hfield) value hmembers.1 record between
            hbetween hp
          exact keeps_members h rest hmembers.2 _ between record' hread hkept
      · obtain ⟨-, -, hread⟩ := exists_of_bind_eq_ok hread
        exact keeps_members h rest hmembers.2 seen record record' hread hp

theorem keeps_items {p : ρ → Prop} :
    ∀ (fields : List (RecordField ρ)) (items : Items), (∀ field ∈ fields, field.Keeps p) →
      items.AreWritable → ∀ record record',
        items.readRecord fields record = .ok record' → p record → p record'
  | [], items, _, _, record, record', hread, hp => by
      unfold Items.readRecord at hread
      split at hread
      · next heq =>
        obtain rfl := Except.ok.inj hread
        exact hp
      · cases hread
      · cases hread
      · contradiction
      · contradiction
  | field :: fields, .done ending, _, _, record, record', hread, hp => by
      obtain ⟨-, -, hread⟩ := exists_of_bind_eq_ok hread
      split at hread
      · cases hread
      · obtain rfl := Except.ok.inj hread
        exact hp
  | field :: fields, .more head rest, h, hitems, record, record', hread, hp => by
      obtain ⟨between, hbetween, hread⟩ := exists_of_bind_eq_ok hread
      obtain ⟨hfield, hfields⟩ := List.forall_mem_cons.mp h
      exact keeps_items fields rest hfields hitems.2 between record' hread
        (hfield head hitems.1 record between hbetween hp)

/-- A property of the defaults that every field keeps is a property of the record. -/
theorem keeps_readRecord {fields : List (RecordField ρ)} {defaults : ρ} {p : ρ → Prop}
    (h : ∀ field ∈ fields, field.Keeps p) (hdefaults : p defaults) :
    Keeps (Node.readRecord fields defaults) p := by
  intro node hnode record hread
  unfold Node.readRecord at hread
  split at hread
  · exact keeps_members h _ hnode [] defaults record hread hdefaults
  · exact keeps_items fields _ h hnode defaults record hread hdefaults
  · cases hread

end Keeps

/-! ## Readers of what was written -/

section Undoes

variable {α ρ : Type}

/-- From what is written for a value with the property, the reader gives the value back. -/
def Undoes (reader : Node → Except Fault α) (write : α → Json) (p : α → Prop) : Prop :=
  ∀ a, p a → reader (write a).toNode = .ok a

variable {reader : Node → Except Fault α} {write : α → Json} {p : α → Prop}

/-- What is written for a value must differ from what is written for none. -/
theorem Undoes.readOptional (h : Undoes reader write p) (hnull : ∀ a, p a → write a ≠ .null) :
    Undoes (Node.readOptional reader) (Json.optional write) fun found => ∀ a ∈ found, p a := by
  intro found hfound
  cases found with
  | none => rfl
  | some a =>
      have hread := h a (hfound a rfl)
      have hne := hnull a (hfound a rfl)
      rw [Json.optional]
      generalize write a = written at hread hne
      cases written with
      | null => exact absurd rfl hne
      | _ =>
          simp only [Json.toNode] at hread ⊢
          simp only [Node.readOptional, hread]
          rfl

theorem Undoes.readList (h : Undoes reader write p) :
    Undoes (Node.readList reader) (fun list => .array (list.map write)) fun list =>
      ∀ a ∈ list, p a := by
  intro list hlist
  simp only [Json.toNode, Node.readList]
  induction list with
  | nil => rfl
  | cons first others ih =>
      obtain ⟨hfirst, hothers⟩ := List.forall_mem_cons.mp hlist
      rw [List.map_cons, Json.toItems, Items.readAll, h first hfirst, ih hothers]
      rfl

/-- A member whose name is the name of a field goes to that field. -/
theorem readRecord_toMembers_cons {fields : List (RecordField ρ)} {field : RecordField ρ}
    {name : String} {seen : List String}
    (hfield : (fields.find? fun f => f.name == name) = some field)
    (hseen : seen.contains name = false) {value : Json} {record between : ρ}
    (hread : field.read value.toNode record = .ok between) (rest : List (String × Json)) :
    (Json.toMembers ((name, value) :: rest)).readRecord fields seen record =
      (Json.toMembers rest).readRecord fields (name :: seen) between := by
  rw [Json.toMembers, Members.readRecord]
  simp only [bind, Except.bind, hfield, hseen, hread]
  rfl

/-- The field of a member stores the value that was written. -/
theorem readRecord_withDefault {fields : List (RecordField ρ)} {store : α → ρ → ρ}
    {name : String} {seen : List String}
    (hfield : (fields.find? fun f => f.name == name) =
      some (RecordField.withDefault name reader store))
    (hseen : seen.contains name = false) {a : α} {value : Json}
    (hread : reader value.toNode = .ok a) (record : ρ) (rest : List (String × Json)) :
    (Json.toMembers ((name, value) :: rest)).readRecord fields seen record =
      (Json.toMembers rest).readRecord fields (name :: seen) (store a record) := by
  have hstore : (RecordField.withDefault name reader store).read value.toNode record =
      (reader value.toNode).map fun value => store value record := rfl
  rw [hread] at hstore
  exact readRecord_toMembers_cons hfield hseen hstore rest

/-- A member that is left out leaves the record as it is, where that already has no such value. -/
theorem readRecord_toList {fields : List (RecordField ρ)} {store : Option α → ρ → ρ}
    {name : String} {seen : List String}
    (hfield : (fields.find? fun f => f.name == name) =
      some (RecordField.withDefault name (Node.readOptional reader) store))
    (hseen : seen.contains name = false) {found : Option α}
    (hread : ∀ a ∈ found, Node.readOptional reader (write a).toNode = .ok (some a)) {record : ρ}
    (hnone : store none record = record) (rest : List (String × Json)) :
    (Json.toMembers ((found.toList.map fun a => (name, write a)) ++ rest)).readRecord fields seen
        record =
      (Json.toMembers rest).readRecord fields ((found.toList.map fun _ => name) ++ seen)
        (store found record) := by
  cases found with
  | none =>
      rw [hnone]
      rfl
  | some a => exact readRecord_withDefault hfield hseen (hread a rfl) record rest

/-- When the members end, nothing may be missing. -/
theorem readRecord_toMembers_nil {fields : List (RecordField ρ)} {seen : List String}
    (hfields : ∀ field ∈ fields, field.required = false) (record : ρ) :
    (Json.toMembers []).readRecord fields seen record = .ok record := by
  have hnone : (fields.any fun f => f.required && !seen.contains f.name) = false := by
    simp only [List.any_eq_false, Bool.and_eq_true, not_and]
    intro field hmem hrequired
    rw [hfields field hmem] at hrequired
    cases hrequired
  rw [Json.toMembers, Members.readRecord, hnone]
  rfl

end Undoes

end FormCompiler
