import ODataQuery.Literal.Reader
import ODataQuery.Proofs.Result

/-!
# Kinds of literals

What is known of a literal by the way it was read, without regard to its text.

## Main statements

- `Value.kind?_of_ofNumber?` — a number is of the kind that it is read as
- `Value.isNumeric_of_ofNumberLiteral?` — the kind of a number is numeric, whatever was expected
-/

namespace ODataQuery.Value

/-- A number is of the kind that it is read as. -/
theorem kind?_of_ofNumber? {kind : Kind} {cs : List Char} {v : Value}
    (h : ofNumber? kind cs = some v) : v.kind? = some kind ∧ kind.isNumeric = true := by
  cases kind with
  | byte | sbyte | int16 | int32 | int64 | single | double | decimal =>
    obtain ⟨_, _, rfl⟩ := Option.map_eq_some_iff.mp h
    exact ⟨rfl, rfl⟩
  | _ => cases h

/-- A number whose kind its text suggests is read as one of that kind. -/
theorem exists_ofNumber?_of_inferNumber? {cs : List Char} {v : Value}
    (h : inferNumber? cs = some v) : ∃ kind, ofNumber? kind cs = some v := by
  unfold inferNumber? at h
  split at h
  · split at h
    · obtain h | ⟨_, h⟩ := Option.or_eq_some_iff.mp h
      · exact ⟨_, h⟩
      · obtain h | ⟨_, h⟩ := Option.or_eq_some_iff.mp h
        · exact ⟨_, h⟩
        · exact ⟨_, h⟩
    · split at h
      · exact ⟨_, h⟩
      · exact ⟨_, h⟩
  · exact ⟨_, h⟩

/-- A number is read as one of some kind, whatever was expected. -/
theorem exists_ofNumber?_of_ofNumberLiteral? {expected : Option StaticType} {cs : List Char}
    {v : Value} (h : ofNumberLiteral? expected cs = some v) :
    ∃ kind, ofNumber? kind cs = some v := by
  obtain h | ⟨_, h⟩ := Option.or_eq_some_iff.mp h
  · obtain ⟨kind, _, h⟩ := Option.bind_eq_some_iff.mp h
    exact ⟨kind, h⟩
  · exact exists_ofNumber?_of_inferNumber? h

theorem isNumeric_of_inferNumber? {cs : List Char} {v : Value} (h : inferNumber? cs = some v) :
    ∃ kind, v.kind? = some kind ∧ kind.isNumeric = true := by
  obtain ⟨kind, h⟩ := exists_ofNumber?_of_inferNumber? h
  exact ⟨kind, kind?_of_ofNumber? h⟩

/-- The kind of a number is numeric, whatever was expected. -/
theorem isNumeric_of_ofNumberLiteral? {expected : Option StaticType} {cs : List Char} {v : Value}
    (h : ofNumberLiteral? expected cs = some v) :
    ∃ kind, v.kind? = some kind ∧ kind.isNumeric = true := by
  obtain ⟨kind, h⟩ := exists_ofNumber?_of_ofNumberLiteral? h
  exact ⟨kind, kind?_of_ofNumber? h⟩

theorem orFault_eq_ok {α : Type} {fault : LiteralFault} {x : Option α} {a : α} :
    orFault fault x = .ok a ↔ x = some a := by
  cases x <;> simp [orFault]

end ODataQuery.Value
