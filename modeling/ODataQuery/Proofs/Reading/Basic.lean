import ODataQuery.Expr.Reader
import ODataQuery.Proofs.Result

/-!
# Steps of a reader

When the common steps of the readers succeed, and where they leave the cursor.
-/

namespace ODataQuery

theorem Frame.mem_of_find? {scope : List Frame} {name : String} {frame : Frame}
    (h : find? scope name = some frame) : frame ∈ scope ∧ frame.name = name :=
  ⟨List.mem_of_find?_eq_some h, by simpa using List.find?_some h⟩

namespace Reading

variable {α β : Type} {c c' : Cursor}

theorem bind_eq_ok {r : Reading α} {f : α → Reading β} {y : β} :
    (r >>= f) c = .ok (y, c') ↔ ∃ a c₁, r c = .ok (a, c₁) ∧ f a c₁ = .ok (y, c') :=
  Result.run_bind_eq_ok

@[simp]
theorem current_bind (f : Token → Reading β) : (current >>= f) c = f c.current c := rfl

@[simp]
theorem remaining_bind (f : Nat → Reading β) : (remaining >>= f) c = f c.rest.length c := rfl

@[simp]
theorem pure_eq_ok {x y : α} : (pure x : Reading α) c = .ok (y, c') ↔ x = y ∧ c = c' := by
  simp

@[simp]
theorem advance_eq_ok {t : Token} :
    advance c = .ok (t, c') ↔ c.current = t ∧ c.advance = .ok c' := by
  cases h : c.advance <;> simp [advance, h]

@[simp]
theorem nextToken_eq_ok {t : Token} :
    nextToken c = .ok (t, c') ↔ c.peek = .ok t ∧ c = c' := by
  cases h : c.peek <;> simp [nextToken, h]

@[simp]
theorem outcome_eq_ok {result : Except ParseError α} {x : α} :
    outcome result c = .ok (x, c') ↔ result = .ok x ∧ c = c' := by
  cases result <;> simp [outcome, Except.map]

theorem advance_bind_eq_ok {f : Token → Reading β} {y : β} :
    (advance >>= f) c = .ok (y, c') ↔
      ∃ c₁, c.advance = .ok c₁ ∧ f c.current c₁ = .ok (y, c') := by
  simp [bind_eq_ok, and_assoc]

theorem ite_eq_ok {p : Prop} [Decidable p] {r r' : Reading α} {x : α} :
    (if p then r else r') c = .ok (x, c') ↔
      p ∧ r c = .ok (x, c') ∨ ¬p ∧ r' c = .ok (x, c') := by
  by_cases hp : p <;> simp [hp]

end Reading

namespace Setting

variable {α : Type} {setting : Setting} {c c' : Cursor}

@[simp]
theorem fail_ne_ok {fault : ParseFault} {offset : Nat} {x : α} :
    ¬setting.fail fault offset c = .ok (x, c') := by
  simp [fail]

@[simp]
theorem unexpected_ne_ok {expected : String} {x : α} :
    ¬setting.unexpected expected c = .ok (x, c') := by
  simp [unexpected, Reading.ite_eq_ok]

@[simp]
theorem mismatch_ne_ok {m : Mismatch} {offset : Nat} {x : α} :
    ¬setting.mismatch m offset c = .ok (x, c') := by
  simp [mismatch]

@[simp]
theorem expect_eq_ok {kind : TokenKind} {expected : String} {t : Token} :
    setting.expect kind expected c = .ok (t, c') ↔
      c.current.kind = kind ∧ c.current = t ∧ c.advance = .ok c' := by
  simp [expect, Reading.ite_eq_ok]

end Setting

end ODataQuery
