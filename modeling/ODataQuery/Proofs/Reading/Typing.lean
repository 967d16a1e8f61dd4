import ODataQuery.Proofs.Expr.Typing
import ODataQuery.Proofs.Literal.Reading
import ODataQuery.Proofs.Metadata.AllowList
import ODataQuery.Proofs.Reading.Derivation

/-!
# What is read is typed

The parts of every expression that is read fit together. The rules of reading check each node while
its text is at hand; here the text is forgotten.

## Main statements

- `Setting.ReadsItems.meets` — the items of a list can be compared with the operand
- `Setting.Reads.typed` — what is read is typed
- `Expr.typed_of_readFilter` — the same for a complete predicate
-/

namespace ODataQuery

namespace Setting

variable {setting : Setting}

/-- A literal that is read where a type is expected, and can be compared with it, meets it. -/
theorem meets_of_literal? {type : StaticType} {t : Token} {v : Value}
    (hv : t.literal? (some type) = .ok (some v))
    (h : type.isComparableWith (v.typeAgainst (some type)) = true) : type.Meets v := by
  obtain ⟨_, hliteral⟩ := Token.literal?_eq_ok.mp hv
  refine Expr.meets_of_isComparableWith h fun T e hT he hname => ?_
  subst hT he
  exact Value.exists_members_of_ofLiteral hliteral hname

/-- The items of a list are not `null` and can be compared with the operand. -/
theorem ReadsItems.meets {type : StaticType} {limit : Nat} {c c' : Cursor} {vs : List Value}
    (h : ReadsItems type limit c vs c') : ∀ v ∈ vs, v.isNull = false ∧ type.Meets v := by
  induction h with
  | exhausted =>
    intro v hv
    cases hv
  | last hv hnull htype _ _ =>
    exact List.forall_mem_singleton.mpr ⟨hnull, meets_of_literal? hv htype⟩
  | more hv hnull htype _ _ _ _ ih =>
    exact List.forall_mem_cons.mpr ⟨⟨hnull, meets_of_literal? hv htype⟩, ih⟩

/-- A reference leads to a declared property of the entity type that it starts at. -/
theorem Refers.startsAt {scope : List Frame} {c c' : Cursor} {property : Property}
    {above : String} {origin : Option String} {token : Token}
    (h : setting.Refers scope c property above origin token c') :
    ∃ entity, Expr.startsAt? setting.entity scope origin = some entity ∧
      property ∈ entity.properties := by
  cases h with
  | root hproperty _ | it _ _ _ _ _ _ _ _ hproperty =>
    exact ⟨_, rfl, (EntityType.mem_properties_of_find? hproperty).1⟩
  | @below frame _ _ _ _ _ hframe _ _ _ _ _ hproperty =>
    have hname : frame.name = c.current.text := by simpa using List.find?_some hframe
    have hfind : Frame.find? scope frame.name = some frame := by rw [hname, hframe]
    refine ⟨frame.entity, ?_, (EntityType.mem_properties_of_find? hproperty).1⟩
    rw [Expr.startsAt?, hfind]
    rfl

mutual

/-- What is read is typed. -/
theorem Reads.typed {levels minimum : Nat} {scope : List Frame} {expected : Option StaticType}
    {c : Cursor} {e : Expr} {c' : Cursor}
    (h : setting.Reads levels minimum scope expected c e c') :
    Expr.Typed setting.entity scope e := by
  match h with
  | .intro hleft h => exact ReadsOperations.typed h (ReadsOperand.typed hleft)

theorem ReadsOperand.typed {levels : Nat} {scope : List Frame} {expected : Option StaticType}
    {c : Cursor} {e : Expr} {c' : Cursor}
    (h : setting.ReadsOperand levels scope expected c e c') :
    Expr.Typed setting.entity scope e := by
  match h with
  | .prefixed _ _ he htype => exact .unary (Reads.typed he) htype
  | .group _ _ _ he _ _ => exact Reads.typed he
  | .literal _ _ _ _ => exact .literal
  | .callNone _ _ _ _ _ _ _ _ htype => exact .call (fun _ he => absurd he List.not_mem_nil) htype
  | .callSome _ _ _ _ _ _ _ hes _ _ htype => exact .call (ReadsArguments.typed hes) htype
  | .field _ _ hrefers _ htype =>
    obtain ⟨entity, hentity, hp⟩ := hrefers.startsAt
    exact .field hentity hp htype
  | .bare _ _ hrefers _ htype _ _ _ _ _ _ _ =>
    obtain ⟨entity, hentity, hp⟩ := hrefers.startsAt
    exact .bare hentity hp htype
  | .lambda _ _ hrefers _ htype _ _ _ _ _ _ _ _ _ _ hbody hboolean _ _ =>
    obtain ⟨entity, hentity, hp⟩ := hrefers.startsAt
    exact .lambda hentity hp htype rfl (Reads.typed hbody) hboolean

theorem ReadsOperations.typed {levels minimum : Nat} {scope : List Frame} {limit : Nat}
    {left : Expr} {c : Cursor} {e : Expr} {c' : Cursor}
    (h : setting.ReadsOperations levels minimum scope limit left c e c')
    (hleft : Expr.Typed setting.entity scope left) : Expr.Typed setting.entity scope e := by
  match h with
  | .exhausted | .stop _ _ => exact hleft
  | .binary _ _ _ hright he h =>
    exact ReadsOperations.typed h (.of_combines hleft (Reads.typed hright) he)
  | .membership _ _ _ hlist h =>
    obtain ⟨_, _, _, _, _, hitems, _, _⟩ := hlist
    exact ReadsOperations.typed h (.membership hleft hitems.meets)

theorem ReadsArguments.typed {levels : Nat} {scope : List Frame} {limit : Nat} {c : Cursor}
    {es : List Expr} {c' : Cursor} (h : setting.ReadsArguments levels scope limit c es c') :
    ∀ e ∈ es, Expr.Typed setting.entity scope e := by
  match h with
  | .exhausted =>
    intro e he
    cases he
  | .last he _ => exact List.forall_mem_singleton.mpr (Reads.typed he)
  | .more he _ _ hes =>
    exact List.forall_mem_cons.mpr ⟨Reads.typed he, ReadsArguments.typed hes⟩

end

end Setting

/-- A predicate that is read is typed and Boolean. -/
theorem Expr.typed_of_readFilter {text : String} {entity : EntityType} {allowed : AllowList}
    {maxDepth : Nat} {e : Expr} (h : readFilter text entity allowed maxDepth = .ok e) :
    Typed entity [] e ∧ e.type = .boolean := by
  obtain ⟨c, c', _, _, hfilter⟩ := Setting.run_eq_ok.mp h
  obtain ⟨hreads, _, htype⟩ := Setting.filter_eq_ok.mp hfilter
  exact ⟨hreads.typed, htype⟩

end ODataQuery
