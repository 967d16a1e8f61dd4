import ODataQuery.Proofs.Reading.Authorization

/-!
# Refusals

A text is refused with an authorization fault only if it refers to a path outside the
allow-list; under the list of all paths of the entity type that never happens.

## Main definitions

- `Reading.Unrefused` — a reading without authorization fault

## Main statements

- `Setting.expression_unrefused` — expressions are not refused under the list of all paths
- `Expr.read_iff_allowed` — authorization is exact
-/

namespace ODataQuery

namespace Reading

variable {α β : Type} {c : Cursor}

/-- A reading does not fail with an authorization fault at a cursor. -/
def Unrefused (r : Reading α) (c : Cursor) : Prop :=
  ∀ err, r c = .error err → err.fault.isAuthorization = false

theorem unrefused_of_ok {r : Reading α} {x : α × Cursor} (h : r c = .ok x) : r.Unrefused c := by
  intro err herr
  rw [h] at herr
  cases herr

theorem Unrefused.bind {r : Reading α} {f : α → Reading β} (hr : r.Unrefused c)
    (hf : ∀ a c', r c = .ok (a, c') → (f a).Unrefused c') : (r >>= f).Unrefused c := by
  intro err herr
  rw [Result.run_bind] at herr
  cases h : r c with
  | error err' =>
    rw [h] at herr
    cases herr
    exact hr _ h
  | ok x =>
    rw [h] at herr
    exact hf _ _ h err herr

theorem unrefused_current_bind {f : Token → Reading β} (h : (f c.current).Unrefused c) :
    (current >>= f).Unrefused c := h

theorem unrefused_remaining_bind {f : Nat → Reading β} (h : (f c.rest.length).Unrefused c) :
    (remaining >>= f).Unrefused c := h

theorem unrefused_pure (x : α) : (pure x : Reading α).Unrefused c := unrefused_of_ok rfl

theorem unrefused_advance : advance.Unrefused c := by
  intro err herr
  cases h : c.advance with
  | ok c' => simp [advance, h] at herr
  | error e =>
    simp only [advance, h, Except.error.injEq] at herr
    exact herr ▸ rfl

theorem unrefused_nextToken : nextToken.Unrefused c := by
  intro err herr
  cases h : c.peek with
  | ok t => simp [nextToken, h] at herr
  | error e =>
    simp only [nextToken, h, Except.error.injEq] at herr
    exact herr ▸ rfl

theorem unrefused_ite {p : Prop} [Decidable p] {r r' : Reading α} (hr : p → r.Unrefused c)
    (hr' : ¬p → r'.Unrefused c) : (if p then r else r').Unrefused c := by
  by_cases hp : p
  · rw [if_pos hp]
    exact hr hp
  · rw [if_neg hp]
    exact hr' hp

end Reading

namespace Setting

open Reading

variable {α : Type} {setting : Setting} {c : Cursor}

theorem unrefused_fail {fault : ParseFault} {offset : Nat}
    (h : fault.isAuthorization = false) : (setting.fail fault offset : Reading α).Unrefused c := by
  intro err herr
  cases herr
  exact h

theorem unrefused_unexpected {expected : String} :
    (setting.unexpected expected : Reading α).Unrefused c :=
  unrefused_current_bind (unrefused_ite (fun _ => unrefused_fail rfl) fun _ => unrefused_fail rfl)

theorem unrefused_mismatch {m : Mismatch} {offset : Nat} :
    (setting.mismatch m offset : Reading α).Unrefused c := unrefused_fail rfl

theorem unrefused_expect {kind : TokenKind} {expected : String} :
    (setting.expect kind expected).Unrefused c :=
  unrefused_current_bind (unrefused_ite (fun _ => unrefused_advance) fun _ => unrefused_unexpected)

theorem unrefused_literalValue {expected : Option StaticType} :
    (setting.literalValue expected).Unrefused c := by
  refine unrefused_current_bind (Unrefused.bind ?_ fun v? c' _ => ?_)
  · intro err herr
    cases h : c.current.literal? expected with
    | ok v? => simp [outcome, h, Except.map] at herr
    | error e =>
      simp only [outcome, h, Except.map, Except.error.injEq] at herr
      subst herr
      simp only [Token.literal?] at h
      split at h
      · split at h
        · cases h
        · cases h
          rfl
      · cases h
  · cases v? with
    | none => exact unrefused_unexpected
    | some v => exact unrefused_pure v

theorem unrefused_item {type : StaticType} : (setting.item type).Unrefused c := by
  refine unrefused_current_bind (unrefused_literalValue.bind fun v c' _ => ?_)
  refine unrefused_ite (fun _ => unrefused_fail rfl) fun _ => ?_
  refine unrefused_ite (fun _ => ?_) fun _ => unrefused_mismatch
  exact unrefused_advance.bind fun _ _ _ => unrefused_pure v

theorem unrefused_items {type : StaticType} {limit : Nat} :
    (setting.items type limit).Unrefused c := by
  induction limit generalizing c with
  | zero => exact unrefused_pure _
  | succ limit ih =>
    refine unrefused_item.bind fun v c' _ => unrefused_current_bind ?_
    refine unrefused_ite (fun _ => ?_) fun _ => unrefused_pure _
    exact unrefused_advance.bind fun _ _ _ => ih.bind fun _ _ _ => unrefused_pure _

theorem unrefused_membership {left : Expr} : (setting.membership left).Unrefused c := by
  refine unrefused_expect.bind fun _ _ _ => unrefused_current_bind ?_
  refine unrefused_ite (fun _ => unrefused_fail rfl) fun _ => unrefused_remaining_bind ?_
  exact unrefused_items.bind fun _ _ _ => unrefused_expect.bind fun _ _ _ => unrefused_pure _

theorem unrefused_settle {e : Expr} {other : StaticType} {offset : Nat} :
    (setting.settle e other offset).Unrefused c := by
  cases e with
  | literal v =>
    rw [settle]
    split
    · exact unrefused_pure _
    · exact unrefused_mismatch
  | _ => exact unrefused_pure _

theorem unrefused_combine {op : BinaryOp} {left right : Expr} {offset : Nat} :
    (setting.combine op left right offset).Unrefused c :=
  unrefused_settle.bind fun _ _ _ => unrefused_settle.bind fun _ _ _ =>
    unrefused_ite (fun _ => unrefused_pure _) fun _ => unrefused_mismatch

theorem unrefused_operator : operator.Unrefused c := by
  refine unrefused_current_bind (unrefused_ite (fun _ => ?_) fun _ => unrefused_pure _)
  split
  · exact unrefused_pure _
  · refine unrefused_ite (fun _ => ?_) fun _ => unrefused_pure _
    exact unrefused_nextToken.bind fun _ _ _ => unrefused_pure _

theorem unrefused_isNot : isNot.Unrefused c := by
  refine unrefused_current_bind (unrefused_ite (fun _ => ?_) fun _ => unrefused_pure _)
  refine unrefused_ite (fun _ => unrefused_pure _) fun _ => ?_
  exact unrefused_nextToken.bind fun _ _ _ => unrefused_pure _

theorem unrefused_quantifier : setting.quantifier.Unrefused c := by
  refine unrefused_current_bind (unrefused_ite (fun _ => ?_) fun _ => ?_)
  · exact unrefused_advance.bind fun _ _ _ => unrefused_pure _
  · refine unrefused_ite (fun _ => ?_) fun _ => unrefused_unexpected
    exact unrefused_advance.bind fun _ _ _ => unrefused_pure _

theorem unrefused_checkedCall {function : Function} {es : List Expr} {offset : Nat} :
    (setting.checkedCall function es offset).Unrefused c := by
  rw [checkedCall]
  split
  · exact unrefused_pure _
  · exact unrefused_fail rfl
  · exact unrefused_mismatch

theorem unrefused_memberAfterSlash {owner : Token} :
    (setting.memberAfterSlash owner).Unrefused c := by
  refine unrefused_current_bind (unrefused_ite (fun _ => ?_) fun _ => unrefused_mismatch)
  exact unrefused_advance.bind fun _ _ _ => unrefused_expect

-- ════════════════════════════════════════════════════════════════════════
-- Nested readers
-- ════════════════════════════════════════════════════════════════════════

/-- A subreader is not refused at cursors and in scopes that occur. -/
def SubUnrefused (setting : Setting) (sub : Subreader) : Prop :=
  ∀ {minimum scope expected c}, c.HasText → (∀ frame ∈ scope, frame.Rooted setting.entity) →
    (sub minimum scope expected).Unrefused c

section Nested

variable {levels : Nat} {sub : Subreader} {scope : List Frame}

theorem unrefused_arguments (hsub : setting.Follows levels sub)
    (hrefuse : setting.SubUnrefused sub) (hc : c.HasText)
    (hscope : ∀ frame ∈ scope, frame.Rooted setting.entity) {limit : Nat} :
    (arguments sub scope limit).Unrefused c := by
  induction limit generalizing c with
  | zero => exact unrefused_pure _
  | succ limit ih =>
    refine (hrefuse hc hscope).bind fun e c₁ he => unrefused_current_bind ?_
    have hc₁ := hc.of_suffix (hsub.mp he).tokens_suffix
    refine unrefused_ite (fun _ => ?_) fun _ => unrefused_pure _
    refine unrefused_advance.bind fun _ c₂ hadvance => ?_
    exact (ih (hc₁.of_advance (advance_eq_ok.mp hadvance).2)).bind fun _ _ _ => unrefused_pure _

theorem unrefused_call (hsub : setting.Follows levels sub)
    (hrefuse : setting.SubUnrefused sub) (hc : c.HasText)
    (hscope : ∀ frame ∈ scope, frame.Rooted setting.entity) :
    (setting.call sub scope).Unrefused c := by
  refine unrefused_advance.bind fun name c₁ hadvance => ?_
  have hc₁ := hc.of_advance (advance_eq_ok.mp hadvance).2
  cases Function.ofName? name.text with
  | none => exact unrefused_fail rfl
  | some function =>
    refine unrefused_expect.bind fun _ c₂ hopen => ?_
    have hc₂ := hc₁.of_advance (expect_eq_ok.mp hopen).2.2
    refine unrefused_current_bind (unrefused_remaining_bind ?_)
    refine unrefused_ite (fun _ => ?_) fun _ => ?_
    · exact unrefused_expect.bind fun _ _ _ => unrefused_checkedCall
    · exact (unrefused_arguments hsub hrefuse hc₂ hscope).bind fun _ _ _ =>
        unrefused_expect.bind fun _ _ _ => unrefused_checkedCall

theorem unrefused_lambda (hrefuse : setting.SubUnrefused sub) (hc : c.HasText)
    (hscope : ∀ frame ∈ scope, frame.Rooted setting.entity) {navigation : Navigation}
    {path : String}
    (hpath : ∀ name, Frame.Rooted setting.entity ⟨name, navigation.target, path⟩) :
    (setting.lambda sub scope navigation path).Unrefused c := by
  refine unrefused_quantifier.bind fun quantifier c₁ hquantifier => ?_
  refine unrefused_expect.bind fun _ c₂ hopen => unrefused_current_bind ?_
  have hc₁ := hc.of_suffix (cursor_suffix_of_quantifier hquantifier)
  have hc₂ := hc₁.of_advance (expect_eq_ok.mp hopen).2.2
  refine unrefused_ite (fun _ => ?_) fun _ => ?_
  · exact unrefused_advance.bind fun _ _ _ => unrefused_pure _
  refine unrefused_expect.bind fun bound c₃ hbound => ?_
  have hc₃ := hc₂.of_advance (expect_eq_ok.mp hbound).2.2
  refine unrefused_ite (fun _ => unrefused_fail rfl) fun _ => ?_
  refine unrefused_expect.bind fun _ c₄ hcolon => ?_
  have hc₄ := hc₃.of_advance (expect_eq_ok.mp hcolon).2.2
  refine (hrefuse hc₄ (List.forall_mem_cons.mpr ⟨hpath _, hscope⟩)).bind fun body _ _ => ?_
  refine unrefused_ite (fun _ => ?_) fun _ => unrefused_mismatch
  exact unrefused_expect.bind fun _ _ _ => unrefused_pure _

/-- Resolving a reference is not refused if all paths of the root entity are allowed. -/
theorem unrefused_resolve (hrefuse : setting.SubUnrefused sub)
    (hall : ∀ p ∈ AllowList.entityPaths "" setting.entity, setting.allowed.allows p = true)
    {c₀ : Cursor} (hc₀ : c₀.HasText) (hkind : c₀.current.kind = .identifier)
    (hscope : ∀ frame ∈ scope, frame.Rooted setting.entity) {property : Property}
    {above : String} {origin : Option String} {token : Token}
    (hrefers : setting.Refers scope c₀ property above origin token c) :
    (setting.resolve sub scope property above origin token).Unrefused c := by
  obtain ⟨_, hmem, htarget⟩ := hrefers.path hc₀ hkind hscope
  refine unrefused_ite (fun _ => ?_) fun hnot => absurd (hall _ hmem) hnot
  cases htype : property.type with
  | primitive kind => exact unrefused_pure _
  | enumeration type => exact unrefused_pure _
  | collection target link =>
    refine unrefused_current_bind (unrefused_ite (fun _ => ?_) fun _ => unrefused_mismatch)
    refine unrefused_advance.bind fun _ c₁ hadvance => ?_
    have hc := hc₀.of_suffix hrefers.tokens_suffix
    exact unrefused_lambda hrefuse (hc.of_advance (advance_eq_ok.mp hadvance).2) hscope
      fun name => htarget name target link htype

theorem unrefused_reference (hrefuse : setting.SubUnrefused sub)
    (hall : ∀ p ∈ AllowList.entityPaths "" setting.entity, setting.allowed.allows p = true)
    (hc : c.HasText) (hkind : c.current.kind = .identifier)
    (hscope : ∀ frame ∈ scope, frame.Rooted setting.entity) :
    (setting.reference sub scope).Unrefused c := by
  refine unrefused_advance.bind fun token c₁ hmove => ?_
  obtain ⟨rfl, hadvance⟩ := advance_eq_ok.mp hmove
  cases hroot : setting.entity.find? c.current.text with
  | some property =>
    exact unrefused_resolve hrefuse hall hc hkind hscope (.root hroot hadvance)
  | none =>
    cases hframe : Frame.find? scope c.current.text with
    | some frame =>
      refine unrefused_memberAfterSlash.bind fun member c₂ hmember => ?_
      obtain ⟨_, hslash, hadvance₁, hname, rfl, hadvance₂⟩ := memberAfterSlash_eq_ok.mp hmember
      split
      · rename_i property hproperty
        exact unrefused_resolve hrefuse hall hc hkind hscope
          (.below hroot hframe hadvance hslash hadvance₁ hname hadvance₂ hproperty)
      · exact unrefused_fail rfl
    | none =>
      refine unrefused_ite (fun hit => ?_) fun _ => ?_
      · refine unrefused_memberAfterSlash.bind fun member c₂ hmember => ?_
        obtain ⟨_, hslash, hadvance₁, hname, rfl, hadvance₂⟩ := memberAfterSlash_eq_ok.mp hmember
        split
        · rename_i property hproperty
          exact unrefused_resolve hrefuse hall hc hkind hscope
            (.it hroot hframe hit hadvance hslash hadvance₁ hname hadvance₂ hproperty)
        · exact unrefused_fail rfl
      · exact unrefused_current_bind
          (unrefused_ite (fun _ => unrefused_fail rfl) fun _ => unrefused_fail rfl)

theorem unrefused_prefixed (hrefuse : setting.SubUnrefused sub) (hc : c.HasText)
    (hscope : ∀ frame ∈ scope, frame.Rooted setting.entity) {op : UnaryOp} :
    (setting.prefixed sub scope op).Unrefused c := by
  refine unrefused_advance.bind fun _ c₁ hadvance => ?_
  have hc₁ := hc.of_advance (advance_eq_ok.mp hadvance).2
  refine (hrefuse hc₁ hscope).bind fun _ _ _ => ?_
  exact unrefused_ite (fun _ => unrefused_pure _) fun _ => unrefused_mismatch

theorem unrefused_group (hrefuse : setting.SubUnrefused sub) (hc : c.HasText)
    (hscope : ∀ frame ∈ scope, frame.Rooted setting.entity) {expected : Option StaticType} :
    (setting.group sub scope expected).Unrefused c := by
  refine unrefused_advance.bind fun _ c₁ hadvance => ?_
  have hc₁ := hc.of_advance (advance_eq_ok.mp hadvance).2
  refine (hrefuse hc₁ hscope).bind fun _ _ _ => unrefused_current_bind ?_
  refine unrefused_ite (fun _ => unrefused_fail rfl) fun _ => ?_
  exact unrefused_expect.bind fun _ _ _ => unrefused_pure _

theorem unrefused_operand (hsub : setting.Follows levels sub)
    (hrefuse : setting.SubUnrefused sub)
    (hall : ∀ p ∈ AllowList.entityPaths "" setting.entity, setting.allowed.allows p = true)
    (hc : c.HasText) (hscope : ∀ frame ∈ scope, frame.Rooted setting.entity)
    {expected : Option StaticType} : (setting.operand sub scope expected).Unrefused c := by
  refine unrefused_current_bind (unrefused_ite (fun _ => unrefused_prefixed hrefuse hc hscope)
    fun _ => unrefused_isNot.bind fun b c₁ hnot => ?_)
  obtain rfl : c = c₁ := (cursor_eq_of_isNot hnot).symm
  refine unrefused_ite (fun _ => unrefused_prefixed hrefuse hc hscope) fun _ => ?_
  refine unrefused_current_bind ?_
  cases hkind : c.current.kind with
  | leftParen => exact unrefused_group hrefuse hc hscope
  | literal =>
    exact unrefused_literalValue.bind fun _ _ _ => unrefused_advance.bind fun _ _ _ =>
      unrefused_pure _
  | functionName => exact unrefused_call hsub hrefuse hc hscope
  | identifier => exact unrefused_reference hrefuse hall hc hkind hscope
  | _ => exact unrefused_unexpected

theorem unrefused_operation (hrefuse : setting.SubUnrefused sub) (hc : c.HasText)
    (hscope : ∀ frame ∈ scope, frame.Rooted setting.entity) {op : Operator} {left : Expr} :
    (setting.operation sub scope op left).Unrefused c := by
  refine unrefused_advance.bind fun _ c₁ hadvance => ?_
  have hc₁ := hc.of_advance (advance_eq_ok.mp hadvance).2
  cases op with
  | membership => exact unrefused_membership
  | unary _ => exact unrefused_unexpected
  | binary _ => exact (hrefuse hc₁ hscope).bind fun _ _ _ => unrefused_combine

theorem unrefused_climb (hsub : setting.Follows levels sub)
    (hrefuse : setting.SubUnrefused sub) (hc : c.HasText)
    (hscope : ∀ frame ∈ scope, frame.Rooted setting.entity) {minimum limit : Nat} {left : Expr} :
    (setting.climb sub minimum scope limit left).Unrefused c := by
  induction limit generalizing c left with
  | zero => exact unrefused_pure _
  | succ limit ih =>
    refine unrefused_operator.bind fun op? c₁ hop => ?_
    obtain rfl : c = c₁ := (cursor_eq_of_operator hop).symm
    cases op? with
    | none => exact unrefused_pure _
    | some op =>
      refine unrefused_ite (fun _ => unrefused_pure _) fun _ => ?_
      refine (unrefused_operation hrefuse hc hscope).bind fun e c₂ he => ih ?_
      obtain ⟨c₁, hadvance, ⟨_, hlist⟩ | ⟨_, _, _, hright, _⟩⟩ := hsub.operation_eq_ok.mp he
      · obtain ⟨_, hlist, _⟩ := membership_eq_ok.mp hlist
        exact (hc.of_advance hadvance).of_suffix hlist.tokens_suffix
      · exact (hc.of_advance hadvance).of_suffix hright.tokens_suffix

end Nested

/-- Under a list of all paths of the entity type no expression is refused. -/
theorem expression_unrefused
    (hall : ∀ p ∈ AllowList.entityPaths "" setting.entity, setting.allowed.allows p = true)
    (levels : Nat) : setting.SubUnrefused (setting.expression levels) := by
  induction levels with
  | zero =>
    intro _ _ _ _ _ _
    exact unrefused_current_bind (unrefused_fail rfl)
  | succ levels ih =>
    intro _ scope expected c hc hscope
    have hsub : setting.Follows levels (setting.expression levels) :=
      setting.expression_follows levels
    refine (unrefused_operand hsub ih hall hc hscope).bind fun left c₁ hleft => ?_
    have hc₁ := hc.of_suffix (hsub.operand_eq_ok.mp hleft).tokens_suffix
    exact unrefused_remaining_bind (unrefused_climb hsub ih hc₁ hscope)

theorem unrefused_expectEnd : setting.expectEnd.Unrefused c := by
  refine unrefused_current_bind ?_
  cases c.current.kind with
  | endOfText => exact unrefused_pure _
  | rightParen => exact unrefused_fail rfl
  | _ => exact unrefused_unexpected

theorem unrefused_resultName {taken : List String} : (setting.resultName taken).Unrefused c := by
  refine unrefused_current_bind (unrefused_ite (fun _ => ?_) fun _ => unrefused_unexpected)
  refine unrefused_advance.bind fun _ _ _ => unrefused_expect.bind fun _ _ _ => ?_
  exact unrefused_ite (fun _ => unrefused_fail rfl) fun _ => unrefused_pure _

theorem unrefused_filter
    (hall : ∀ p ∈ AllowList.entityPaths "" setting.entity, setting.allowed.allows p = true)
    (hc : c.HasText) : setting.filter.Unrefused c := by
  refine (setting.expression_unrefused hall _ hc (by simp)).bind fun e _ _ => ?_
  refine unrefused_expectEnd.bind fun _ _ _ => ?_
  exact unrefused_ite (fun _ => unrefused_pure _) fun _ => unrefused_mismatch

theorem unrefused_computeItems
    (hall : ∀ p ∈ AllowList.entityPaths "" setting.entity, setting.allowed.allows p = true)
    (hc : c.HasText) {limit : Nat} {taken : List String} :
    (setting.computeItems limit taken).Unrefused c := by
  induction limit generalizing c taken with
  | zero => exact unrefused_pure _
  | succ limit ih =>
    refine (setting.expression_unrefused hall _ hc (by simp)).bind fun e c₁ he => ?_
    have hc₁ := hc.of_suffix ((setting.expression_follows _).mp he).tokens_suffix
    refine unrefused_resultName.bind fun name c₂ hname => unrefused_current_bind ?_
    have hc₂ := hc₁.of_suffix (cursor_suffix_of_resultName hname)
    refine unrefused_ite (fun _ => ?_) fun _ => unrefused_pure _
    refine unrefused_advance.bind fun _ c₃ hadvance => ?_
    exact (ih (hc₂.of_advance (advance_eq_ok.mp hadvance).2)).bind fun _ _ _ => unrefused_pure _

theorem unrefused_compute
    (hall : ∀ p ∈ AllowList.entityPaths "" setting.entity, setting.allowed.allows p = true)
    (hc : c.HasText) : setting.compute.Unrefused c :=
  unrefused_remaining_bind ((unrefused_computeItems hall hc).bind fun _ _ _ =>
    unrefused_expectEnd.bind fun _ _ _ => unrefused_pure _)

/-- A run is refused only if the reading is. -/
theorem isAuthorization_of_run {reading : Reading α}
    (h : ∀ {c}, c.HasText → reading.Unrefused c) {err : ParseError}
    (herr : setting.run reading = .error err) : err.fault.isAuthorization = false := by
  cases hc : Cursor.ofText setting.text with
  | error e =>
    simp only [run, hc, Except.error.injEq] at herr
    exact herr ▸ rfl
  | ok c =>
    simp only [run, hc] at herr
    split at herr
    · cases herr
      rfl
    · cases hr : reading c with
      | ok x => simp [hr, Except.map] at herr
      | error e =>
        simp only [hr, Except.map, Except.error.injEq] at herr
        exact herr ▸ h (Cursor.hasText_of_ofText hc) e hr

-- ════════════════════════════════════════════════════════════════════════
-- Authorization of whole texts
-- ════════════════════════════════════════════════════════════════════════

/-- A run under an allow-list gives what it gives under the list of all paths, if that refers
to allowed paths only. -/
theorem run_eq_ok_iff_allowed {reading : Setting → Reading α} (refers : α → String → Prop)
    (hpermits : ∀ {setting : Setting} {c c' x}, c.HasText → reading setting c = .ok (x, c') →
      ∀ p, refers x p → setting.Permits p)
    (hallowed : ∀ {setting : Setting} {c c' x} (allowed : AllowList), c.HasText →
      reading setting c = .ok (x, c') → (∀ p, refers x p → allowed.allows p = true) →
        reading { setting with allowed } c = .ok (x, c'))
    (text : List Char) (entity : EntityType) (depth : Nat) (allowed : AllowList) (x : α) :
    run ⟨text, entity, allowed, depth⟩ (reading ⟨text, entity, allowed, depth⟩) = .ok x ↔
      run ⟨text, entity, .all entity, depth⟩ (reading ⟨text, entity, .all entity, depth⟩) = .ok x
        ∧ ∀ p, refers x p → allowed.allows p = true := by
  simp only [run_eq_ok]
  constructor
  · rintro ⟨c, c', hc, hend, h⟩
    have hc' := Cursor.hasText_of_ofText hc
    have hpaths := hpermits hc' h
    refine ⟨⟨c, c', hc, hend, ?_⟩, fun p hp => (hpaths p hp).1⟩
    exact hallowed (.all entity) hc' h fun p hp => AllowList.allows_all_iff.mpr (hpaths p hp).2
  · rintro ⟨⟨c, c', hc, hend, h⟩, hpaths⟩
    exact ⟨c, c', hc, hend, hallowed allowed (Cursor.hasText_of_ofText hc) h hpaths⟩

theorem filter_permits {c c' : Cursor} {e : Expr} (hc : c.HasText)
    (h : setting.filter c = .ok (e, c')) : ∀ p ∈ e.paths [], setting.Permits p :=
  (filter_eq_ok.mp h).1.permits hc (by simp)

theorem filter_of_allowed {c c' : Cursor} {e : Expr} (allowed : AllowList) (hc : c.HasText)
    (h : setting.filter c = .ok (e, c'))
    (hallowed : ∀ p ∈ e.paths [], allowed.allows p = true) :
    filter { setting with allowed } c = .ok (e, c') := by
  obtain ⟨he, hend, htype⟩ := filter_eq_ok.mp h
  exact filter_eq_ok.mpr ⟨he.of_allowed hc (by simp) allowed hallowed, hend, htype⟩

theorem compute_permits {c c' : Cursor} {items : List ComputeItem} (hc : c.HasText)
    (h : setting.compute c = .ok (items, c')) :
    ∀ p, (∃ item ∈ items, p ∈ item.expr.paths []) → setting.Permits p := by
  rintro p ⟨item, hitem, hp⟩
  exact (compute_eq_ok.mp h).1.permits hc item hitem p hp

theorem compute_of_allowed {c c' : Cursor} {items : List ComputeItem} (allowed : AllowList)
    (hc : c.HasText) (h : setting.compute c = .ok (items, c'))
    (hallowed : ∀ p, (∃ item ∈ items, p ∈ item.expr.paths []) → allowed.allows p = true) :
    compute { setting with allowed } c = .ok (items, c') := by
  obtain ⟨hitems, hend⟩ := compute_eq_ok.mp h
  refine compute_eq_ok.mpr ⟨hitems.of_allowed hc allowed fun item hitem p hp => ?_, hend⟩
  exact hallowed p ⟨item, hitem, hp⟩

end Setting

/-- Authorization is exact. A predicate, and likewise a list of compute items, is accepted under
an allow-list exactly if it is accepted under the list of all paths of the entity type and every
path that it refers to is in the allow-list. Under the list of all paths nothing is refused. -/
theorem Expr.read_iff_allowed (text : String) (entity : EntityType) (allowed : AllowList)
    (depth : Nat) :
    (∀ e : Expr, Expr.readFilter text entity allowed depth = .ok e ↔
      Expr.readFilter text entity (.all entity) depth = .ok e ∧
        ∀ p ∈ e.paths [], allowed.allows p = true) ∧
    (∀ items : List ComputeItem, ComputeItem.readAll text entity allowed depth = .ok items ↔
      ComputeItem.readAll text entity (.all entity) depth = .ok items ∧
        ∀ item ∈ items, ∀ p ∈ item.expr.paths [], allowed.allows p = true) ∧
    (¬∃ err path, Expr.readFilter text entity (.all entity) depth = .error err ∧
      err.fault = .notAllowed path) ∧
    ¬∃ err path, ComputeItem.readAll text entity (.all entity) depth = .error err ∧
      err.fault = .notAllowed path := by
  have hall : ∀ p ∈ AllowList.entityPaths "" entity, (AllowList.all entity).allows p = true :=
    fun p hp => AllowList.allows_all_iff.mpr hp
  refine ⟨fun e => ?_, fun items => ?_, ?_, ?_⟩
  · exact Setting.run_eq_ok_iff_allowed (fun e p => p ∈ Expr.paths [] e)
      Setting.filter_permits Setting.filter_of_allowed text.toList entity depth allowed e
  · have hiff := Setting.run_eq_ok_iff_allowed
      (fun (items : List ComputeItem) p => ∃ item ∈ items, p ∈ item.expr.paths [])
      Setting.compute_permits Setting.compute_of_allowed text.toList entity depth allowed items
    refine hiff.trans (and_congr_right fun _ => ?_)
    constructor
    · exact fun h item hitem p hp => h p ⟨item, hitem, hp⟩
    · rintro h p ⟨item, hitem, hp⟩
      exact h item hitem p hp
  · rintro ⟨err, path, herr, hpath⟩
    have hfault := Setting.isAuthorization_of_run (fun hc => Setting.unrefused_filter hall hc) herr
    rw [hpath] at hfault
    cases hfault
  · rintro ⟨err, path, herr, hpath⟩
    have hfault := Setting.isAuthorization_of_run (fun hc => Setting.unrefused_compute hall hc) herr
    rw [hpath] at hfault
    cases hfault

end ODataQuery
