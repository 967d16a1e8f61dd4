import ODataQuery.Proofs.Expr.Induction
import ODataQuery.Proofs.Metadata.AllowList
import ODataQuery.Proofs.Reading.Derivation
import ODataQuery.Proofs.Reading.Progress

/-!
# Authorization

An expression is accepted under an allow-list exactly if it is accepted without one and all
paths that it refers to are in the list.

## Main definitions

- `Expr.paths` — the paths of the references of an expression
- `Frame.Rooted` — a variable whose paths are paths of the root entity

## Main statements

- `Setting.Reads.allowed_paths` — what is read refers to allowed paths of the entity only
- `Setting.Reads.of_allowed` — what is read is read under every list that allows its paths
-/

namespace ODataQuery

-- ════════════════════════════════════════════════════════════════════════
-- Paths
-- ════════════════════════════════════════════════════════════════════════

/-- Lambda variables with the paths of the navigations that they range over. -/
abbrev PathEnv := List (String × String)

/-- The path of a name below a variable, or below the root entity. -/
def PathEnv.path (env : PathEnv) (origin : Option String) (name : String) : String :=
  match origin.bind (List.lookup · env) with
  | some above => above ++ "/" ++ name
  | none => name

namespace Expr

mutual

/-- The paths of all fields and navigations of an expression. The variable of a lambda stands
for the path of its navigation. -/
def paths (env : PathEnv) : Expr → List String
  | literal _ => []
  | field f => [env.path f.origin f.name]
  | binary _ left right => paths env left ++ paths env right
  | unary _ operand => paths env operand
  | membership operand _ => paths env operand
  | call _ arguments => argumentPaths env arguments
  | lambda binder body =>
    let path := env.path binder.navigation.origin binder.navigation.name
    path :: paths ((binder.bound, path) :: env) body
  | bare binder => [env.path binder.navigation.origin binder.navigation.name]

/-- The paths of all fields and navigations of some arguments. -/
def argumentPaths (env : PathEnv) : List Expr → List String
  | [] => []
  | e :: es => paths env e ++ argumentPaths env es

end

/-- Fitting a literal to the other operand does not touch references. -/
theorem paths_of_settled? {env : PathEnv} {e e' : Expr} {other type : StaticType}
    (h : e.settled? other = some (e', type)) : e'.paths env = e.paths env := by
  cases e with
  | literal v =>
    simp only [settled?, Option.map_eq_some_iff, Prod.mk.injEq] at h
    obtain ⟨w, _, rfl, _⟩ := h
    rfl
  | _ =>
    cases h
    rfl

theorem paths_of_combines {env : PathEnv} {op : BinaryOp} {left right e : Expr}
    (h : Combines op left right e) : e.paths env = left.paths env ++ right.paths env := by
  obtain ⟨l, lt, r, rt, hl, hr, _, rfl⟩ := h
  rw [paths, paths_of_settled? hl, paths_of_settled? hr]

end Expr

-- ════════════════════════════════════════════════════════════════════════
-- Variables in scope
-- ════════════════════════════════════════════════════════════════════════

namespace Frame

/-- The variables in scope with their paths. -/
def env (scope : List Frame) : PathEnv := scope.map fun frame => (frame.name, frame.path)

/-- A variable ranges over a collection below the root entity. -/
def Rooted (root : EntityType) (frame : Frame) : Prop :=
  frame.path ≠ "" ∧ ∀ p ∈ AllowList.entityPaths (frame.path ++ "/") frame.entity,
    p ∈ AllowList.entityPaths "" root

theorem lookup_env {scope : List Frame} {name : String} {frame : Frame}
    (h : find? scope name = some frame) : List.lookup name (env scope) = some frame.path := by
  induction scope with
  | nil => cases h
  | cons first rest ih =>
    by_cases hname : first.name = name
    · have : first = frame := by simpa [find?, hname] using h
      subst this
      simp [env, hname]
    · have hrest : find? rest name = some frame := by simpa [find?, hname] using h
      have hne : (name == first.name) = false := by simpa using Ne.symm hname
      simpa [env, List.lookup_cons, hne] using ih hrest

end Frame

namespace Setting

variable {setting : Setting}

theorem pathBelow_root (name : String) : pathBelow "" name = name := by simp [pathBelow]

theorem pathBelow_ne {above : String} (h : above ≠ "") (name : String) :
    pathBelow above name = above ++ "/" ++ name := by
  simp [pathBelow, h]

/-- A collection of the root entity leads to paths of the root entity. -/
theorem rooted_of_root {entity target : EntityType} {name text : String} {property : Property}
    {link : Link} (h : entity.find? text = some property) (hname : property.name ≠ "")
    (htype : property.type = .collection target link) :
    Frame.Rooted entity ⟨name, target, property.name⟩ := by
  refine ⟨hname, fun p hp => ?_⟩
  have hmem := (EntityType.mem_properties_of_find? h).1
  refine EntityType.entityPaths_subset_of_collection "" hmem htype ?_
  simpa using hp

/-- A collection below a variable leads to paths of the root entity. -/
theorem rooted_below {entity target : EntityType} {name text : String} {frame : Frame}
    {property : Property} {link : Link} (hframe : frame.Rooted entity)
    (h : frame.entity.find? text = some property)
    (htype : property.type = .collection target link) :
    Frame.Rooted entity ⟨name, target, frame.path ++ "/" ++ property.name⟩ := by
  refine ⟨by simp, fun p hp => hframe.2 p ?_⟩
  have hmem := (EntityType.mem_properties_of_find? h).1
  exact EntityType.entityPaths_subset_of_collection _ hmem htype hp

/-- The path that is checked for a reference is the path of the reference and a path of the
root entity; the collection that it may lead to is below the root entity. -/
theorem Refers.path {scope : List Frame} {c c' : Cursor} {property : Property} {above : String}
    {origin : Option String} {token : Token}
    (h : setting.Refers scope c property above origin token c') (hc : c.HasText)
    (hkind : c.current.kind = .identifier)
    (hscope : ∀ frame ∈ scope, frame.Rooted setting.entity) :
    pathBelow above property.name = (Frame.env scope).path origin property.name ∧
      pathBelow above property.name ∈ AllowList.entityPaths "" setting.entity ∧
      ∀ name target link, property.type = .collection target link →
        Frame.Rooted setting.entity ⟨name, target, pathBelow above property.name⟩ := by
  cases h with
  | root hproperty hadvance =>
    obtain ⟨hmem, hname⟩ := EntityType.mem_properties_of_find? hproperty
    have hpath := EntityType.path_mem_entityPaths "" hmem
    have hne : property.name ≠ "" := hname ▸ hc.text_ne_empty hkind
    rw [pathBelow_root]
    exact ⟨rfl, by simpa using hpath, fun _ _ _ htype => rooted_of_root hproperty hne htype⟩
  | it _ _ _ hadvance _ hadvance₁ hkind₂ _ hproperty =>
    obtain ⟨hmem, hname⟩ := EntityType.mem_properties_of_find? hproperty
    have hpath := EntityType.path_mem_entityPaths "" hmem
    have hne : property.name ≠ "" :=
      hname ▸ ((hc.of_advance hadvance).of_advance hadvance₁).text_ne_empty hkind₂
    rw [pathBelow_root]
    exact ⟨rfl, by simpa using hpath, fun _ _ _ htype => rooted_of_root hproperty hne htype⟩
  | @below frame _ _ _ _ _ hframe _ _ _ _ _ hproperty =>
    obtain ⟨hmem, hname⟩ := Frame.mem_of_find? hframe
    have hrooted := hscope frame hmem
    have hpath := EntityType.path_mem_entityPaths (frame.path ++ "/")
      (EntityType.mem_properties_of_find? hproperty).1
    have hlookup : List.lookup frame.name (Frame.env scope) = some frame.path := by
      rw [hname]
      exact Frame.lookup_env hframe
    rw [pathBelow_ne hrooted.1]
    refine ⟨by simp [PathEnv.path, hlookup], hrooted.2 _ hpath, fun _ _ _ htype => ?_⟩
    exact rooted_below hrooted hproperty htype

-- ════════════════════════════════════════════════════════════════════════
-- What is read is allowed
-- ════════════════════════════════════════════════════════════════════════

/-- A path is in the allow-list and a path of the root entity. -/
def Permits (setting : Setting) (p : String) : Prop :=
  setting.allowed.allows p = true ∧ p ∈ AllowList.entityPaths "" setting.entity

mutual

/-- What is read refers to allowed paths of the root entity only. -/
theorem Reads.permits {levels minimum : Nat} {scope : List Frame}
    {expected : Option StaticType} {c : Cursor} {e : Expr} {c' : Cursor}
    (h : setting.Reads levels minimum scope expected c e c') (hc : c.HasText)
    (hscope : ∀ frame ∈ scope, frame.Rooted setting.entity) :
    ∀ p ∈ e.paths (Frame.env scope), setting.Permits p := by
  match h with
  | .intro hleft h =>
    exact ReadsOperations.permits h (hc.of_suffix hleft.tokens_suffix) hscope
      (ReadsOperand.permits hleft hc hscope)

theorem ReadsOperand.permits {levels : Nat} {scope : List Frame}
    {expected : Option StaticType} {c : Cursor} {e : Expr} {c' : Cursor}
    (h : setting.ReadsOperand levels scope expected c e c') (hc : c.HasText)
    (hscope : ∀ frame ∈ scope, frame.Rooted setting.entity) :
    ∀ p ∈ e.paths (Frame.env scope), setting.Permits p := by
  match h with
  | .prefixed _ hadvance he _ =>
    rw [Expr.paths]
    exact Reads.permits he (hc.of_advance hadvance) hscope
  | .group _ _ hadvance he _ _ => exact Reads.permits he (hc.of_advance hadvance) hscope
  | .literal _ _ _ _ | .callNone _ _ _ _ _ _ _ _ _ =>
    intro p hp
    cases hp
  | .callSome _ _ _ hadvance _ hadvance₁ _ hes _ _ _ =>
    exact ReadsArguments.permits hes ((hc.of_advance hadvance).of_advance hadvance₁) hscope
  | .field _ hkind hrefers hallowed _ =>
    obtain ⟨hpath, hmem, _⟩ := hrefers.path hc hkind hscope
    intro p hp
    obtain rfl := List.mem_singleton.mp hp
    rw [← hpath]
    exact ⟨hallowed, hmem⟩
  | .bare _ hkind hrefers hallowed _ _ _ _ _ _ _ _ =>
    obtain ⟨hpath, hmem, _⟩ := hrefers.path hc hkind hscope
    intro p hp
    obtain rfl := List.mem_singleton.mp hp
    rw [← hpath]
    exact ⟨hallowed, hmem⟩
  | .lambda _ hkind hrefers hallowed htype _ hadvance₁ hquantifier _ hadvance₃ _ hadvance₄ _ _
      hadvance₅ hbody _ _ _ =>
    obtain ⟨hpath, hmem, htarget⟩ := hrefers.path hc hkind hscope
    have hbinder := ((hc.of_suffix hrefers.tokens_suffix).of_advance hadvance₁).of_suffix
      (cursor_suffix_of_quantifier hquantifier)
    have hinner := Reads.permits hbody
      (((hbinder.of_advance hadvance₃).of_advance hadvance₄).of_advance hadvance₅)
      (List.forall_mem_cons.mpr ⟨htarget _ _ _ htype, hscope⟩)
    rw [Expr.paths, ← hpath]
    exact List.forall_mem_cons.mpr ⟨⟨hallowed, hmem⟩, hinner⟩

theorem ReadsOperations.permits {levels minimum : Nat} {scope : List Frame} {limit : Nat}
    {left : Expr} {c : Cursor} {e : Expr} {c' : Cursor}
    (h : setting.ReadsOperations levels minimum scope limit left c e c') (hc : c.HasText)
    (hscope : ∀ frame ∈ scope, frame.Rooted setting.entity)
    (hleft : ∀ p ∈ left.paths (Frame.env scope), setting.Permits p) :
    ∀ p ∈ e.paths (Frame.env scope), setting.Permits p := by
  match h with
  | .exhausted | .stop _ _ => exact hleft
  | .binary _ _ hadvance hright he h =>
    have hc₁ := hc.of_advance hadvance
    refine ReadsOperations.permits h (hc₁.of_suffix hright.tokens_suffix) hscope ?_
    rw [Expr.paths_of_combines he]
    exact List.forall_mem_append.mpr ⟨hleft, Reads.permits hright hc₁ hscope⟩
  | .membership _ _ hadvance hlist h =>
    have hc₁ := hc.of_advance hadvance
    exact ReadsOperations.permits h (hc₁.of_suffix hlist.tokens_suffix) hscope hleft

theorem ReadsArguments.permits {levels : Nat} {scope : List Frame} {limit : Nat} {c : Cursor}
    {es : List Expr} {c' : Cursor}
    (h : setting.ReadsArguments levels scope limit c es c') (hc : c.HasText)
    (hscope : ∀ frame ∈ scope, frame.Rooted setting.entity) :
    ∀ p ∈ Expr.argumentPaths (Frame.env scope) es, setting.Permits p := by
  match h with
  | .exhausted =>
    intro p hp
    cases hp
  | .last he _ =>
    rw [Expr.argumentPaths, Expr.argumentPaths, List.append_nil]
    exact Reads.permits he hc hscope
  | .more he _ hadvance₁ hes =>
    have hc₂ := (hc.of_suffix he.tokens_suffix).of_advance hadvance₁
    exact List.forall_mem_append.mpr
      ⟨Reads.permits he hc hscope, ReadsArguments.permits hes hc₂ hscope⟩

end

-- ════════════════════════════════════════════════════════════════════════
-- What is allowed is read
-- ════════════════════════════════════════════════════════════════════════

/-- What identifiers refer to does not depend on the allow-list. -/
theorem Refers.with_allowed {scope : List Frame} {c c' : Cursor} {property : Property}
    {above : String} {origin : Option String} {token : Token}
    (h : setting.Refers scope c property above origin token c') (allowed : AllowList) :
    Refers { setting with allowed } scope c property above origin token c' := by
  cases h with
  | root hproperty hc => exact .root hproperty hc
  | below hroot hframe hc hslash hc₁ hname hc₂ hproperty =>
    exact .below hroot hframe hc hslash hc₁ hname hc₂ hproperty
  | it hroot hframe hit hc hslash hc₁ hname hc₂ hproperty =>
    exact .it hroot hframe hit hc hslash hc₁ hname hc₂ hproperty

/-- Further operations keep the paths of their left operand. -/
theorem ReadsOperations.paths_subset {levels minimum : Nat} {scope : List Frame} {limit : Nat}
    {left : Expr} {c : Cursor} {e : Expr} {c' : Cursor}
    (h : setting.ReadsOperations levels minimum scope limit left c e c') (env : PathEnv) :
    left.paths env ⊆ e.paths env := by
  match h with
  | .exhausted | .stop _ _ => exact List.Subset.refl _
  | .binary _ _ _ _ he h =>
    refine List.Subset.trans ?_ (ReadsOperations.paths_subset h env)
    rw [Expr.paths_of_combines he]
    exact List.subset_append_left _ _
  | .membership _ _ _ _ h => exact ReadsOperations.paths_subset h env

mutual

/-- What is read is read under every allow-list that has its paths. -/
theorem Reads.of_allowed {levels minimum : Nat} {scope : List Frame}
    {expected : Option StaticType} {c : Cursor} {e : Expr} {c' : Cursor}
    (h : setting.Reads levels minimum scope expected c e c') (hc : c.HasText)
    (hscope : ∀ frame ∈ scope, frame.Rooted setting.entity) (allowed : AllowList)
    (hallowed : ∀ p ∈ e.paths (Frame.env scope), allowed.allows p = true) :
    Reads { setting with allowed } levels minimum scope expected c e c' := by
  match h with
  | .intro hleft h =>
    have hleft' := ReadsOperand.of_allowed hleft hc hscope allowed fun p hp =>
      hallowed p (ReadsOperations.paths_subset h _ hp)
    exact .intro hleft' (ReadsOperations.of_allowed h (hc.of_suffix hleft.tokens_suffix) hscope
      allowed hallowed)

theorem ReadsOperand.of_allowed {levels : Nat} {scope : List Frame}
    {expected : Option StaticType} {c : Cursor} {e : Expr} {c' : Cursor}
    (h : setting.ReadsOperand levels scope expected c e c') (hc : c.HasText)
    (hscope : ∀ frame ∈ scope, frame.Rooted setting.entity) (allowed : AllowList)
    (hallowed : ∀ p ∈ e.paths (Frame.env scope), allowed.allows p = true) :
    ReadsOperand { setting with allowed } levels scope expected c e c' := by
  match h with
  | .prefixed hop hadvance he htype =>
    rw [Expr.paths] at hallowed
    exact .prefixed hop hadvance
      (Reads.of_allowed he (hc.of_advance hadvance) hscope allowed hallowed) htype
  | .group hop hkind hadvance he hclose hadvance₂ =>
    exact .group hop hkind hadvance
      (Reads.of_allowed he (hc.of_advance hadvance) hscope allowed hallowed) hclose hadvance₂
  | .literal hop hkind hv hadvance => exact .literal hop hkind hv hadvance
  | .callNone hop hkind hfunction hadvance hopen hadvance₁ hclose hadvance₂ htype =>
    exact .callNone hop hkind hfunction hadvance hopen hadvance₁ hclose hadvance₂ htype
  | .callSome hop hkind hfunction hadvance hopen hadvance₁ hsome hes hclose hadvance₃ htype =>
    have hc₂ := (hc.of_advance hadvance).of_advance hadvance₁
    rw [Expr.paths] at hallowed
    exact .callSome hop hkind hfunction hadvance hopen hadvance₁ hsome
      (ReadsArguments.of_allowed hes hc₂ hscope allowed hallowed) hclose hadvance₃ htype
  | .field hop hkind hrefers _ htype =>
    have hpath := (hrefers.path hc hkind hscope).1
    refine .field hop hkind (hrefers.with_allowed allowed) ?_ htype
    rw [hpath]
    exact hallowed _ List.mem_cons_self
  | .bare hop hkind hrefers _ htype hslash hadvance₁ hany hopen hadvance₃ hclose hadvance₄ =>
    have hpath := (hrefers.path hc hkind hscope).1
    refine .bare hop hkind (hrefers.with_allowed allowed) ?_ htype hslash hadvance₁ hany hopen
      hadvance₃ hclose hadvance₄
    rw [hpath]
    exact hallowed _ List.mem_cons_self
  | .lambda hop hkind hrefers _ htype hslash hadvance₁ hquantifier hopen hadvance₃ hbound
      hadvance₄ hfresh hcolon hadvance₅ hbody hboolean hclose hadvance₇ =>
    obtain ⟨hpath, _, htarget⟩ := hrefers.path hc hkind hscope
    have hbinder := ((hc.of_suffix hrefers.tokens_suffix).of_advance hadvance₁).of_suffix
      (cursor_suffix_of_quantifier hquantifier)
    rw [Expr.paths, ← hpath] at hallowed
    have hbody' := Reads.of_allowed hbody
      (((hbinder.of_advance hadvance₃).of_advance hadvance₄).of_advance hadvance₅)
      (List.forall_mem_cons.mpr ⟨htarget _ _ _ htype, hscope⟩) allowed
      (List.forall_mem_cons.mp hallowed).2
    exact .lambda hop hkind (hrefers.with_allowed allowed) (List.forall_mem_cons.mp hallowed).1
      htype hslash hadvance₁ hquantifier hopen hadvance₃ hbound hadvance₄ hfresh hcolon
      hadvance₅ hbody' hboolean hclose hadvance₇

theorem ReadsOperations.of_allowed {levels minimum : Nat} {scope : List Frame} {limit : Nat}
    {left : Expr} {c : Cursor} {e : Expr} {c' : Cursor}
    (h : setting.ReadsOperations levels minimum scope limit left c e c') (hc : c.HasText)
    (hscope : ∀ frame ∈ scope, frame.Rooted setting.entity) (allowed : AllowList)
    (hallowed : ∀ p ∈ e.paths (Frame.env scope), allowed.allows p = true) :
    ReadsOperations { setting with allowed } levels minimum scope limit left c e c' := by
  match h with
  | .exhausted => exact .exhausted
  | .stop hop hloose => exact .stop hop hloose
  | .binary hop htight hadvance hright he h =>
    have hc₁ := hc.of_advance hadvance
    have hright' := Reads.of_allowed hright hc₁ hscope allowed fun p hp => by
      refine hallowed p (ReadsOperations.paths_subset h _ ?_)
      rw [Expr.paths_of_combines he]
      exact List.mem_append_right _ hp
    exact .binary hop htight hadvance hright' he (ReadsOperations.of_allowed h
      (hc₁.of_suffix hright.tokens_suffix) hscope allowed hallowed)
  | .membership hop htight hadvance hlist h =>
    have hc₁ := hc.of_advance hadvance
    exact .membership hop htight hadvance hlist (ReadsOperations.of_allowed h
      (hc₁.of_suffix hlist.tokens_suffix) hscope allowed hallowed)

theorem ReadsArguments.of_allowed {levels : Nat} {scope : List Frame} {limit : Nat} {c : Cursor}
    {es : List Expr} {c' : Cursor}
    (h : setting.ReadsArguments levels scope limit c es c') (hc : c.HasText)
    (hscope : ∀ frame ∈ scope, frame.Rooted setting.entity) (allowed : AllowList)
    (hallowed : ∀ p ∈ Expr.argumentPaths (Frame.env scope) es, allowed.allows p = true) :
    ReadsArguments { setting with allowed } levels scope limit c es c' := by
  match h with
  | .exhausted => exact .exhausted
  | .last he hlast =>
    rw [Expr.argumentPaths, Expr.argumentPaths, List.append_nil] at hallowed
    exact .last (Reads.of_allowed he hc hscope allowed hallowed) hlast
  | .more he hcomma hadvance₁ hes =>
    have hc₂ := (hc.of_suffix he.tokens_suffix).of_advance hadvance₁
    obtain ⟨hfirst, hrest⟩ := List.forall_mem_append.mp hallowed
    exact .more (Reads.of_allowed he hc hscope allowed hfirst) hcomma hadvance₁
      (ReadsArguments.of_allowed hes hc₂ hscope allowed hrest)

end

-- ════════════════════════════════════════════════════════════════════════
-- Compute items
-- ════════════════════════════════════════════════════════════════════════

theorem ReadsCompute.permits {limit : Nat} {taken : List String} {c c' : Cursor}
    {items : List ComputeItem} (h : setting.ReadsCompute limit taken c items c')
    (hc : c.HasText) : ∀ item ∈ items, ∀ p ∈ item.expr.paths [], setting.Permits p := by
  induction h with
  | exhausted => simp
  | last he _ _ =>
    intro item hitem
    obtain rfl := List.mem_singleton.mp hitem
    exact he.permits hc (by simp)
  | more he hname _ hadvance₂ _ ih =>
    have hc₁ := hc.of_suffix he.tokens_suffix
    have hc₂ := hc₁.of_suffix (cursor_suffix_of_resultName hname)
    exact List.forall_mem_cons.mpr ⟨he.permits hc (by simp), ih (hc₂.of_advance hadvance₂)⟩

theorem ReadsCompute.of_allowed {limit : Nat} {taken : List String} {c c' : Cursor}
    {items : List ComputeItem} (h : setting.ReadsCompute limit taken c items c')
    (hc : c.HasText) (allowed : AllowList)
    (hallowed : ∀ item ∈ items, ∀ p ∈ item.expr.paths [], allowed.allows p = true) :
    ReadsCompute { setting with allowed } limit taken c items c' := by
  induction h with
  | exhausted => exact .exhausted
  | last he hname hlast =>
    have he' := he.of_allowed hc (by simp) allowed (hallowed _ List.mem_cons_self)
    exact .last he' hname hlast
  | more he hname hcomma hadvance₂ _ ih =>
    have hc₁ := hc.of_suffix he.tokens_suffix
    have hc₂ := hc₁.of_suffix (cursor_suffix_of_resultName hname)
    obtain ⟨hfirst, hrest⟩ := List.forall_mem_cons.mp hallowed
    exact .more (he.of_allowed hc (by simp) allowed hfirst) hname hcomma hadvance₂
      (ih (hc₂.of_advance hadvance₂) hrest)

end Setting

end ODataQuery
