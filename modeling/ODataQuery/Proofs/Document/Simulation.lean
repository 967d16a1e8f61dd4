import ODataQuery.Memory.Predicate
import ODataQuery.Proofs.Document.Agreement
import ODataQuery.Proofs.Event.Streaming

/-!
# Simulation of document queries in memory

Whenever a document query is built for an expression, a meaning is built for it as well, and the
query stands for that meaning.

## Main definitions

- `Frame.names` — the variables in scope
- `Frame.current` — the entity type of the innermost element

## Main statements

- `DocumentNode.agrees_of_build` — the nodes of both recursions agree
- `DocumentNode.agrees_of_ofExpr` — the same for expressions within the default bound
-/

namespace ODataQuery

-- ════════════════════════════════════════════════════════════════════════
-- References to the innermost element
-- ════════════════════════════════════════════════════════════════════════

namespace Frame

/-- The variables in scope, the innermost first. -/
def names (scope : List Frame) : List String := scope.map Frame.name

/-- The entity type of the innermost element, which is the root without a lambda. -/
def current (root : EntityType) : List Frame → EntityType
  | [] => root
  | frame :: _ => frame.entity

/-- References to the innermost element start at its entity type. -/
theorem startsAt?_head (root : EntityType) (scope : List Frame) :
    Expr.startsAt? root scope (names scope).head? = some (current root scope) := by
  cases scope with
  | nil => rfl
  | cons frame rest =>
    have hfind : Frame.find? (frame :: rest) frame.name = some frame := by simp [Frame.find?]
    show (Frame.find? (frame :: rest) frame.name).map Frame.entity = _
    rw [hfind]
    rfl

end Frame

namespace DocumentNode

theorem path_eq_ok {origin : Option String} {source path : String} {scope scope' : List String} :
    DocumentNode.path origin source scope = .ok (path, scope') ↔
      origin = scope.head? ∧ path = source ∧ scope' = scope := by
  unfold DocumentNode.path
  by_cases h : origin = scope.head?
  · rw [if_pos h]
    constructor
    · intro heq
      cases heq
      exact ⟨h, rfl, rfl⟩
    · rintro ⟨_, rfl, rfl⟩
      rfl
  · rw [if_neg h]
    constructor
    · intro heq
      cases heq
    · rintro ⟨horigin, _, _⟩
      exact absurd horigin h

/-- References to the innermost element reach no further. -/
theorem hops_head (scope : List String) : Meaning.hops scope.head? scope = .ok (0, scope) := by
  cases scope with
  | nil => rfl
  | cons name rest =>
    have hfind : (name :: rest).findIdx? (· == name) = some 0 := by simp [List.findIdx?_cons]
    simp only [List.head?_cons, Meaning.hops, hfind]

-- ════════════════════════════════════════════════════════════════════════
-- The two recursions
-- ════════════════════════════════════════════════════════════════════════

variable {root : EntityType} {now : Instant} {e₀ : Expr}

/-- If a node is built for the expression, a meaning is built that the node stands for, and neither
changes the scope. -/
def Simulated (root : EntityType) (now : Instant) (e₀ : Expr) (scope : List Frame) (e : Expr) :
    Prop :=
  ∀ node names', (builder now).build e (Frame.names scope) = .ok (node, names') →
    names' = Frame.names scope ∧ ∃ m,
      Meaning.builder.build e (Frame.names scope) = .ok (m, Frame.names scope) ∧
        Agrees e₀.Compares (Frame.current root scope) now e node m

theorem simulated_literal (scope : List Frame) (v : Value) :
    Simulated root now e₀ scope (.literal v) := by
  intro node names' h
  cases h
  exact ⟨rfl, _, rfl, .literal rfl fun _ => rfl⟩

theorem simulated_field {scope : List Frame} {origin : Option String} {entity : EntityType}
    {p : Property} {type : StaticType} (hentity : Expr.startsAt? root scope origin = some entity)
    (hp : p ∈ entity.properties) (htype : p.type.scalar? = some type) :
    Simulated root now e₀ scope (.field ⟨p.name, p.source, origin, type⟩) := by
  intro node names' h
  obtain ⟨path, _, hpath, hnode⟩ := Result.run_bind_eq_ok.mp h
  obtain ⟨rfl, rfl, rfl⟩ := path_eq_ok.mp hpath
  rw [Frame.startsAt?_head] at hentity
  cases hentity
  cases hnode
  refine ⟨rfl, fun s => s.value 0 p.source, ?_, .field hp htype fun s record hs => hs.value _⟩
  refine Result.run_bind_eq_ok.mpr ⟨0, _, hops_head _, rfl⟩

theorem simulated_binary {scope : List Frame} {op : BinaryOp} {left right : Expr}
    (he₀ : e₀.Portable now) (he : .binary op left right ∈ e₀.parts)
    (hleft : Expr.Typed root scope left) (hright : Expr.Typed root scope right)
    (hsettled : Expr.Settled op left right) (hl : Simulated root now e₀ scope left)
    (hr : Simulated root now e₀ scope right) :
    Simulated root now e₀ scope (.binary op left right) := by
  intro node names' h
  obtain ⟨l, _, hbuildl, hrest⟩ := Result.run_bind_eq_ok.mp h
  obtain ⟨rfl, ml, hml, hl⟩ := hl l _ hbuildl
  obtain ⟨r, _, hbuildr, hnode⟩ := Result.run_bind_eq_ok.mp hrest
  obtain ⟨rfl, mr, hmr, hr⟩ := hr r _ hbuildr
  obtain ⟨rfl, hagrees⟩ := agrees_binary he₀ he hleft hright hsettled hl hr hnode
  refine ⟨rfl, _, ?_, hagrees⟩
  refine Result.run_bind_eq_ok.mpr ⟨ml, _, hml, ?_⟩
  exact Result.run_bind_eq_ok.mpr ⟨mr, _, hmr, rfl⟩

theorem simulated_unary {scope : List Frame} {op : UnaryOp} {operand : Expr}
    (hn : Simulated root now e₀ scope operand) :
    Simulated root now e₀ scope (.unary op operand) := by
  intro node names' h
  obtain ⟨n, _, hbuild, hnode⟩ := Result.run_bind_eq_ok.mp h
  obtain ⟨rfl, m, hm, hn⟩ := hn n _ hbuild
  obtain ⟨rfl, hagrees⟩ := agrees_unary hn hnode
  exact ⟨rfl, _, Result.run_bind_eq_ok.mpr ⟨m, _, hm, rfl⟩, hagrees⟩

theorem simulated_membership {scope : List Frame} {operand : Expr} {list : List Value}
    (he₀ : e₀.Portable now) (he : .membership operand list ∈ e₀.parts)
    (hlist : ∀ v ∈ list, v.isNull = false ∧ operand.type.Meets v)
    (hn : Simulated root now e₀ scope operand) :
    Simulated root now e₀ scope (.membership operand list) := by
  intro node names' h
  obtain ⟨n, _, hbuild, hnode⟩ := Result.run_bind_eq_ok.mp h
  obtain ⟨rfl, m, hm, hn⟩ := hn n _ hbuild
  obtain ⟨rfl, hagrees⟩ := agrees_membership he₀ he hlist hn hnode
  exact ⟨rfl, _, Result.run_bind_eq_ok.mpr ⟨m, _, hm, rfl⟩, hagrees⟩

/-- Arguments that are simulated one by one are simulated together. -/
theorem agreesAll_of_simulated {scope : List Frame} {es : List Expr}
    (h : ∀ e ∈ es, Simulated root now e₀ scope e) {nodes : List DocumentNode}
    {names' : List String}
    (hbuild : (builder now).buildAll es (Frame.names scope) = .ok (nodes, names')) :
    names' = Frame.names scope ∧ ∃ ms,
      Meaning.builder.buildAll es (Frame.names scope) = .ok (ms, Frame.names scope) ∧
        AgreesAll e₀.Compares (Frame.current root scope) now es nodes ms := by
  induction es generalizing nodes names' with
  | nil =>
    cases hbuild
    exact ⟨rfl, _, rfl, .nil⟩
  | cons e es ih =>
    obtain ⟨n, _, hfirst, hothers⟩ := Result.run_bind_eq_ok.mp hbuild
    obtain ⟨rfl, m, hm, hn⟩ := h e List.mem_cons_self n _ hfirst
    obtain ⟨ns, _, hrest, hnodes⟩ := Result.run_bind_eq_ok.mp hothers
    obtain ⟨rfl, ms, hms, hns⟩ := ih (fun e' he' => h e' (List.mem_cons_of_mem _ he')) hrest
    cases hnodes
    refine ⟨rfl, m :: ms, ?_, .cons hn hns⟩
    refine Result.run_bind_eq_ok.mpr ⟨m, _, hm, ?_⟩
    exact Result.run_bind_eq_ok.mpr ⟨ms, _, hms, rfl⟩

theorem simulated_call {scope : List Frame} {function : Function} {arguments : List Expr}
    {type : StaticType} (hfunction : function ≠ .now ∧ function ≠ .matchesPattern)
    (hcheck : function.check (Expr.types arguments) = .ok type)
    (harguments : ∀ e ∈ arguments, Simulated root now e₀ scope e) :
    Simulated root now e₀ scope (.call function arguments) := by
  intro node names' h
  obtain ⟨ns, _, hbuild, hnode⟩ := Result.run_bind_eq_ok.mp h
  obtain ⟨rfl, ms, hms, hns⟩ := agreesAll_of_simulated harguments hbuild
  obtain ⟨rfl, hagrees⟩ := agrees_call hfunction hcheck hns hnode
  exact ⟨rfl, _, Result.run_bind_eq_ok.mpr ⟨ms, _, hms, rfl⟩, hagrees⟩

theorem enter_eq_ok {navigation : Navigation} {bound : String} {names names' : List String} :
    enter navigation bound names = .ok ((), names') ↔
      navigation.origin = names.head? ∧ names' = bound :: names := by
  constructor
  · intro h
    obtain ⟨path, _, hpath, hmodify⟩ := Result.run_bind_eq_ok.mp h
    obtain ⟨horigin, _, rfl⟩ := path_eq_ok.mp hpath
    cases hmodify
    exact ⟨horigin, rfl⟩
  · rintro ⟨horigin, rfl⟩
    exact Result.run_bind_eq_ok.mpr ⟨_, names, path_eq_ok.mpr ⟨horigin, rfl, rfl⟩, rfl⟩

/-- A lambda over the innermost element, with the predicate of its body if there is one. -/
theorem lambda_eq_ok {binder : Binder} {body : Option DocumentNode} {bound : String}
    {names names' : List String} {node : DocumentNode}
    (h : lambda binder body (bound :: names) = .ok (node, names')) :
    names' = names ∧ match body with
      | some n => ∃ f, n.predicate = .ok f ∧
        node = filter (.elements binder.navigation.source binder.quantifier f)
      | none => node = filter (.bare binder.navigation.source binder.quantifier) := by
  obtain ⟨f?, _, hbody, hrest⟩ := Result.run_bind_eq_ok.mp h
  obtain ⟨_, _, hmodify, hothers⟩ := Result.run_bind_eq_ok.mp hrest
  obtain ⟨path, _, hpath, hnode⟩ := Result.run_bind_eq_ok.mp hothers
  cases body with
  | none =>
    cases hbody
    cases hmodify
    obtain ⟨_, rfl, rfl⟩ := path_eq_ok.mp hpath
    cases hnode
    exact ⟨rfl, rfl⟩
  | some n =>
    rw [Option.mapM_some, map_eq_pure_bind] at hbody
    obtain ⟨f, _, hlift, hsome⟩ := Result.run_bind_eq_ok.mp hbody
    obtain ⟨hf, rfl⟩ := lift_eq_ok hlift
    cases hsome
    cases hmodify
    obtain ⟨_, rfl, rfl⟩ := path_eq_ok.mp hpath
    cases hnode
    exact ⟨rfl, f, hf, rfl⟩

/-- The meaning of a lambda over the innermost element. -/
theorem meaning_lambda {binder : Binder} {names : List String}
    (h : binder.navigation.origin = names.head?) (bound : String) (body : Option Meaning) :
    Meaning.builder.lambda binder body (bound :: names) =
      .ok (Meaning.ofLambda binder.quantifier 0 binder.navigation.source body, names) := by
  refine Result.run_bind_eq_ok.mpr ⟨(), names, rfl, ?_⟩
  refine Result.run_bind_eq_ok.mpr ⟨0, names, ?_, rfl⟩
  rw [h]
  exact hops_head names

theorem simulated_lambda {scope : List Frame} {origin : Option String} {entity target : EntityType}
    {p : Property} {link : Link} {quantifier : Quantifier} {frame : Frame} {body : Expr}
    (hentity : Expr.startsAt? root scope origin = some entity) (hp : p ∈ entity.properties)
    (htype : p.type = .collection target link) (hframe : frame.entity = target)
    (hbody : Simulated root now e₀ (frame :: scope) body) :
    Simulated root now e₀ scope
      (.lambda ⟨⟨p.name, p.source, origin, target, link⟩, quantifier, frame.name⟩ body) := by
  intro node names' h
  obtain ⟨_, _, henter, hrest⟩ := Result.run_bind_eq_ok.mp h
  obtain ⟨horigin, rfl⟩ := enter_eq_ok.mp henter
  obtain rfl : origin = (Frame.names scope).head? := horigin
  rw [Frame.startsAt?_head] at hentity
  cases hentity
  obtain ⟨n, _, hbuild, hnode⟩ := Result.run_bind_eq_ok.mp hrest
  obtain ⟨rfl, m, hm, hn⟩ := hbody n _ hbuild
  obtain ⟨rfl, f, hf, rfl⟩ := lambda_eq_ok hnode
  subst hframe
  refine ⟨rfl, _, ?_, .filter rfl rfl ((hn.predicate hf).elements hp htype quantifier)⟩
  refine Result.run_bind_eq_ok.mpr ⟨(), _, rfl, ?_⟩
  exact Result.run_bind_eq_ok.mpr ⟨m, _, hm, meaning_lambda rfl _ _⟩

theorem simulated_bare {scope : List Frame} {origin : Option String} {entity target : EntityType}
    {p : Property} {link : Link} {quantifier : Quantifier}
    (hentity : Expr.startsAt? root scope origin = some entity) (hp : p ∈ entity.properties)
    (htype : p.type = .collection target link) :
    Simulated root now e₀ scope
      (.bare ⟨⟨p.name, p.source, origin, target, link⟩, quantifier, ""⟩) := by
  intro node names' h
  obtain ⟨_, _, henter, hnode⟩ := Result.run_bind_eq_ok.mp h
  obtain ⟨horigin, rfl⟩ := enter_eq_ok.mp henter
  obtain rfl : origin = (Frame.names scope).head? := horigin
  rw [Frame.startsAt?_head] at hentity
  cases hentity
  obtain ⟨rfl, hbare⟩ := lambda_eq_ok hnode
  obtain rfl : node = filter (.bare p.source quantifier) := hbare
  refine ⟨rfl, _, ?_, .filter rfl rfl (DocumentFilter.represents_bare hp htype quantifier)⟩
  exact Result.run_bind_eq_ok.mpr ⟨(), _, rfl, meaning_lambda rfl _ _⟩

/-- Every part of a portable expression is simulated. -/
theorem simulated {scope : List Frame} {e : Expr} (he₀ : e₀.Portable now)
    (h : Expr.Typed root scope e) (he : e.parts ⊆ e₀.parts) :
    Simulated root now e₀ scope e := by
  have hself := he e.self_mem_parts
  induction h with
  | literal => exact simulated_literal _ _
  | field hentity hp htype => exact simulated_field hentity hp htype
  | @binary _ op left right hleft hright hsettled ihl ihr =>
    have hparts := List.cons_subset.mp he
    have hl : left.parts ⊆ e₀.parts := List.Subset.trans (List.subset_append_left _ _) hparts.2
    have hr : right.parts ⊆ e₀.parts := List.Subset.trans (List.subset_append_right _ _) hparts.2
    exact simulated_binary he₀ hself hleft hright hsettled (ihl hl (hl left.self_mem_parts))
      (ihr hr (hr right.self_mem_parts))
  | @unary _ op operand _ _ ih =>
    have hparts : operand.parts ⊆ e₀.parts := (List.cons_subset.mp he).2
    exact simulated_unary (ih hparts (hparts operand.self_mem_parts))
  | @membership _ operand list _ hlist ih =>
    have hparts : operand.parts ⊆ e₀.parts := (List.cons_subset.mp he).2
    exact simulated_membership he₀ hself hlist (ih hparts (hparts operand.self_mem_parts))
  | @call _ function arguments _ _ hcheck ih =>
    have hparts : Expr.partsOfAll arguments ⊆ e₀.parts := (List.cons_subset.mp he).2
    refine simulated_call (he₀.functions _ hself function rfl) hcheck fun e he' => ?_
    have harguments := List.Subset.trans (Expr.parts_subset_partsOfAll he') hparts
    exact ih e he' harguments (harguments e.self_mem_parts)
  | @lambda _ _ _ _ _ _ _ _ body hentity hp htype hframe _ _ ih =>
    have hparts : body.parts ⊆ e₀.parts := (List.cons_subset.mp he).2
    exact simulated_lambda hentity hp htype hframe (ih hparts (hparts body.self_mem_parts))
  | bare hentity hp htype => exact simulated_bare hentity hp htype

end DocumentNode

end ODataQuery
