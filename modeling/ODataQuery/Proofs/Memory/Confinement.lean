import ODataQuery.Proofs.Lists
import ODataQuery.Proofs.Memory.Evaluation
import ODataQuery.Proofs.Reading.Refusal
import ODataQuery.Proofs.Reading.Typing
import ODataQuery.Proofs.Search.Predicate

/-!
# Confinement to allowed data

Records that agree on the properties of an allow-list cannot be told apart by a predicate that was
read under the allow-list.

## Main definitions

- `AllowList.Agree` — two records agree on the allowed properties of an entity type
- `Environment.Agree` — two environments bind the same names to agreeing records

## Main statements

- `Expr.Typed.eval_eq` — agreeing environments give an expression the same value
- `Predicate.value_eq_of_agree` — agreeing records give a compiled predicate the same value
-/

namespace ODataQuery

-- ════════════════════════════════════════════════════════════════════════
-- Agreement
-- ════════════════════════════════════════════════════════════════════════

/-- The two records have the same values under the storage keys of all scalar properties of the
entity type that are allowed, and equally many related records under the keys of the collections,
which agree in pairs. The paths of the properties start with `above`, which is empty or ends in a
slash. -/
inductive AllowList.Agree (allowed : AllowList) : (above : String) → EntityType → Record →
    Record → Prop
  | intro {above : String} {entity : EntityType} {r s : Record}
      (hscalars : ∀ p ∈ entity.properties, p.isCollection = false →
        allowed.allows (above ++ p.name) = true → r.value p.source = s.value p.source)
      (hlengths : ∀ p ∈ entity.properties, p.isCollection = true →
        allowed.allows (above ++ p.name) = true →
          (r.related p.source).length = (s.related p.source).length)
      (helements : ∀ p ∈ entity.properties, ∀ target link, p.type = .collection target link →
        allowed.allows (above ++ p.name) = true →
          ∀ i ∈ (r.related p.source).zip (s.related p.source),
            Agree allowed (above ++ p.name ++ "/") target i.1 i.2) :
      Agree allowed above entity r s

namespace AllowList

variable {allowed : AllowList} {above : String} {entity : EntityType} {r s : Record} {p : Property}

theorem Agree.scalar (h : allowed.Agree above entity r s) (hp : p ∈ entity.properties)
    {type : StaticType} (htype : p.type.scalar? = some type)
    (hallowed : allowed.allows (above ++ p.name) = true) : r.value p.source = s.value p.source := by
  cases h with
  | intro hscalars =>
    refine hscalars p hp ?_ hallowed
    cases hcollection : p.type with
    | collection target link =>
      rw [hcollection] at htype
      cases htype
    | _ => simp [Property.isCollection, hcollection]

theorem Agree.length (h : allowed.Agree above entity r s) (hp : p ∈ entity.properties)
    {target : EntityType} {link : Link} (htype : p.type = .collection target link)
    (hallowed : allowed.allows (above ++ p.name) = true) :
    (r.related p.source).length = (s.related p.source).length := by
  cases h with
  | intro _ hlengths => exact hlengths p hp (by simp [Property.isCollection, htype]) hallowed

/-- Tests that cannot tell agreeing elements apart have the same outcomes on a collection. -/
theorem Agree.map_related (h : allowed.Agree above entity r s) (hp : p ∈ entity.properties)
    {target : EntityType} {link : Link} (htype : p.type = .collection target link)
    (hallowed : allowed.allows (above ++ p.name) = true) (test test' : Record → Bool)
    (htest : ∀ a b, allowed.Agree (above ++ p.name ++ "/") target a b → test a = test' b) :
    (r.related p.source).map test = (s.related p.source).map test' := by
  have hlength := h.length hp htype hallowed
  cases h with
  | intro _ _ helements =>
    refine (Lists.map_eq_map_of_zip hlength.symm fun i hi => ?_).symm
    exact (htest _ _ (helements p hp _ _ htype hallowed i hi)).symm

end AllowList

/-- The bound records agree, each on the entity type that its variable ranges over, below the path
of the variable. -/
inductive AgreeBound (allowed : AllowList) : List Frame → PathEnv → List (String × Record) →
    List (String × Record) → Prop
  | nil : AgreeBound allowed [] [] [] []
  | cons {scope paths bound bound'} {frame : Frame} {path : String} {r s : Record}
      (h : allowed.Agree (path ++ "/") frame.entity r s)
      (hrest : AgreeBound allowed scope paths bound bound') :
      AgreeBound allowed (frame :: scope) ((frame.name, path) :: paths) ((frame.name, r) :: bound)
        ((frame.name, s) :: bound')

/-- The two environments are at the same instant and bind the same names to agreeing records. -/
structure Environment.Agree (allowed : AllowList) (root : EntityType) (scope : List Frame)
    (paths : PathEnv) (env env' : Environment) : Prop where
  now : env.now = env'.now
  root : allowed.Agree "" root env.root env'.root
  bound : AgreeBound allowed scope paths env.bound env'.bound

/-- A variable in scope is bound to agreeing records on both sides. -/
theorem AgreeBound.exists_lookup {allowed : AllowList} {scope : List Frame} {paths : PathEnv}
    {bound bound' : List (String × Record)} (h : AgreeBound allowed scope paths bound bound')
    {name : String} {frame : Frame} (hframe : Frame.find? scope name = some frame) :
    ∃ path r s, paths.lookup name = some path ∧ bound.lookup name = some r ∧
      bound'.lookup name = some s ∧ allowed.Agree (path ++ "/") frame.entity r s := by
  induction h with
  | nil => cases hframe
  | @cons scope paths bound bound' first path r s hagree hrest ih =>
    by_cases hname : first.name = name
    · have hfirst : first = frame := by simpa [Frame.find?, hname] using hframe
      subst hfirst
      exact ⟨path, r, s, by simp [hname], by simp [hname], by simp [hname], hagree⟩
    · have hrestFrame : Frame.find? scope name = some frame := by
        simpa [Frame.find?, hname] using hframe
      have hne : (name == first.name) = false := by simpa using Ne.symm hname
      simpa only [List.lookup_cons, hne] using ih hrestFrame

-- ════════════════════════════════════════════════════════════════════════
-- Values
-- ════════════════════════════════════════════════════════════════════════

namespace Environment

variable {allowed : AllowList} {root : EntityType} {scope : List Frame} {paths : PathEnv}
  {env env' : Environment}

/-- A reference starts at agreeing records, below whose path the properties are allowed. -/
theorem Agree.exists_record (h : Agree allowed root scope paths env env') {origin : Option String}
    {entity : EntityType} (hentity : Expr.startsAt? root scope origin = some entity) :
    ∃ above r s, env.record? origin = some r ∧ env'.record? origin = some s ∧
      allowed.Agree above entity r s ∧ ∀ name, paths.path origin name = above ++ name := by
  cases origin with
  | none =>
    cases hentity
    exact ⟨"", env.root, env'.root, rfl, rfl, h.root, fun name => by simp [PathEnv.path]⟩
  | some variableName =>
    obtain ⟨frame, hframe, rfl⟩ := Option.map_eq_some_iff.mp hentity
    obtain ⟨path, r, s, hpath, hr, hs, hagree⟩ := h.bound.exists_lookup hframe
    exact ⟨path ++ "/", r, s, hr, hs, hagree, fun name => by simp [PathEnv.path, hpath]⟩

theorem Agree.enter (h : Agree allowed root scope paths env env') {frame : Frame} {path : String}
    {r s : Record} (hagree : allowed.Agree (path ++ "/") frame.entity r s) :
    Agree allowed root (frame :: scope) ((frame.name, path) :: paths) (env.bind frame.name r)
      (env'.bind frame.name s) :=
  ⟨h.now, h.root, .cons hagree h.bound⟩

end Environment

namespace Expr

variable {allowed : AllowList} {root : EntityType} {scope : List Frame}

/-- Expressions with the same values have them together. -/
theorem evalAll_eq {env env' : Environment} {es : List Expr}
    (h : ∀ e ∈ es, e.eval env = e.eval env') : evalAll env es = evalAll env' es := by
  induction es with
  | nil => rfl
  | cons e es ih =>
    have hrest := ih fun e' he' => h e' (List.mem_cons_of_mem _ he')
    rw [evalAll, evalAll, h e List.mem_cons_self, hrest]

theorem paths_subset_argumentPaths {paths : PathEnv} {e : Expr} {es : List Expr} (h : e ∈ es) :
    e.paths paths ⊆ argumentPaths paths es :=
  Lists.subset_of_mem (fun _ _ => argumentPaths.eq_2 ..) h

/-- Environments that agree on the allowed properties give the same value to an expression whose
references are to allowed properties. -/
theorem Typed.eval_eq {e : Expr} (he : Typed root scope e) {paths : PathEnv}
    {env env' : Environment} (h : Environment.Agree allowed root scope paths env env')
    (hallowed : ∀ p ∈ e.paths paths, allowed.allows p = true) : e.eval env = e.eval env' := by
  induction he generalizing paths env env' with
  | literal => rfl
  | field hentity hp htype =>
    obtain ⟨above, r, s, hr, hs, hagree, hpath⟩ := h.exists_record hentity
    have hmem := hallowed _ List.mem_cons_self
    rw [hpath] at hmem
    simp only [eval, Environment.value, hr, hs]
    exact hagree.scalar hp htype hmem
  | binary _ _ _ ihl ihr =>
    rw [Expr.paths] at hallowed
    obtain ⟨hleft, hright⟩ := List.forall_mem_append.mp hallowed
    rw [eval, eval, ihl h hleft, ihr h hright]
  | unary _ _ ih => rw [eval, eval, ih h hallowed]
  | membership _ _ ih => rw [eval, eval, ih h hallowed]
  | call _ _ ih =>
    rw [Expr.paths] at hallowed
    have harguments := evalAll_eq fun e he => ih e he h fun p hp =>
      hallowed p (paths_subset_argumentPaths he hp)
    rw [eval, eval, harguments, h.now]
  | @lambda scope origin entity p target link quantifier frame body hentity hp htype hframe _ _ ih =>
    obtain ⟨above, r, s, hr, hs, hagree, hpath⟩ := h.exists_record hentity
    rw [Expr.paths] at hallowed
    obtain ⟨hmem, hbody⟩ := List.forall_mem_cons.mp hallowed
    simp only [hpath] at hmem hbody
    -- elements that agree make the body true together
    have helements := hagree.map_related hp htype hmem
      (fun record => body.eval (env.bind frame.name record) == .boolean true)
      (fun record => body.eval (env'.bind frame.name record) == .boolean true)
      fun a b hab => by rw [ih (h.enter (hframe ▸ hab)) hbody]
    simp only [eval, Environment.related, hr, hs]
    cases quantifier with
    | any => rw [Lists.any_eq_any_map, helements, ← Lists.any_eq_any_map]
    | all => rw [Lists.all_eq_all_map, helements, ← Lists.all_eq_all_map]
  | @bare scope origin entity p target link quantifier hentity hp htype =>
    obtain ⟨above, r, s, hr, hs, hagree, hpath⟩ := h.exists_record hentity
    have hmem := hallowed _ List.mem_cons_self
    simp only [hpath] at hmem
    have hempty : (r.related p.source).isEmpty = (s.related p.source).isEmpty := by
      rw [Bool.eq_iff_iff, List.isEmpty_iff_length_eq_zero, List.isEmpty_iff_length_eq_zero,
        hagree.length hp htype hmem]
    simp only [eval, Environment.related, hr, hs, hempty]

end Expr

-- ════════════════════════════════════════════════════════════════════════
-- Filters and searches
-- ════════════════════════════════════════════════════════════════════════

/-- The expression is a filter that was read under the allow-list, or the predicate of a search
over the fields that the allow-list has. -/
inductive Expr.ReadUnder (entity : EntityType) (allowed : AllowList) : Expr → Prop
  | filter {text : String} {maxDepth : Nat} {e : Expr}
      (h : Expr.readFilter text entity allowed maxDepth = .ok e) : ReadUnder entity allowed e
  | search {text : String} {maxDepth : Nat} {search : Search}
      (h : Search.ofText text maxDepth = .ok search) :
      ReadUnder entity allowed (search.predicate (Search.fields entity allowed))

theorem Expr.ReadUnder.admitted {entity : EntityType} {allowed : AllowList} {e : Expr}
    (h : e.ReadUnder entity allowed) : Search.Admitted entity allowed e := by
  cases h with
  | @filter text maxDepth _ h =>
    obtain ⟨htyped, htype⟩ := typed_of_readFilter h
    obtain ⟨c, c', hc, _, hfilter⟩ := Setting.run_eq_ok.mp h
    have hpermits := Setting.filter_permits (Cursor.hasText_of_ofText hc) hfilter
    exact ⟨htyped, htype, fun p hp => (hpermits p hp).1⟩
  | search => exact Search.admitted_predicate _

/-- A predicate that was read under an allow-list, as a filter or as a search, has the same value
on records that agree on the allowed properties of the entity type. -/
theorem Predicate.value_eq_of_agree {entity : EntityType} {allowed : AllowList} {e : Expr}
    (he : e.ReadUnder entity allowed) {p : Predicate} (hp : ofExpr e = .ok p) {r s : Record}
    (h : allowed.Agree "" entity r s) (now : Instant) : p.value now r = p.value now s := by
  obtain ⟨htyped, _, hallowed⟩ := he.admitted
  obtain ⟨m, hm, hpredicate⟩ := Result.bind_eq_ok.mp hp
  cases hpredicate
  have hagree : Environment.Agree allowed entity [] [] ⟨now, r, []⟩ ⟨now, s, []⟩ :=
    ⟨rfl, h, .nil⟩
  calc m ⟨now, [r]⟩ = e.eval ⟨now, r, []⟩ := Meaning.eval_of_ofExpr hm now r
    _ = e.eval ⟨now, s, []⟩ := htyped.eval_eq hagree hallowed
    _ = m ⟨now, [s]⟩ := (Meaning.eval_of_ofExpr hm now s).symm

/-- `lines/any(l:l/qty gt limit)` cannot tell orders apart that differ in the notes of their lines
and in the discount, which are not allowed. -/
theorem Predicate.value_eq_of_agree_orders :
    let line : EntityType := ⟨"Line", "lines",
      [⟨"qty", "qty", .primitive .int32, false⟩, ⟨"note", "note", .primitive .string, true⟩]⟩
    let order : EntityType := ⟨"Order", "orders",
      [⟨"limit", "limit", .primitive .int32, false⟩,
        ⟨"discount", "discount", .primitive .int32, true⟩,
        ⟨"lines", "lines", .collection line ⟨"id", "order"⟩, false⟩]⟩
    let allowed : AllowList := .ofList ["limit", "lines", "lines/qty"]
    let record (discount : Int32) (note : String) : Record :=
      [("discount", .value (.int32 discount)), ("limit", .value (.int32 5)),
        ("lines", .related [[("note", .value (.string note)), ("qty", .value (.int32 7))]])]
    allowed.Agree "" order (record 10 "gift") (record 20 "") ∧
      ∃ e p, e.ReadUnder order allowed ∧ ofExpr e = .ok p ∧
        p.value .earliest (record 10 "gift") = p.value .earliest (record 20 "") := by
  intro line order allowed record
  have hqty : allowed.Agree "lines/" line
      [("note", .value (.string "gift")), ("qty", .value (.int32 7))]
      [("note", .value (.string "")), ("qty", .value (.int32 7))] := by
    refine .intro ?_ ?_ ?_
    · intro p hp _ hallowed
      obtain rfl | rfl : p = ⟨"qty", "qty", .primitive .int32, false⟩ ∨
          p = ⟨"note", "note", .primitive .string, true⟩ := by simpa [line] using hp
      · rfl
      · exact absurd hallowed (by decide)
    · intro p hp hcollection
      obtain rfl | rfl : p = ⟨"qty", "qty", .primitive .int32, false⟩ ∨
          p = ⟨"note", "note", .primitive .string, true⟩ := by simpa [line] using hp
      all_goals cases hcollection
    · intro p hp target link htype
      obtain rfl | rfl : p = ⟨"qty", "qty", .primitive .int32, false⟩ ∨
          p = ⟨"note", "note", .primitive .string, true⟩ := by simpa [line] using hp
      all_goals cases htype
  have hagree : allowed.Agree "" order (record 10 "gift") (record 20 "") := by
    refine .intro ?_ ?_ ?_
    · intro p hp hscalar hallowed
      obtain rfl | rfl | rfl := by simpa [order] using hp
      · rfl
      · exact absurd hallowed (by decide)
      · cases hscalar
    · intro p hp hcollection _
      obtain rfl | rfl | rfl := by simpa [order] using hp
      · cases hcollection
      · cases hcollection
      · rfl
    · intro p hp target link htype _
      obtain rfl | rfl | rfl := by simpa [order] using hp
      · cases htype
      · cases htype
      · cases htype
        intro i hi
        obtain rfl := List.mem_singleton.mp hi
        exact hqty
  have hread : Result.passes (fun e => Result.passes (fun _ => true) (ofExpr e))
      (Expr.readFilter "lines/any(l:l/qty gt limit)" order allowed defaultMaxDepth) = true := by
    decide +kernel
  obtain ⟨e, hread, hcompile⟩ := Result.exists_of_passes hread
  obtain ⟨p, hp, _⟩ := Result.exists_of_passes hcompile
  exact ⟨hagree, e, p, .filter hread, hp, value_eq_of_agree (.filter hread) hp hagree .earliest⟩

end ODataQuery
