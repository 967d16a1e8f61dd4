import ODataQuery.Proofs.Expr.Spelling
import ODataQuery.Proofs.Token.Fitting

/-!
# The text of an expression is scanned into its tokens

The operators, separators and parentheses of the text end the literals and names in front of them.

## Main definitions

- `Expr.nodes` — an expression with all its parts
- `Expr.IsPrintable` — whether the names and literals of an expression are scanned as such

## Main statements

- `Expr.allFit_spelling` — each token of an expression fits in front of those behind it
- `Expr.exists_cursor_text` — the cursor at the start of the text shows the tokens
-/

namespace ODataQuery

-- ════════════════════════════════════════════════════════════════════════
-- Names in paths
-- ════════════════════════════════════════════════════════════════════════

namespace Lexeme

/-- A name that is scanned as an identifier, also behind a minus. -/
structure IsReference (name : String) : Prop where
  isName : IsName name.toList
  word : ∀ c ∈ name.toList, isWordCharacter c = true
  shape : Shape.ofText? name.toList = none

/-- What stands behind an identifier. -/
structure EndsIdentifier (rest : List Char) : Prop where
  name : EndsName rest
  paren : rest.head? ≠ some '('
  quote : rest.head? ≠ some '\''

theorem endsIdentifier_of_mem {c : Char} (h : c ∈ [' ', ')', ',', '/', ':']) (rest : List Char) :
    EndsIdentifier (c :: rest) := by
  have hall : ∀ d ∈ [' ', ')', ',', '/', ':'], d ≠ '(' ∧ d ≠ '\'' := by decide
  have hsubset : [' ', ')', ',', '/', ':'] ⊆ [' ', ')', ',', '/', ':', '(', '\''] := by decide
  obtain ⟨hparen, hquote⟩ := hall c h
  exact ⟨endsName_of_mem (hsubset h) rest, by simpa using hparen, by simpa using hquote⟩

theorem endsIdentifier_of_ends {rest : List Char} (h : Ends rest) : EndsIdentifier rest := by
  cases rest with
  | nil => exact ⟨endsName_of_ends h, by simp, by simp⟩
  | cons c rest =>
    have hsubset : [' ', ')', ','] ⊆ [' ', ')', ',', '/', ':'] := by decide
    exact endsIdentifier_of_mem (hsubset (h c rfl)) rest

end Lexeme

namespace Spelling

open Lexeme

variable {space : Bool} {rest : List Char}

theorem fits_opening : (opening space).Fits rest :=
  fits_mark '(' (by simp) (by simp) (by decide) fun _ => rfl

theorem fits_closing : closing.Fits rest :=
  fits_mark ')' (by simp) (by simp) (by decide) fun _ => rfl

theorem fits_comma : comma.Fits rest :=
  fits_mark ',' (by simp) (by simp) (by decide) fun _ => rfl

theorem fits_slash : slash.Fits rest :=
  fits_mark '/' (by simp) (by simp) (by decide) fun _ => rfl

theorem fits_colon : colon.Fits rest :=
  fits_mark ':' (by simp) (by simp) (by decide) fun _ => rfl

theorem fits_word {name : String} (h : IsReference name) (hrest : EndsIdentifier rest) :
    (word name space).Fits rest :=
  fits_identifier h.isName h.shape hrest.name hrest.paren hrest.quote

/-- The keyword of an operator fits in front of a space. -/
theorem fits_keyword (op : BinaryOp) : (word op.keyword space).Fits (' ' :: rest) := by
  have hname : IsName op.keyword.toList ∧ Shape.ofText? op.keyword.toList = none := by
    cases op <;> decide
  exact fits_identifier hname.1 hname.2 (endsName_of_mem (by decide) rest) (by simp) (by simp)

theorem fits_not : (word "not" space).Fits (' ' :: rest) :=
  fits_identifier (by decide) (by decide) (endsName_of_mem (by decide) rest) (by simp) (by simp)

theorem fits_in : (word "in" space).Fits (' ' :: rest) :=
  fits_identifier (by decide) (by decide) (endsName_of_mem (by decide) rest) (by simp) (by simp)

theorem fits_function (f : Function) : (function f.name space).Fits ('(' :: rest) := by
  have hname : IsName f.name.toList := by cases f <;> decide
  exact fits_functionName hname

theorem fits_quantifier (q : Quantifier) : (function q.keyword space).Fits ('(' :: rest) := by
  have hname : IsName q.keyword.toList := by cases q <;> decide
  exact fits_functionName hname

theorem AllFit.cons {s : Spelling} {ls : List Spelling} (h : s.Fits (allChars ls)) (hls : AllFit ls) :
    AllFit (s :: ls) := ⟨h, hls⟩

/-- Tokens that fit in front of every text that ends literals and names. -/
def Join (spell : Bool → List Spelling) : Prop :=
  ∀ ⦃ls⦄, AllFit ls → Ends (allChars ls) → ∀ space, AllFit (spell space ++ ls)

section Ends

variable {ls : List Spelling}

theorem ends_of_space {s : Spelling} (h : s.leadingSpace = true) : Ends (allChars (s :: ls)) := by
  rw [allChars_cons, chars, h]
  intro c hc
  cases hc
  decide

theorem ends_closing : Ends (allChars (closing :: ls)) := by
  rw [allChars_cons, chars_closing]
  intro c hc
  cases hc
  decide

theorem ends_comma : Ends (allChars (comma :: ls)) := by
  rw [allChars_cons, chars_comma]
  intro c hc
  cases hc
  decide

theorem endsIdentifier_slash : EndsIdentifier (allChars (slash :: ls)) := by
  rw [allChars_cons, chars_slash]
  exact endsIdentifier_of_mem (by decide) _

theorem endsIdentifier_colon : EndsIdentifier (allChars (colon :: ls)) := by
  rw [allChars_cons, chars_colon]
  exact endsIdentifier_of_mem (by decide) _

end Ends

end Spelling

namespace Expr

open Lexeme Spelling

-- ════════════════════════════════════════════════════════════════════════
-- Parts
-- ════════════════════════════════════════════════════════════════════════

mutual

/-- An expression with all its parts. -/
def nodes : Expr → List Expr
  | literal v => [literal v]
  | field f => [field f]
  | binary op left right => binary op left right :: (left.nodes ++ right.nodes)
  | unary op operand => unary op operand :: operand.nodes
  | membership operand list => membership operand list :: operand.nodes
  | call function arguments => call function arguments :: argumentNodes arguments
  | lambda binder body => lambda binder body :: body.nodes
  | bare binder => [bare binder]

/-- The parts of arguments. -/
def argumentNodes : List Expr → List Expr
  | [] => []
  | e :: es => e.nodes ++ argumentNodes es

end

theorem mem_argumentNodes {arguments : List Expr} {n : Expr} :
    n ∈ argumentNodes arguments ↔ ∃ e ∈ arguments, n ∈ e.nodes := by
  induction arguments with
  | nil => simp [argumentNodes]
  | cons e es ih => simp [argumentNodes, ih]

/-- Names that start a path or end it. -/
def IsPathPrintable (origin : Option String) (name : String) : Prop :=
  (∀ root ∈ origin, IsReference root) ∧ IsReference name

/-- Whether the names and literals of a node are scanned as such. A minus would become a part of the
number behind it. -/
def IsNodePrintable : Expr → Prop
  | literal v => v.IsReadable
  | field f => IsPathPrintable f.origin f.name
  | unary .negate operand => ∀ v, operand = literal v → v = .null
  | membership _ list => ∀ v ∈ list, v.IsReadable
  | lambda binder _ =>
    IsPathPrintable binder.navigation.origin binder.navigation.name ∧ IsReference binder.bound
  | bare binder => IsPathPrintable binder.navigation.origin binder.navigation.name
  | _ => True

/-- Whether all names and literals of an expression are scanned as such. -/
def IsPrintable (e : Expr) : Prop := ∀ n ∈ e.nodes, n.IsNodePrintable

-- ════════════════════════════════════════════════════════════════════════
-- Fitting tokens
-- ════════════════════════════════════════════════════════════════════════

/-- An operand joins texts if what is grouped does. -/
theorem join_groupSpelling {spell : Bool → List Spelling} (h : Join spell) (grouped : Bool) :
    Join (groupSpelling grouped spell) := by
  cases grouped with
  | false => exact h
  | true =>
    intro ls hls _ space
    simp only [groupSpelling, if_true, List.cons_append, List.append_assoc, List.nil_append]
    exact .cons fits_opening (h (.cons fits_closing hls) ends_closing false)

theorem allFit_pathSpelling {origin : Option String} {name : String}
    (h : IsPathPrintable origin name) {ls : List Spelling} (hls : AllFit ls)
    (hends : EndsIdentifier (allChars ls)) (space : Bool) :
    AllFit (pathSpelling origin name space ++ ls) := by
  cases origin with
  | none => exact .cons (fits_word h.2 hends) hls
  | some root =>
    have hname : AllFit (word name false :: ls) := .cons (fits_word h.2 hends) hls
    exact .cons (fits_word (h.1 root rfl) endsIdentifier_slash) (.cons fits_slash hname)

theorem allFit_binderSpelling {b : Binder}
    (h : IsPathPrintable b.navigation.origin b.navigation.name) {ls : List Spelling}
    (hls : AllFit ls) (space : Bool) : AllFit (binderSpelling b space ++ ls) := by
  have hopening : AllFit (opening false :: ls) := .cons fits_opening hls
  have hkeyword : AllFit (function b.quantifier.keyword false :: opening false :: ls) := by
    refine .cons ?_ hopening
    rw [allChars_cons, chars_opening]
    exact fits_quantifier b.quantifier
  rw [binderSpelling, List.append_assoc]
  exact allFit_pathSpelling h (.cons fits_slash hkeyword) endsIdentifier_slash space

theorem join_itemSpelling {list : List Value} (h : ∀ v ∈ list, v.IsReadable) :
    Join fun space => itemSpelling space list := by
  intro ls hls hends space
  dsimp only
  induction list using itemEvents.induct generalizing space with
  | case1 => exact hls
  | case2 v => exact .cons (fits_literal (h v List.mem_cons_self) hends) hls
  | case3 v vs hvs ih =>
    have hrest := ih (fun v' hv' => h v' (List.mem_cons_of_mem _ hv')) true
    rw [itemSpelling.eq_3 space v vs hvs]
    exact .cons (fits_literal (h v List.mem_cons_self) ends_comma) (.cons fits_comma hrest)

theorem join_argumentSpelling {arguments : List Expr} (h : ∀ e ∈ arguments, Join e.spelling) :
    Join fun space => argumentSpelling space arguments := by
  intro ls hls hends space
  dsimp only
  induction arguments using argumentEvents.induct generalizing space with
  | case1 => exact hls
  | case2 e => exact h e List.mem_cons_self hls hends space
  | case3 e es hes ih =>
    have hrest := ih (fun e' he' => h e' (List.mem_cons_of_mem _ he')) true
    simp only [argumentSpelling.eq_3 space e es hes, List.append_assoc, List.cons_append]
    exact h e List.mem_cons_self (.cons fits_comma hrest) ends_comma space

/-- The path of a reference may follow a minus. -/
theorem fits_minus_path {origin : Option String} {name : String} (h : IsPathPrintable origin name)
    {ls : List Spelling} (hends : EndsName (allChars ls)) (space : Bool) :
    (minus space).Fits (allChars (pathSpelling origin name false ++ ls)) := by
  have hallows {text : String} (ht : IsReference text) : AllowsMinus text.toList :=
    allowsMinus_of_shape ht.isName ht.word ht.shape
  cases origin with
  | none =>
    show (minus space).Fits (name.toList ++ allChars ls)
    exact fits_minus_name (hallows h.2) hends
  | some root =>
    show (minus space).Fits (root.toList ++ allChars (slash :: word name false :: ls))
    exact fits_minus_name (hallows (h.1 root rfl)) endsIdentifier_slash.name

/-- So may every operand that is no number. -/
theorem fits_minus {operand : Expr} (hprint : (unary .negate operand).IsNodePrintable)
    (h : operand.IsNodePrintable) {ls : List Spelling} (hends : Ends (allChars ls)) (space : Bool) :
    (minus space).Fits (allChars (groupSpelling (needsGroup (unary .negate operand) operand .right)
      operand.spelling false ++ ls)) := by
  cases hgroup : needsGroup (unary .negate operand) operand .right with
  | true =>
    simp only [groupSpelling, if_true, List.cons_append, allChars_cons, chars_opening, spaced_false]
    exact fits_minus_paren
  | false =>
    have hnone := precedence_of_needsGroup_prefixed (unary .negate operand) rfl rfl hgroup
    have hfunction (f : Function) (rest : List Char) :
        (minus space).Fits (f.name.toList ++ '(' :: rest) := by
      have hallows : AllowsMinus f.name.toList := by
        cases f <;> exact ⟨by decide, by decide, by decide, by decide⟩
      exact fits_minus_name hallows (endsName_of_mem (by decide) rest)
    have hnull : AllowsMinus "null".toList := ⟨by decide, by decide, by decide, by decide⟩
    cases operand with
    | literal v =>
      obtain rfl := hprint v rfl
      exact fits_minus_name hnull (endsName_of_ends hends)
    | field f => exact fits_minus_path h (endsName_of_ends hends) space
    | binary | unary | membership => cases hnone
    | call function arguments =>
      rw [groupSpelling_false, spelling, List.cons_append, allChars_cons, chars_function,
        List.cons_append, allChars_cons, chars_opening]
      exact hfunction function _
    | lambda binder body =>
      rw [groupSpelling_false, spelling, binderSpelling, List.append_assoc, List.append_assoc]
      exact fits_minus_path h.1 endsIdentifier_slash.name space
    | bare binder =>
      rw [groupSpelling_false, spelling, binderSpelling, List.append_assoc, List.append_assoc]
      exact fits_minus_path h endsIdentifier_slash.name space

theorem mem_nodes (e : Expr) : e ∈ e.nodes := by
  cases e <;> exact List.mem_cons_self

/-- An operand behind a space starts with it. -/
theorem exists_allChars_group (e : Expr) (grouped : Bool) (ls : List Spelling) :
    ∃ cs, allChars (groupSpelling grouped e.spelling true ++ ls) = ' ' :: cs := by
  rw [allChars_append, allChars_groupSpelling (allChars_spelling e), spaced_true]
  exact ⟨_, rfl⟩

theorem join_binary {op : BinaryOp} {left right : Expr} (hl : Join left.spelling)
    (hr : Join right.spelling) : Join (binary op left right).spelling := by
  intro ls hls hends space
  have hright := join_groupSpelling hr (needsGroup (binary op left right) right .right) hls hends true
  obtain ⟨cs, hspace⟩ := exists_allChars_group right
    (needsGroup (binary op left right) right .right) ls
  rw [spelling, List.append_assoc, List.cons_append]
  refine join_groupSpelling hl _ (.cons ?_ hright) (ends_of_space rfl) space
  rw [hspace]
  exact fits_keyword op

theorem join_unary {op : UnaryOp} {operand : Expr} (hnode : (unary op operand).IsNodePrintable)
    (hoperand : operand.IsNodePrintable) (h : Join operand.spelling) :
    Join (unary op operand).spelling := by
  have hjoin := join_groupSpelling h
  intro ls hls hends space
  cases op with
  | not =>
    obtain ⟨cs, hspace⟩ := exists_allChars_group operand
      (needsGroup (unary .not operand) operand .right) ls
    rw [spelling, List.cons_append]
    refine .cons ?_ (hjoin _ hls hends true)
    rw [hspace]
    exact fits_not
  | negate =>
    rw [spelling, List.cons_append]
    exact .cons (fits_minus hnode hoperand hends space) (hjoin _ hls hends false)

theorem join_membership {operand : Expr} {list : List Value} (hlist : ∀ v ∈ list, v.IsReadable)
    (h : Join operand.spelling) : Join (membership operand list).spelling := by
  intro ls hls hends space
  have hitems : AllFit (itemSpelling false list ++ closing :: ls) :=
    join_itemSpelling hlist (.cons fits_closing hls) ends_closing false
  rw [spelling, List.append_assoc, List.cons_append, List.cons_append, List.append_assoc]
  refine join_groupSpelling h _ (.cons ?_ (.cons fits_opening hitems)) (ends_of_space rfl) space
  rw [allChars_cons, chars_opening]
  exact fits_in

theorem join_call (function : Function) {arguments : List Expr}
    (h : ∀ e ∈ arguments, Join e.spelling) : Join (call function arguments).spelling := by
  intro ls hls hends space
  have harguments : AllFit (argumentSpelling false arguments ++ closing :: ls) :=
    join_argumentSpelling h (.cons fits_closing hls) ends_closing false
  rw [spelling, List.cons_append, List.cons_append, List.append_assoc]
  refine .cons ?_ (.cons fits_opening harguments)
  rw [allChars_cons, chars_opening]
  exact fits_function function

theorem join_lambda {binder : Binder} {body : Expr}
    (hnode : (lambda binder body).IsNodePrintable) (h : Join body.spelling) :
    Join (lambda binder body).spelling := by
  obtain ⟨hpath, hbound⟩ := hnode
  intro ls hls hends space
  have hbody : AllFit (body.spelling false ++ closing :: ls) :=
    h (.cons fits_closing hls) ends_closing false
  rw [spelling, List.append_assoc, List.cons_append, List.cons_append, List.append_assoc]
  exact allFit_binderSpelling hpath
    (.cons (fits_word hbound endsIdentifier_colon) (.cons fits_colon hbody)) space

/-- Each token of a printable expression fits in front of those behind it. -/
theorem allFit_spelling {e : Expr} (h : e.IsPrintable) : Join e.spelling := by
  induction e with
  | literal v =>
    intro ls hls hends space
    exact .cons (fits_literal (h _ (mem_nodes _)) hends) hls
  | field f =>
    intro ls hls hends space
    exact allFit_pathSpelling (h _ (mem_nodes _)) hls (endsIdentifier_of_ends hends) space
  | binary op left right ihl ihr =>
    obtain ⟨_, hparts⟩ := List.forall_mem_cons.mp h
    obtain ⟨hl, hr⟩ := List.forall_mem_append.mp hparts
    exact join_binary (ihl hl) (ihr hr)
  | unary op operand ih =>
    obtain ⟨hnode, hparts⟩ := List.forall_mem_cons.mp h
    exact join_unary hnode (hparts _ (mem_nodes _)) (ih hparts)
  | membership operand list ih =>
    obtain ⟨hnode, hparts⟩ := List.forall_mem_cons.mp h
    exact join_membership hnode (ih hparts)
  | call function arguments ih =>
    obtain ⟨_, hparts⟩ := List.forall_mem_cons.mp h
    exact join_call function fun e he =>
      ih e he fun n hn => hparts n (mem_argumentNodes.mpr ⟨e, he, hn⟩)
  | lambda binder body ih =>
    obtain ⟨hnode, hparts⟩ := List.forall_mem_cons.mp h
    exact join_lambda hnode (ih hparts)
  | bare binder =>
    intro ls hls hends space
    rw [spelling, List.append_assoc]
    exact allFit_binderSpelling (h _ (mem_nodes _)) (.cons fits_closing hls) space

/-- The cursor at the start of the text of a printable expression shows the tokens of it. -/
theorem exists_cursor_text {e : Expr} (h : e.IsPrintable) :
    ∃ c, Cursor.ofText e.text.toList = .ok c ∧ c.Shows (e.spelling false) := by
  have hfit : AllFit (e.spelling false) := by
    have hends : Ends (allChars []) := fun c hc => by cases hc
    have := allFit_spelling h (show AllFit [] from trivial) hends false
    rwa [List.append_nil] at this
  have htext : allChars (e.spelling false) = e.text.toList := by
    rw [allChars_spelling, toList_text, spaced_false]
  rw [← htext]
  exact Spelling.exists_cursor hfit

end Expr

end ODataQuery
