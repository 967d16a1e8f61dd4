import ODataQuery.Proofs.Event.Walk
import ODataQuery.Proofs.Token.Spelling

/-!
# The tokens of the text of an expression

The text of an expression, as the tokens that it is meant to be scanned into.

## Main definitions

- `Expr.spelling` — the tokens of an expression

## Main statements

- `Expr.allChars_spelling` — the tokens have the characters of the text
-/

namespace ODataQuery

namespace Spelling

def opening (space : Bool) : Spelling := ⟨.leftParen, "(", space⟩

def closing : Spelling := ⟨.rightParen, ")", false⟩

def comma : Spelling := ⟨.comma, ",", false⟩

def slash : Spelling := ⟨.slash, "/", false⟩

def colon : Spelling := ⟨.colon, ":", false⟩

def minus (space : Bool) : Spelling := ⟨.minus, "-", space⟩

/-- A name or the keyword of an operator. -/
def word (text : String) (space : Bool) : Spelling := ⟨.identifier, text, space⟩

/-- A name in front of a parenthesis. -/
def function (text : String) (space : Bool) : Spelling := ⟨.functionName, text, space⟩

def literal (v : Value) (space : Bool) : Spelling := ⟨.literal, v.text, space⟩

/-- Characters behind a space or not. -/
def spaced (space : Bool) (cs : List Char) : List Char := (if space then [' '] else []) ++ cs

section Chars

variable (space : Bool) (text : String) (v : Value)

@[simp]
theorem spaced_false (cs : List Char) : spaced false cs = cs := rfl

@[simp]
theorem spaced_true (cs : List Char) : spaced true cs = ' ' :: cs := rfl

@[simp]
theorem spaced_append (cs cs' : List Char) : spaced space cs ++ cs' = spaced space (cs ++ cs') :=
  List.append_assoc ..

@[simp]
theorem chars_opening : (opening space).chars = spaced space ['('] := by
  cases space <;> simp [opening, chars]

@[simp]
theorem chars_closing : closing.chars = [')'] := by simp [closing, chars]

@[simp]
theorem chars_comma : comma.chars = [','] := by simp [comma, chars]

@[simp]
theorem chars_slash : slash.chars = ['/'] := by simp [slash, chars]

@[simp]
theorem chars_colon : colon.chars = [':'] := by simp [colon, chars]

@[simp]
theorem chars_minus : (minus space).chars = spaced space ['-'] := by
  cases space <;> simp [minus, chars]

@[simp]
theorem chars_word : (word text space).chars = spaced space text.toList := rfl

@[simp]
theorem chars_function : (function text space).chars = spaced space text.toList := rfl

@[simp]
theorem chars_literal : (literal v space).chars = spaced space v.text.toList := rfl

end Chars

end Spelling

namespace Expr

open Spelling (allChars spaced)

-- ════════════════════════════════════════════════════════════════════════
-- Tokens
-- ════════════════════════════════════════════════════════════════════════

/-- The tokens of an operand, in parentheses if it is grouped. -/
def groupSpelling (grouped : Bool) (spell : Bool → List Spelling) (space : Bool) : List Spelling :=
  if grouped then .opening space :: (spell false ++ [.closing]) else spell space

@[simp]
theorem groupSpelling_false (spell : Bool → List Spelling) (space : Bool) :
    groupSpelling false spell space = spell space := rfl

@[simp]
theorem groupSpelling_true (spell : Bool → List Spelling) (space : Bool) :
    groupSpelling true spell space = .opening space :: (spell false ++ [.closing]) := rfl

/-- The tokens of a name below the variable that its path starts at. -/
def pathSpelling (origin : Option String) (name : String) (space : Bool) : List Spelling :=
  match origin with
  | some root => [.word root space, .slash, .word name false]
  | none => [.word name space]

/-- The tokens of a quantifier over a collection, up to the opening parenthesis. -/
def binderSpelling (b : Binder) (space : Bool) : List Spelling :=
  pathSpelling b.navigation.origin b.navigation.name space ++
    [.slash, .function b.quantifier.keyword false, .opening false]

/-- The tokens of the items of a list. -/
def itemSpelling (space : Bool) : List Value → List Spelling
  | [] => []
  | [v] => [.literal v space]
  | v :: vs => .literal v space :: .comma :: itemSpelling true vs

mutual

/-- The tokens of an expression, the first one behind a space or not. -/
def spelling : Expr → Bool → List Spelling
  | literal v, space => [.literal v space]
  | field f, space => pathSpelling f.origin f.name space
  | binary op left right, space =>
    groupSpelling (needsGroup (binary op left right) left .left) (fun s => left.spelling s) space ++
      .word op.keyword true ::
        groupSpelling (needsGroup (binary op left right) right .right)
          (fun s => right.spelling s) true
  | unary .not operand, space =>
    .word "not" space ::
      groupSpelling (needsGroup (unary .not operand) operand .right)
        (fun s => operand.spelling s) true
  | unary .negate operand, space =>
    .minus space ::
      groupSpelling (needsGroup (unary .negate operand) operand .right)
        (fun s => operand.spelling s) false
  | membership operand list, space =>
    groupSpelling (needsGroup (membership operand list) operand .left)
        (fun s => operand.spelling s) space ++
      .word "in" true :: .opening true :: (itemSpelling false list ++ [.closing])
  | call function arguments, space =>
    .function function.name space :: .opening false ::
      (argumentSpelling false arguments ++ [.closing])
  | lambda binder body, space =>
    binderSpelling binder space ++
      .word binder.bound false :: .colon :: (body.spelling false ++ [.closing])
  | bare binder, space => binderSpelling binder space ++ [.closing]

/-- The tokens of arguments. -/
def argumentSpelling (space : Bool) : List Expr → List Spelling
  | [] => []
  | [e] => e.spelling space
  | e :: es => e.spelling space ++ .comma :: argumentSpelling true es

end

-- ════════════════════════════════════════════════════════════════════════
-- Characters
-- ════════════════════════════════════════════════════════════════════════

/-- The characters of events. -/
def eventChars (es : List Event) : List Char := es.flatMap fun e => e.text.toList

@[simp]
theorem eventChars_nil : eventChars [] = [] := rfl

@[simp]
theorem eventChars_cons (e : Event) (es : List Event) :
    eventChars (e :: es) = e.text.toList ++ eventChars es := rfl

@[simp]
theorem eventChars_append (es es' : List Event) :
    eventChars (es ++ es') = eventChars es ++ eventChars es' := List.flatMap_append

theorem toList_text (e : Expr) : e.text.toList = eventChars e.events := by
  rw [text, String.toList_join, List.flatMap_map]
  rfl

/-- An operand has the characters of its events if what is grouped has them. -/
theorem allChars_groupSpelling {grouped : Bool} {spell : Bool → List Spelling} {es : List Event}
    (h : ∀ space, allChars (spell space) = spaced space (eventChars es)) (space : Bool) :
    allChars (groupSpelling grouped spell space) =
      spaced space (eventChars (groupEvents grouped es)) := by
  cases grouped with
  | false => exact h space
  | true => simp [groupEvents, h, Event.text]

theorem allChars_pathSpelling (origin : Option String) (name : String) (space : Bool) :
    allChars (pathSpelling origin name space) = spaced space (qualifiedName origin name).toList := by
  cases origin <;> simp [pathSpelling, qualifiedName]

theorem allChars_binderSpelling (b : Binder) (space : Bool) :
    allChars (binderSpelling b space) = spaced space (Event.lambdaOpen b false).text.toList := by
  simp [binderSpelling, allChars_pathSpelling, Event.text]

theorem allChars_itemSpelling (list : List Value) (space : Bool) (hne : list ≠ []) :
    allChars (itemSpelling space list) = spaced space (eventChars (itemEvents list)) := by
  induction list using itemEvents.induct generalizing space with
  | case1 => exact absurd rfl hne
  | case2 v => simp [itemSpelling, itemEvents, Event.text]
  | case3 v vs hvs ih =>
    rw [itemSpelling.eq_3 space v vs hvs, itemEvents.eq_3 v vs hvs]
    simp [ih true hvs, Event.text]

/-- Arguments have the characters of their events if every argument has. -/
theorem allChars_argumentSpelling {arguments : List Expr}
    (h : ∀ e ∈ arguments, ∀ space, allChars (e.spelling space) = spaced space (eventChars e.events))
    (space : Bool) (hne : arguments ≠ []) :
    allChars (argumentSpelling space arguments) =
      spaced space (eventChars (argumentEvents arguments)) := by
  induction arguments using argumentEvents.induct generalizing space with
  | case1 => exact absurd rfl hne
  | case2 e => simpa [argumentSpelling, argumentEvents] using h e List.mem_cons_self space
  | case3 e es hes ih =>
    have hrest := ih (fun e' he' => h e' (List.mem_cons_of_mem _ he')) true hes
    rw [argumentSpelling.eq_3 space e es hes, argumentEvents.eq_3 e es hes]
    simp [hrest, h e List.mem_cons_self, Event.text]

/-- The tokens of an expression have the characters of its events. -/
theorem allChars_spelling (e : Expr) (space : Bool) :
    allChars (e.spelling space) = spaced space (eventChars e.events) := by
  induction e generalizing space with
  | literal v => simp [spelling, events_literal, Event.text]
  | field f => simp [spelling, events_field, allChars_pathSpelling, Event.text]
  | binary op left right ihl ihr =>
    rw [spelling, events_binary]
    simp [allChars_groupSpelling ihl, allChars_groupSpelling ihr, Event.text, Operator.symbol]
  | unary op operand ih =>
    cases op with
    | not =>
      rw [spelling, events_unary]
      simp [allChars_groupSpelling ih, Event.text]
    | negate =>
      rw [spelling, events_unary]
      simp [allChars_groupSpelling ih, Event.text]
  | membership operand list ih =>
    rw [spelling, events_membership]
    cases list with
    | nil => simp [allChars_groupSpelling ih, itemSpelling, itemEvents, Event.text, Operator.symbol]
    | cons v vs =>
      simp [allChars_groupSpelling ih, allChars_itemSpelling, Event.text, Operator.symbol]
  | call function arguments ih =>
    rw [spelling, events_call]
    cases arguments with
    | nil => simp [argumentSpelling, argumentEvents, Event.text]
    | cons e es => simp [allChars_argumentSpelling ih, Event.text]
  | lambda binder body ih =>
    rw [spelling, events_lambda]
    simp [allChars_binderSpelling, ih, Event.text]
  | bare binder =>
    rw [spelling, events_bare]
    simp [allChars_binderSpelling, Event.text]

end Expr

end ODataQuery
