import Mathlib.Data.List.Chain
import ODataQuery.Proofs.Token.Lookahead

/-!
# Other names for identifiers

A text whose tokens do not run into each other can be given other names for some of its identifiers:
the other tokens are scanned as before, wherever they stand.

## Main definitions

- `Spelling.Parted` — two tokens in a row do not run into each other
- `Spelling.Respells` — the same token, or an identifier with another name
- `Spelling.respell` — a text with other spellings of its tokens

## Main statements

- `Spelling.written_of_tokensFrom` — a text consists of the tokens that are scanned up to its end
- `Spelling.Written.respell` — the text with other names consists of the tokens with other names
-/

namespace ODataQuery

namespace Spelling

open Lexeme

-- ════════════════════════════════════════════════════════════════════════
-- Texts that are scanned
-- ════════════════════════════════════════════════════════════════════════

/-- White space and a scanned token stand in front of what is written. -/
theorem Written.scanned {cs behind : List Char} {c : Char} {l : Lexeme} {ls : List Spelling}
    (hcs : cs.dropWhile Text.isBlank = c :: behind) (hl : Lexeme.ofText c behind = .ok l)
    (h : Written (behind.drop l.more) ls) :
    Written cs (⟨l.kind, String.ofList (c :: behind.take l.more),
      decide (0 < (cs.takeWhile Text.isBlank).length)⟩ :: ls) := by
  have hgap : ∀ c ∈ cs.takeWhile Text.isBlank, Text.isBlank c = true :=
    List.all_eq_true.mp List.all_takeWhile
  have hblank : Text.isBlank c = false := by
    have := List.head?_dropWhile_not Text.isBlank cs
    rwa [hcs] at this
  obtain ⟨hkind, hmore⟩ := Lexeme.isInside_of_ofText hl
  have hlexeme : Lexeme.ofText c (behind.take l.more ++ behind.drop l.more) =
      .ok ⟨l.kind, (behind.take l.more).length⟩ := by
    rw [List.take_append_drop, List.length_take_of_le hmore, hl]
  have htext : (String.ofList (c :: behind.take l.more)).toList = c :: behind.take l.more :=
    String.toList_ofList
  have hwritten := Written.token (s := ⟨l.kind, String.ofList (c :: behind.take l.more),
    decide (0 < (cs.takeWhile Text.isBlank).length)⟩) hgap rfl
    ⟨hkind, c, _, htext, hblank, hlexeme⟩ h
  rw [htext, List.cons_append, List.take_append_drop, ← hcs,
    List.takeWhile_append_dropWhile] at hwritten
  exact hwritten

/-- A text whose end is among its tokens has no fault and consists of the tokens. -/
theorem written_of_tokensFrom {text : List Char} {limit offset : Nat} {cs : List Char}
    {ts : List Token} {fault : Option LexError}
    (h : Scan.tokensFrom text limit offset cs = (ts, fault)) (hend : ∃ t ∈ ts, t.kind = .endOfText) :
    fault = none ∧ Written cs (ts.map Token.spelling) := by
  induction limit generalizing offset cs ts with
  | zero =>
    cases h
    obtain ⟨_, hmem, _⟩ := hend
    cases hmem
  | succ limit ih =>
    rw [Scan.tokensFrom, Scan.next] at h
    dsimp only at h
    cases hcs : cs.dropWhile Text.isBlank with
    | nil =>
      rw [hcs] at h
      cases h
      have hall : cs.takeWhile Text.isBlank = cs := by
        simpa [hcs] using List.takeWhile_append_dropWhile (p := Text.isBlank) (l := cs)
      have hblank : ∀ c ∈ cs, Text.isBlank c = true := hall ▸ List.all_eq_true.mp List.all_takeWhile
      rw [hall]
      exact ⟨rfl, .ending hblank⟩
    | cons c behind =>
      rw [hcs] at h
      cases hl : Lexeme.ofText c behind with
      | error e =>
        obtain ⟨kind, n⟩ := e
        obtain ⟨t, hmem, _⟩ := hend
        cases kind <;> simp only [Scan.token, hl, Prod.mk.injEq] at h <;>
          rw [← h.1] at hmem <;> cases hmem
      | ok l =>
        obtain ⟨hkind, _⟩ := Lexeme.isInside_of_ofText hl
        rw [Scan.token_of_ofText hl] at h
        dsimp only at h
        rw [if_neg hkind] at h
        rcases hrest : Scan.tokensFrom text limit
          (offset + (cs.takeWhile Text.isBlank).length + 1 + l.more) (behind.drop l.more) with
          ⟨ts', fault'⟩
        rw [hrest] at h
        obtain ⟨rfl, rfl⟩ := Prod.mk.inj h
        obtain ⟨t, hmem, ht⟩ := hend
        have hmem : t ∈ ts' := by
          obtain rfl | hmem := List.mem_cons.mp hmem
          · exact absurd ht hkind
          · exact hmem
        obtain ⟨hfault, hwritten⟩ := ih hrest ⟨t, hmem, ht⟩
        exact ⟨hfault, hwritten.scanned hcs hl⟩

/-- Behind the end of a text stands nothing. -/
theorem Written.eq_nil_of_kind {cs : List Char} {ls ls' : List Spelling} {s : Spelling}
    (h : Written cs (ls ++ s :: ls')) (hkind : s.kind = .endOfText) : ls' = [] := by
  induction ls generalizing cs with
  | nil =>
    cases h with
    | ending => rfl
    | token _ _ hfits _ => exact absurd hkind hfits.1
  | cons first ls ih =>
    generalize hall : first :: ls ++ s :: ls' = all at h
    cases h with
    | ending => simp at hall
    | token _ _ _ hrest =>
      obtain ⟨_, rfl⟩ := List.cons.inj hall
      exact ih hrest

-- ════════════════════════════════════════════════════════════════════════
-- Other spellings
-- ════════════════════════════════════════════════════════════════════════

/-- A token cannot run into the one in front of it: there is white space between them, or it is a
punctuation mark or the end of the text. -/
def IsApart (s : Spelling) : Prop :=
  s.leadingSpace = true ∨ isMark s.kind = true ∨ s.kind = .endOfText

/-- Two tokens in a row do not run into each other. -/
def Parted (s next : Spelling) : Prop := s.kind = .identifier ∨ s.kind = .literal → next.IsApart

/-- A word that is a name and no literal. -/
def IsFreeName (name : List Char) : Prop :=
  IsName name ∧ (∀ c ∈ name, isWordCharacter c = true) ∧ Shape.ofText? name = none

instance (name : List Char) : Decidable (IsFreeName name) := inferInstanceAs (Decidable (_ ∧ _ ∧ _))

/-- The same token, or an identifier with another name. -/
def Respells (s s' : Spelling) : Prop :=
  s' = s ∨ s.kind = .identifier ∧ ∃ name : String, IsFreeName name.toList ∧ s' = { s with text := name }

/-- A text with other spellings of its tokens. The white space stays. -/
def respell : List Spelling → List Spelling → List Char → List Char
  | s :: ls, s' :: ls', cs =>
    cs.takeWhile Text.isBlank ++
      (s'.text.toList ++ respell ls ls' ((cs.dropWhile Text.isBlank).drop s.text.length))
  | _, _, cs => cs

section

variable {s s' : Spelling} {ls ls' : List Spelling} {gap rest : List Char}

theorem respell_token (hgap : ∀ c ∈ gap, Text.isBlank c = true) (hfits : s.Fits rest) :
    respell (s :: ls) (s' :: ls') (gap ++ (s.text.toList ++ rest)) =
      gap ++ (s'.text.toList ++ respell ls ls' rest) := by
  obtain ⟨_, c, cs, htext, hblank, _⟩ := hfits
  have hhead : ∀ d ∈ (s.text.toList ++ rest).head?, Text.isBlank d = false := by
    rw [htext]
    rintro d ⟨⟩
    exact hblank
  rw [respell, Lists.takeWhile_append hgap hhead, Lists.dropWhile_append hgap hhead,
    ← String.length_toList, List.drop_left]

/-- The end of a text is spelled in one way. -/
theorem eq_of_respells_ending {space : Bool}
    (h : List.Forall₂ Respells [⟨.endOfText, "", space⟩] ls') : ls' = [⟨.endOfText, "", space⟩] := by
  obtain ⟨s', _, hs, hnil, rfl⟩ := List.forall₂_cons_left_iff.mp h
  obtain rfl := List.forall₂_nil_left_iff.mp hnil
  obtain rfl | ⟨hkind, _⟩ := hs
  · rfl
  · cases hkind

theorem respell_ending {space : Bool} (hgap : ∀ c ∈ gap, Text.isBlank c = true)
    (h : List.Forall₂ Respells [⟨.endOfText, "", space⟩] ls') :
    respell [⟨.endOfText, "", space⟩] ls' gap = gap := by
  have hnone : ∀ c ∈ ([] : List Char).head?, Text.isBlank c = false := nofun
  have htake := Lists.takeWhile_append hgap hnone
  have hdrop := Lists.dropWhile_append hgap hnone
  rw [List.append_nil] at htake hdrop
  rw [eq_of_respells_ending h, respell, htake, hdrop]
  exact List.append_nil gap

/-- A token that is apart starts with a break. -/
theorem Written.breaks (h : Written rest (s :: ls)) (hs : s.IsApart) :
    ∀ c ∈ rest.head?, isBreak c = true := by
  have hblank {c : Char} (h : Text.isBlank c = true) : isBreak c = true := by
    rw [isBreak, h, Bool.true_or]
  intro c hc
  cases h with
  | ending hgap => exact hblank (hgap c (List.mem_of_mem_head? hc))
  | @token gap rest _ _ hgap hspace hfits _ =>
    cases gap with
    | cons d gap =>
      have hgap := hgap d List.mem_cons_self
      cases hc
      exact hblank hgap
    | nil =>
      obtain ⟨hkind, d, cs, htext, _, hl⟩ := hfits
      rw [htext] at hc
      cases hc
      obtain hs | hs | hs := hs
      · cases hspace.symm.trans hs
      · exact (ofText_of_isMark hl hs).1
      · exact absurd hs hkind

/-- Other spellings keep a break in front of the tokens. -/
theorem Written.sameBreak (h : Written rest ls) (hls : List.Forall₂ Respells ls ls')
    (hbreaks : ∀ c ∈ rest.head?, isBreak c = true) : SameBreak rest (respell ls ls' rest) := by
  refine ⟨?_, hbreaks⟩
  cases h with
  | @ending gap hgap => rw [respell_ending hgap hls]
  | @token gap rest s ls hgap hspace hfits _ =>
    obtain ⟨s', ls', hs, _, rfl⟩ := List.forall₂_cons_left_iff.mp hls
    rw [respell_token hgap hfits]
    cases gap with
    | cons d gap => rfl
    | nil =>
      obtain ⟨_, d, cs, htext, _, hl⟩ := hfits
      rw [htext] at hbreaks
      have hbreak := hbreaks d rfl
      obtain rfl | ⟨hkind, _⟩ := hs
      · rw [List.nil_append, List.nil_append, htext]
        rfl
      · have hopens := (name_of_ofText hl (.inl hkind)).1
        rw [opensName_of_isBreak hbreak] at hopens
        cases hopens

/-- A token that could run into the next one stands in front of the same break as before. -/
theorem Fits.sameBreak (hfits : s.Fits rest)
    (hkind : s.kind = .identifier ∨ s.kind = .literal ∨ s.kind = .functionName)
    (h : Written rest ls) (hparted : (s :: ls).IsChain Parted) (hls : List.Forall₂ Respells ls ls') :
    SameBreak rest (respell ls ls' rest) := by
  refine h.sameBreak hls ?_
  cases ls with
  | nil => cases h
  | cons next ls =>
    have hnext := (List.isChain_cons_cons.mp hparted).1
    obtain hkind | hkind | hkind := hkind
    · exact h.breaks (hnext (.inl hkind))
    · exact h.breaks (hnext (.inr hkind))
    · obtain ⟨_, c, cs, _, _, hl⟩ := hfits
      have hparen := (name_of_ofText hl (.inr hkind)).2.2.mp hkind
      rw [List.drop_left] at hparen
      rw [hparen]
      rintro d ⟨⟩
      decide

/-- An identifier does not stand in front of a parenthesis. -/
theorem Fits.head_ne_paren (hfits : s.Fits rest) (hkind : s.kind = .identifier) :
    rest.head? ≠ some '(' := by
  obtain ⟨_, c, cs, _, _, hl⟩ := hfits
  intro hparen
  have hfunction := (name_of_ofText hl (.inl hkind)).2.2
  rw [List.drop_left] at hfunction
  cases hkind.symm.trans (hfunction.mpr hparen)

/-- A token with its own spelling ends in front of the other spellings as it did before, except for a
minus. -/
theorem Fits.respell_self (hfits : s.Fits rest) (hkind : s.kind ≠ .minus) (h : Written rest ls)
    (hparted : (s :: ls).IsChain Parted) (hls : List.Forall₂ Respells ls ls') :
    s.Fits (respell ls ls' rest) := by
  have hsame := fun hkind => hfits.sameBreak hkind h hparted hls
  obtain ⟨hend, c, cs, htext, hblank, hl⟩ := hfits
  refine ⟨hend, c, cs, htext, hblank, ?_⟩
  have hword (hkind : s.kind = .identifier ∨ s.kind = .literal ∨ s.kind = .functionName) :
      ofText c (cs ++ respell ls ls' rest) = .ok ⟨s.kind, cs.length⟩ :=
    ofText_congr (hsame hkind) hl (Nat.le_refl _)
  have hmark (hkind : isMark s.kind = true) :
      ofText c (cs ++ respell ls ls' rest) = .ok ⟨s.kind, cs.length⟩ :=
    (ofText_of_isMark hl hkind).2 _
  cases hs : s.kind with
  | minus => exact absurd hs hkind
  | endOfText => exact absurd hs hend
  | identifier => exact hs ▸ hword (.inl hs)
  | literal => exact hs ▸ hword (.inr (.inl hs))
  | functionName => exact hs ▸ hword (.inr (.inr hs))
  | _ => exact hs ▸ hmark (by rw [hs]; rfl)

/-- A minus stands alone in front of what it does not start a literal with. -/
theorem fits_minus_iff (hkind : s.kind = .minus) :
    s.Fits rest ↔ s.text = "-" ∧ ofMinus rest = ⟨.minus, 0⟩ := by
  constructor
  · rintro ⟨_, c, cs, htext, _, hl⟩
    obtain ⟨rfl, hmore⟩ := eq_of_minus hl hkind
    obtain rfl : cs = [] := List.eq_nil_of_length_eq_zero (congrArg Lexeme.more hmore)
    exact ⟨String.toList_inj.mp htext, (Except.ok.inj hl).trans hmore⟩
  · rintro ⟨htext, hl⟩
    refine ⟨by simp [hkind], '-', [], by rw [htext]; rfl, by decide, ?_⟩
    rw [hkind]
    exact congrArg Except.ok hl

/-- A minus that is no part of a literal is none either in front of the other spellings. Behind it
stands white space, a mark, another minus, or a word, which has its own break behind it or another
name. -/
theorem Written.ofMinus_respell (h : Written rest ls) (hparted : ls.IsChain Parted)
    (hls : List.Forall₂ Respells ls ls') (hl : ofMinus rest = ⟨.minus, 0⟩) :
    ofMinus (respell ls ls' rest) = ⟨.minus, 0⟩ := by
  have hmore (cs : List Char) {rest : List Char} (hl : ofMinus rest = ⟨.minus, 0⟩) :
      (ofMinus rest).more ≤ cs.length := by
    rw [hl]
    exact Nat.zero_le _
  by_cases hbreaks : ∀ c ∈ rest.head?, isBreak c = true
  · exact ((h.sameBreak hls hbreaks).ofMinus_append (hmore [] hl)).trans hl
  have hgap {c : Char} {gap : List Char} (hgap : ∀ c ∈ gap, Text.isBlank c = true)
      (hc : c ∈ gap.head?) : isBreak c = true := by
    rw [isBreak, hgap c (List.mem_of_mem_head? hc), Bool.true_or]
  cases h with
  | ending hblank => exact absurd (fun c hc => hgap hblank hc) hbreaks
  | @token gap rest next ls hblank hspace hfits h =>
    cases gap with
    | cons d gap => exact absurd (fun c hc => hgap hblank hc) hbreaks
    | nil =>
      obtain ⟨next', ls', hnext, hls', rfl⟩ := List.forall₂_cons_left_iff.mp hls
      rw [respell_token hblank hfits, List.nil_append]
      rw [List.nil_append] at hl hbreaks
      have hword (hkind : next.kind = .identifier ∨ next.kind = .literal ∨ next.kind = .functionName) :
          ofMinus (next.text.toList ++ respell ls ls' rest) = ⟨.minus, 0⟩ :=
        ((hfits.sameBreak hkind h hparted hls').ofMinus_append (hmore _ hl)).trans hl
      obtain rfl | ⟨hkind, name, ⟨hname, hword, hshape⟩, rfl⟩ := hnext
      · have hmark (hkind : isMark next'.kind = true) : False := by
          obtain ⟨_, c, cs, htext, _, hl⟩ := hfits
          refine hbreaks fun d hd => ?_
          rw [htext] at hd
          cases hd
          exact (ofText_of_isMark hl hkind).1
        cases hkind : next'.kind with
        | identifier => exact hword (.inl hkind)
        | literal => exact hword (.inr (.inl hkind))
        | functionName => exact hword (.inr (.inr hkind))
        | minus =>
          rw [((fits_minus_iff hkind).mp hfits).1]
          rfl
        | endOfText => exact absurd hkind hfits.1
        | _ => exact (hmark (by rw [hkind]; rfl)).elim
      · have hends := (hfits.sameBreak (.inl hkind) h hparted hls').symm.breaks
        have hminus : (⟨.minus, "-", false⟩ : Spelling).Fits (name.toList ++ respell ls ls' rest) :=
          fits_minus_name (allowsMinus_of_shape hname hword hshape) (endsName_of_isBreak hends)
        exact ((fits_minus_iff rfl).mp hminus).2

/-- A token ends in front of the other spellings as it did before. -/
theorem Fits.respell (hfits : s.Fits rest) (hs : Respells s s') (h : Written rest ls)
    (hparted : (s :: ls).IsChain Parted) (hls : List.Forall₂ Respells ls ls') :
    s'.Fits (respell ls ls' rest) := by
  obtain rfl | ⟨hkind, name, ⟨hname, _, hshape⟩, rfl⟩ := hs
  · by_cases hkind : s'.kind = .minus
    · obtain ⟨htext, hl⟩ := (fits_minus_iff hkind).mp hfits
      exact (fits_minus_iff hkind).mpr ⟨htext, h.ofMinus_respell hparted.tail hls hl⟩
    · exact hfits.respell_self hkind h hparted hls
  · have hsame := hfits.sameBreak (.inl hkind) h hparted hls
    have hends := hsame.symm.breaks
    have hparen := hfits.head_ne_paren hkind
    rw [← hsame.head] at hparen
    have hquote : (Spelling.respell ls ls' rest).head? ≠ some '\'' := fun heq =>
      ne_of_isBreak (hends _ heq) (by decide : isBreak '\'' = false) rfl
    have hidentifier : (⟨.identifier, name, s.leadingSpace⟩ : Spelling).Fits _ :=
      fits_identifier hname hshape (endsName_of_isBreak hends) hparen hquote
    rwa [← hkind] at hidentifier

/-- The text with other names consists of the tokens with other names. -/
theorem Written.respell {cs : List Char} (h : Written cs ls) (hparted : ls.IsChain Parted)
    (hls : List.Forall₂ Respells ls ls') : Written (respell ls ls' cs) ls' := by
  induction h generalizing ls' with
  | ending hgap =>
    rw [respell_ending hgap hls, eq_of_respells_ending hls]
    exact .ending hgap
  | @token gap rest s ls hgap hspace hfits h ih =>
    obtain ⟨s', ls', hs, hls', rfl⟩ := List.forall₂_cons_left_iff.mp hls
    rw [respell_token hgap hfits]
    have hspace' : s'.leadingSpace = s.leadingSpace := by
      obtain rfl | ⟨_, name, _, rfl⟩ := hs
      · rfl
      · rfl
    exact .token hgap (hspace'.trans hspace) (hfits.respell hs h hparted hls')
      (ih hparted.tail hls')

end

end Spelling

end ODataQuery
