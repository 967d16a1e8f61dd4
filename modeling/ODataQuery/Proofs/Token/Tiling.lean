import ODataQuery.Proofs.Result
import ODataQuery.Proofs.Token.Scan
import ODataQuery.Proofs.Value.Guid

/-!
# Tokens tile the text

The tokens of a text and the white space between them make up the text: no character is lost,
taken twice or put in another place.

## Main definitions

- `Token.stop` — the offset behind a token
- `Token.StandsBehind` — only white space stands between an offset and a token
- `Tiles` — tokens that make up a text from an offset on, with white space between them

## Main statements

- `Lexeme.isInside_of_ofText` — a lexeme ends inside the text
- `Scan.tiles_next` — what one scan takes
- `Scan.tiles_tokensFrom` — what the scans of a text take together
- `tiles_of_tokensOf` — the tokens of a text tile it, and looking ahead does not move
-/

namespace ODataQuery

-- ════════════════════════════════════════════════════════════════════════
-- Lexemes
-- ════════════════════════════════════════════════════════════════════════

namespace Lexeme

variable {c : Char} {cs : List Char} {l : Lexeme}

theorem quotedLength?_le {n : Nat} (h : quotedLength? cs = some n) : n ≤ cs.length := by
  induction cs using quotedLength?.induct generalizing n with
  | case1 => cases h
  | case2 cs ih =>
    rw [quotedLength?] at h
    obtain ⟨m, hm, rfl⟩ := Option.map_eq_some_iff.mp h
    exact Nat.add_le_add_right (ih hm) 2
  | case3 cs hdoubled =>
    rw [quotedLength?.eq_3 _ hdoubled] at h
    cases h
    exact Nat.le_add_left 1 _
  | case4 c cs hdoubled hquote ih =>
    rw [quotedLength?.eq_4 _ _ hdoubled hquote] at h
    obtain ⟨m, hm, rfl⟩ := Option.map_eq_some_iff.mp h
    exact Nat.add_le_add_right (ih hm) 1

theorem nameLength_le (cs : List Char) : nameLength cs ≤ cs.length :=
  (List.takeWhile_prefix _).length_le

theorem numericLength_le (cs : List Char) : numericLength cs ≤ cs.length :=
  (List.takeWhile_prefix _).length_le

/-- The guid at the start of a text lies inside it. -/
theorem le_length_of_startsWithGuid (h : startsWithGuid cs = true) : 36 ≤ cs.length := by
  have hlength := Guid.length_of_ofText? (Bool.and_eq_true_iff.mp h).1
  rw [List.length_take] at hlength
  omega

/-- The lexeme ends inside the text behind its first character, and is not the end of the text. -/
structure IsInside (cs : List Char) (l : Lexeme) : Prop where
  kind : l.kind ≠ .endOfText
  more_le : l.more ≤ cs.length

theorem isInside_ofMinus (cs : List Char) : (ofMinus cs).IsInside cs := by
  unfold ofMinus
  split
  · next hinf =>
    have hword := List.isPrefixOf_iff_prefix.mp (Bool.and_eq_true_iff.mp hinf).1
    exact ⟨nofun, hword.length_le⟩
  · split
    · exact ⟨nofun, numericLength_le cs⟩
    · split
      · exact ⟨nofun, nameLength_le cs⟩
      · exact ⟨nofun, Nat.zero_le _⟩

theorem StartsName.isInside (h : StartsName c cs l) : l.IsInside cs := by
  have hname := nameLength_le cs
  cases h with
  | quoted hrest hm =>
    have hquoted := quotedLength?_le hm
    have hbehind := congrArg List.length hrest
    rw [List.length_drop, List.length_cons] at hbehind
    exact ⟨nofun, by dsimp only; omega⟩
  | function | literal | identifier => exact ⟨nofun, hname⟩

theorem isInside_of_ofText (h : ofText c cs = .ok l) : l.IsInside cs := by
  cases ofText_eq_ok.mp h with
  | mark hmark =>
    have hkinds : ∀ p ∈ marks, p.2 ≠ .endOfText := by decide
    exact ⟨hkinds _ hmark, Nat.zero_le _⟩
  | minus => exact isInside_ofMinus cs
  | quoted _ hm => exact ⟨nofun, quotedLength?_le hm⟩
  | guid _ hguid => exact ⟨nofun, Nat.le_of_succ_le_succ (le_length_of_startsWithGuid hguid)⟩
  | number => exact ⟨nofun, numericLength_le cs⟩
  | name _ _ _ _ hname => exact hname.isInside

end Lexeme

-- ════════════════════════════════════════════════════════════════════════
-- Tiles
-- ════════════════════════════════════════════════════════════════════════

namespace Token

/-- The offset behind the last character of a token. -/
def stop (t : Token) : Nat := t.offset + t.text.length

/-- The token stands at an offset or behind it, only white space stands in between, and the token
tells whether there is any. -/
structure StandsBehind (text : List Char) (start : Nat) (t : Token) : Prop where
  start_le : start ≤ t.offset
  blank : ∀ c ∈ (text.take t.offset).drop start, Text.isBlank c = true
  leadingSpace : t.leadingSpace = true ↔ start < t.offset

/-- The token has characters, which are those of the text from its offset on. -/
structure IsPieceOf (text : List Char) (t : Token) : Prop where
  kind : t.kind ≠ .endOfText
  nonempty : t.text ≠ ""
  toList : t.text.toList = (text.drop t.offset).take t.text.length

theorem IsPieceOf.offset_lt_stop {text : List Char} {t : Token} (h : t.IsPieceOf text) :
    t.offset < t.stop := by
  have hlength : t.text.length ≠ 0 := fun hzero =>
    h.nonempty (String.toList_eq_nil_iff.mp (List.eq_nil_of_length_eq_zero (by simpa using hzero)))
  exact Nat.lt_add_of_pos_right (Nat.pos_of_ne_zero hlength)

/-- The token is the end of the text, behind its last character. -/
structure IsEndOf (text : List Char) (t : Token) : Prop where
  kind : t.kind = .endOfText
  empty : t.text = ""
  offset : t.offset = text.length

end Token

/-- The tokens make up the text from an offset on, each behind the one in front of it, with white
space in between and up to the end. -/
inductive Tiles (text : List Char) : (start : Nat) → List Token → Prop
  | last {start : Nat} {t : Token} (hgap : t.StandsBehind text start) (hend : t.IsEndOf text) :
      Tiles text start [t]
  | cons {start : Nat} {t : Token} {ts : List Token} (hgap : t.StandsBehind text start)
      (hpiece : t.IsPieceOf text) (hrest : Tiles text t.stop ts) : Tiles text start (t :: ts)

namespace Tiles

variable {text : List Char} {start : Nat} {ts : List Token}

theorem start_le_offset (h : Tiles text start ts) : ∀ t ∈ ts, start ≤ t.offset := by
  induction h with
  | last hgap _ => exact List.forall_mem_singleton.mpr hgap.start_le
  | cons hgap _ _ ih =>
    refine List.forall_mem_cons.mpr ⟨hgap.start_le, fun t ht => ?_⟩
    have hstop := Nat.le_trans (Nat.le_add_right _ _) (ih t ht)
    exact Nat.le_trans hgap.start_le hstop

/-- Tokens come one after the other and do not overlap. -/
theorem pairwise (h : Tiles text start ts) :
    ts.Pairwise fun t t' => t.offset < t'.offset ∧ t.stop ≤ t'.offset := by
  induction h with
  | last _ _ => exact List.pairwise_singleton _ _
  | @cons start t ts _ hpiece hrest ih =>
    refine List.pairwise_cons.mpr ⟨fun t' ht' => ?_, ih⟩
    have hstop := hrest.start_le_offset t' ht'
    exact ⟨Nat.lt_of_lt_of_le hpiece.offset_lt_stop hstop, hstop⟩

end Tiles

-- ════════════════════════════════════════════════════════════════════════
-- Scanning
-- ════════════════════════════════════════════════════════════════════════

namespace Scan

variable {text : List Char} {start : Nat} {t : Token}

theorem token_of_ofText {c : Char} {cs : List Char} {l : Lexeme} (h : Lexeme.ofText c cs = .ok l)
    (space : Bool) (offset : Nat) :
    token space offset (c :: cs) = ⟨.ok ⟨l.kind, String.ofList (c :: cs.take l.more), offset, space⟩,
      offset + 1 + l.more, cs.drop l.more⟩ := by
  rw [token, h]

/-- The token in front of a text is its end or a piece of it, and the scan goes on behind it. -/
theorem tiles_token {space : Bool} {offset : Nat} (hoffset : offset ≤ text.length)
    (h : (token space offset (text.drop offset)).outcome = .ok t) :
    t.offset = offset ∧ t.leadingSpace = space ∧ (t.IsEndOf text ∨ t.IsPieceOf text ∧
      (token space offset (text.drop offset)).offset = t.stop ∧
      (token space offset (text.drop offset)).rest = text.drop t.stop ∧ t.stop ≤ text.length) := by
  cases hcs : text.drop offset with
  | nil =>
    rw [hcs] at h
    cases h
    refine ⟨rfl, rfl, .inl ⟨rfl, rfl, ?_⟩⟩
    exact Nat.le_antisymm hoffset (List.drop_eq_nil_iff.mp hcs)
  | cons c cs =>
    rw [hcs] at h
    cases hl : Lexeme.ofText c cs with
    | error e =>
      obtain ⟨fault, n⟩ := e
      cases fault <;> simp [token, hl] at h
    | ok l =>
      obtain ⟨hkind, hmore⟩ := Lexeme.isInside_of_ofText hl
      rw [token_of_ofText hl] at h ⊢
      obtain rfl := Except.ok.inj h
      have hlength : (String.ofList (c :: cs.take l.more)).length = l.more + 1 := by
        simp [hmore, Nat.add_comm]
      have hbehind : cs.drop l.more = text.drop (offset + (l.more + 1)) := by
        rw [← List.drop_drop, hcs, List.drop_succ_cons]
      have hinside := congrArg List.length hcs
      rw [List.length_drop, List.length_cons] at hinside
      dsimp only [Token.stop]
      refine ⟨rfl, rfl, .inr ⟨⟨hkind, ?_, ?_⟩, ?_, ?_, ?_⟩⟩
      · exact fun hempty => Nat.succ_ne_zero _ (hlength.symm.trans (congrArg String.length hempty))
      · rw [String.toList_ofList, hlength, hcs, List.take_succ_cons]
      · rw [hlength]
        omega
      · rw [hlength, hbehind]
      · rw [hlength]
        omega

/-- A scan skips the white space behind an offset and takes the token behind it: the characters from
there on, or the end of the text. It goes on behind the token. -/
theorem tiles_next (hstart : start ≤ text.length)
    (h : (next start (text.drop start)).outcome = .ok t) :
    t.StandsBehind text start ∧ (t.IsEndOf text ∨ t.IsPieceOf text ∧
      (next start (text.drop start)).offset = t.stop ∧
      (next start (text.drop start)).rest = text.drop t.stop ∧ t.stop ≤ text.length) := by
  have hgap : (text.drop start).takeWhile Text.isBlank ++ (text.drop start).dropWhile Text.isBlank =
      text.drop start := List.takeWhile_append_dropWhile
  generalize hblanks : (text.drop start).takeWhile Text.isBlank = blanks at hgap
  generalize hrest : (text.drop start).dropWhile Text.isBlank = rest at hgap
  have hbehind : rest = text.drop (start + blanks.length) := by
    rw [← List.drop_drop, ← hgap, List.drop_left]
  have hlength := congrArg List.length hgap
  rw [List.length_append, List.length_drop] at hlength
  have hnext : next start (text.drop start) =
      token (0 < blanks.length) (start + blanks.length) (text.drop (start + blanks.length)) := by
    rw [next, hblanks, hrest, hbehind]
  rw [hnext] at h ⊢
  obtain ⟨hoffset, hspace, htoken⟩ := tiles_token (by omega) h
  refine ⟨⟨by omega, fun c hc => ?_, ?_⟩, htoken⟩
  · rw [hoffset, List.drop_take, ← hgap, Nat.add_sub_cancel_left, List.take_left, ← hblanks] at hc
    exact List.all_eq_true.mp List.all_takeWhile c hc
  · rw [hspace, hoffset, decide_eq_true_iff]
    omega

/-- The scans of a text tile it from where they start. -/
theorem tiles_tokensFrom {limit : Nat} {ts : List Token} (hstart : start ≤ text.length)
    (hlimit : text.length < start + limit)
    (h : tokensFrom text limit start (text.drop start) = (ts, none)) : Tiles text start ts := by
  induction limit generalizing start ts with
  | zero => omega
  | succ limit ih =>
    rw [tokensFrom] at h
    dsimp only at h
    split at h
    · cases h
    · next t hnext =>
      obtain ⟨hgap, hend | ⟨hpiece, hoffset, hrest, hstop⟩⟩ := tiles_next hstart hnext
      · rw [if_pos hend.kind] at h
        cases h
        exact .last hgap hend
      · rw [if_neg hpiece.kind, hoffset, hrest] at h
        have hstart_lt := Nat.lt_of_le_of_lt hgap.start_le hpiece.offset_lt_stop
        rcases hmore : tokensFrom text limit t.stop (text.drop t.stop) with ⟨ts', fault⟩
        rw [hmore] at h
        obtain ⟨rfl, rfl⟩ := Prod.mk.inj h
        exact .cons hgap hpiece (ih hstop (by omega) hmore)

end Scan

/-- The tokens of a text tile it: each but the last, which is the end of the text, is a piece of the
text, they come in order and do not overlap, and all characters in front of them, between them and
behind them are white space. A scanner that looks ahead finds what it would take and stays where it
is. -/
theorem tiles_of_tokensOf {text : List Char} {ts : List Token} (h : tokensOf text = .ok ts) :
    Tiles text 0 ts ∧ (ts.Pairwise fun t t' => t.offset < t'.offset ∧ t.stop ≤ t'.offset) ∧
      ∀ s : Scanner, s.lookAhead = (s.next.1, s) := by
  have hscan : Scan.tokensFrom text (text.length + 1) 0 (text.drop 0) = (ts, none) := by
    rw [tokensOf, scanText] at h
    split at h
    · next ts' hts' =>
      cases h
      exact hts'
    · cases h
  have htiles := Scan.tiles_tokensFrom (Nat.zero_le _) (by omega) hscan
  exact ⟨htiles, htiles.pairwise, fun s => rfl⟩

/-- In `not(a eq -PT1H)` a duration with its sign stands next to a name and a parenthesis. -/
theorem tiles_of_tokensOf_duration :
    let text := "not(a eq -PT1H) ".toList
    ∃ ts, tokensOf text = .ok ts ∧ Tiles text 0 ts ∧
      (ts.Pairwise fun t t' => t.offset < t'.offset ∧ t.stop ≤ t'.offset) ∧
      (∀ s : Scanner, s.lookAhead = (s.next.1, s)) ∧
      ts.map (fun t => (t.offset, t.text, t.leadingSpace)) =
        [(0, "not", false), (3, "(", false), (4, "a", false), (6, "eq", true), (9, "-PT1H", true),
          (14, ")", false), (16, "", true)] := by
  intro text
  have hscan : Result.passes (fun ts => decide (ts.map (fun t => (t.offset, t.text, t.leadingSpace)) =
      [(0, "not", false), (3, "(", false), (4, "a", false), (6, "eq", true), (9, "-PT1H", true),
        (14, ")", false), (16, "", true)])) (tokensOf text) = true := by
    decide +kernel
  obtain ⟨ts, hts, hmap⟩ := Result.exists_of_passes hscan
  obtain ⟨htiles, hpairwise, hlook⟩ := tiles_of_tokensOf hts
  exact ⟨ts, hts, htiles, hpairwise, hlook, of_decide_eq_true hmap⟩

end ODataQuery
