import ODataQuery.Text.Base64

/-!
# Reading binary texts back

## Main definitions

- `Base64.sextets` — the groups of six bits that bytes are written by

## Main statements

- `Base64.decode?_encodeUrl` — bytes are read back from their text
-/

namespace ODataQuery.Base64

/-- The groups of six bits that bytes are written by. The last group is filled with zeros. -/
def sextets : List UInt8 → List Nat
  | a :: b :: c :: rest =>
    let n := (a.toNat * 256 + b.toNat) * 256 + c.toNat
    n / 262144 :: n / 4096 % 64 :: n / 64 % 64 :: n % 64 :: sextets rest
  | [a, b] =>
    let n := (a.toNat * 256 + b.toNat) * 4
    [n / 4096, n / 64 % 64, n % 64]
  | [a] =>
    let n := a.toNat * 16
    [n / 64, n % 64]
  | [] => []

theorem encodeWith_eq (c₆₂ c₆₃ : Char) (bytes : List UInt8) :
    encodeWith c₆₂ c₆₃ [] bytes = (sextets bytes).map (character c₆₂ c₆₃) := by
  induction bytes using sextets.induct with
  | case1 a b c rest ih => simp only [encodeWith, sextets, ih, List.map_cons]
  | case2 a b => rfl
  | case3 a => rfl
  | case4 => rfl

theorem sextet_lt {bytes : List UInt8} : ∀ n ∈ sextets bytes, n < 64 := by
  induction bytes using sextets.induct with
  | case1 a b c rest ih =>
    have ha := a.toNat_lt
    have hb := b.toNat_lt
    have hc := c.toNat_lt
    intro m hm
    simp only [sextets, List.mem_cons] at hm
    obtain rfl | rfl | rfl | rfl | hm := hm
    · omega
    · omega
    · omega
    · omega
    · exact ih m hm
  | case2 a b =>
    have ha := a.toNat_lt
    have hb := b.toNat_lt
    intro m hm
    simp only [sextets, List.mem_cons, List.not_mem_nil, or_false] at hm
    omega
  | case3 a =>
    have ha := a.toNat_lt
    intro m hm
    simp only [sextets, List.mem_cons, List.not_mem_nil, or_false] at hm
    omega
  | case4 => nofun

/-- Bytes are put together again from their groups of six bits. -/
theorem bytesOf?_sextets (bytes : List UInt8) : bytesOf? (sextets bytes) = some bytes := by
  have hbyte {x : UInt8} {n : Nat} (h : n = x.toNat) : UInt8.ofNat n = x := by
    rw [h, UInt8.ofNat_toNat]
  induction bytes using sextets.induct with
  | case1 a b c rest ih =>
    have ha := a.toNat_lt
    have hb := b.toNat_lt
    have hc := c.toNat_lt
    simp only [sextets, bytesOf?, ih, Option.bind_eq_bind, Option.bind_some]
    refine congrArg some ?_
    rw [hbyte (x := a) (by omega), hbyte (x := b) (by omega), hbyte (x := c) (by omega)]
  | case2 a b =>
    have ha := a.toNat_lt
    have hb := b.toNat_lt
    simp only [sextets, bytesOf?]
    rw [if_pos (by omega), hbyte (x := a) (by omega), hbyte (x := b) (by omega)]
  | case3 a =>
    have ha := a.toNat_lt
    simp only [sextets, bytesOf?]
    rw [if_pos (by omega), hbyte (x := a) (by omega)]
  | case4 => rfl

theorem value?_character (n : Fin 64) :
    value? (character '-' '_' n.val) = some n.val ∧ character '-' '_' n.val ≠ '=' ∧
      character '-' '_' n.val ≠ '\'' ∧ character '-' '_' n.val ≠ '\n' := by
  revert n
  decide

theorem mapM_value? {ns : List Nat} (h : ∀ n ∈ ns, n < 64) :
    (ns.map (character '-' '_')).mapM value? = some ns := by
  induction ns with
  | nil => rfl
  | cons n ns ih =>
    have hfirst := (value?_character ⟨n, h n List.mem_cons_self⟩).1
    have hrest := ih fun m hm => h m (List.mem_cons_of_mem _ hm)
    rw [List.map_cons, List.mapM_cons, hfirst, hrest]
    rfl

/-- What a character of the URL-safe text is not. -/
theorem ne_of_mem_encodeUrl {bytes : List UInt8} {c : Char} (h : c ∈ (encodeUrl bytes).toList) :
    c ≠ '=' ∧ c ≠ '\'' ∧ c ≠ '\n' := by
  rw [encodeUrl, String.toList_ofList, encodeWith_eq] at h
  obtain ⟨n, hn, rfl⟩ := List.mem_map.mp h
  exact (value?_character ⟨n, sextet_lt n hn⟩).2

/-- Bytes are read back from their URL-safe text. -/
theorem decode?_encodeUrl (bytes : List UInt8) :
    decode? (encodeUrl bytes).toList = some bytes := by
  have hpadding : (encodeUrl bytes).toList.reverse.dropWhile (· == '=') =
      (encodeUrl bytes).toList.reverse := by
    cases hrev : (encodeUrl bytes).toList.reverse with
    | nil => rfl
    | cons c cs =>
      have hc : c ∈ (encodeUrl bytes).toList := by
        rw [← List.mem_reverse, hrev]
        exact List.mem_cons_self
      simp [(ne_of_mem_encodeUrl hc).1]
  rw [decode?, hpadding, List.reverse_reverse, encodeUrl, String.toList_ofList, encodeWith_eq,
    mapM_value? sextet_lt]
  exact bytesOf?_sextets bytes

end ODataQuery.Base64
