import JobConsole.Json.Token
import JobConsole.Proofs.Json.Printing

/-! # Tokens of printed texts

The text of a value without floating numbers is cut into the tokens that it was printed from, whatever
the strings inside it hold. Only a number needs to know what stands behind it.
-/

namespace JobConsole.Json

variable {ps : List Piece} {c : Char} {cs rest : List Char}

/-! ## Strings -/

/-- What a printed character is read as: a control character without a letter of its own is written
as its number. -/
def pieceOf (c : Char) : Piece :=
  if c.toNat < 32 ∧ c.toNat ∉ [8, 9, 10, 12, 13] then .unit c.toNat else .char c

theorem joinPieces_map_pieceOf (cs : List Char) : joinPieces (cs.map pieceOf) = some cs := by
  induction cs with
  | nil => rfl
  | cons c cs ih =>
    rw [List.map_cons, pieceOf]
    split
    next h =>
      have hhigh : ¬(0xD800 ≤ c.toNat ∧ c.toNat < 0xDC00) := by omega
      have hlow : ¬(0xDC00 ≤ c.toNat ∧ c.toNat < 0xE000) := by omega
      rw [joinPieces.eq_def]
      simp only [if_neg hhigh, if_neg hlow, ih, Option.map_some, Char.ofNat_toNat]
    next => rw [joinPieces, ih, Option.map_some]

theorem hexValue?_hexDigit {n : Nat} (h : n < 16) : hexValue? (hexDigit n) = some n := by
  have hall : ∀ n < 16, hexValue? (hexDigit n) = some n := by decide
  exact hall n h

theorem eq_of_toNat_eq {n : Nat} (h : c.toNat = n) : c = Char.ofNat n := by
  rw [← h, Char.ofNat_toNat]

theorem lex_escapeChar (ps : List Piece) (c : Char) (rest : List Char) :
    lex (.text ps) (escapeChar c ++ rest) = lex (.text (pieceOf c :: ps)) rest := by
  unfold escapeChar
  split_ifs with hq hb h8 h9 h10 h12 h13 hc
  · subst hq
    rfl
  · subst hb
    rfl
  · obtain rfl := eq_of_toNat_eq h8
    rfl
  · obtain rfl := eq_of_toNat_eq h9
    rfl
  · obtain rfl := eq_of_toNat_eq h10
    rfl
  · obtain rfl := eq_of_toNat_eq h12
    rfl
  · obtain rfl := eq_of_toNat_eq h13
    rfl
  · have hpiece : pieceOf c = .unit c.toNat := if_pos ⟨hc, by simp [h8, h9, h10, h12, h13]⟩
    have hhigh : c.toNat / 16 < 16 := by omega
    have hlow : c.toNat % 16 < 16 := Nat.mod_lt _ (by decide)
    have hvalue : 16 * (16 * 0 + c.toNat / 16) + c.toNat % 16 = c.toNat := by omega
    have hstart : lex (.text ps) (['\\', 'u', '0', '0', hexDigit (c.toNat / 16),
        hexDigit (c.toNat % 16)] ++ rest) =
        lex (.hex ps 2 0) (hexDigit (c.toNat / 16) :: hexDigit (c.toNat % 16) :: rest) := rfl
    rw [hstart, hpiece, lex, hexValue?_hexDigit hhigh]
    simp only [Nat.reduceEqDiff, ↓reduceIte]
    rw [lex, hexValue?_hexDigit hlow]
    simp only [Nat.reduceAdd, ↓reduceIte, hvalue]
  · have hpiece : pieceOf c = .char c := if_neg fun h => hc h.1
    rw [hpiece, List.singleton_append, lex, if_neg hq, if_neg hb, if_neg hc]

theorem lex_quote (s : String) (rest : List Char) :
    lex .between (quote s ++ rest) = .text (some s) :: lex .between rest := by
  have hbody (cs : List Char) (ps : List Piece) :
      lex (.text ps) (cs.flatMap escapeChar ++ '"' :: rest) =
        textToken ((cs.map pieceOf).reverse ++ ps) :: lex .between rest := by
    induction cs generalizing ps with
    | nil => rfl
    | cons c cs ih =>
      rw [List.flatMap_cons, List.append_assoc, lex_escapeChar, ih, List.map_cons, List.reverse_cons,
        List.append_assoc]
      rfl
  have htoken : textToken (s.toList.map pieceOf).reverse = .text (some s) := by
    rw [textToken, List.reverse_reverse, joinPieces_map_pieceOf, Option.map_some, String.ofList_toList]
  have hstart : lex .between (quote s ++ rest) =
      lex (.text []) (s.toList.flatMap escapeChar ++ '"' :: rest) := by
    rw [quote, List.cons_append, List.append_assoc]
    rfl
  rw [hstart, hbody, List.append_nil, htoken]

/-! ## Numbers -/

def digitOf (c : Char) : Nat := c.toNat - 48

def numeralOf (n : Int) : Numeral :=
  ⟨decide (n < 0), (Nat.toDigits 10 n.natAbs).map digitOf, [], none⟩

/-- What a number ends before: the end of the text, or what stands behind a value in a list. -/
def Ends (rest : List Char) : Prop := ∀ c ∈ rest.head?, c = ',' ∨ c = ']' ∨ c = '}'

theorem ends_cons (h : c = ',' ∨ c = ']' ∨ c = '}') : Ends (c :: rest) := by
  intro d hd
  rwa [← Option.some.inj hd]

theorem exists_digit (h : c.isDigit = true) : ∃ d < 10, c = Char.ofNat (48 + d) := by
  obtain ⟨hlow, hhigh⟩ := Char.isDigit_iff_toNat.mp h
  have hlow : 48 ≤ c.toNat := hlow
  have hhigh : c.toNat ≤ 57 := hhigh
  refine ⟨c.toNat - 48, by omega, ?_⟩
  rw [Nat.add_sub_cancel' hlow, Char.ofNat_toNat]

theorem digit?_of_isDigit (h : c.isDigit = true) : digit? c = some (digitOf c) := by
  obtain ⟨d, hd, rfl⟩ := exists_digit h
  have hall : ∀ d < 10, digit? (Char.ofNat (48 + d)) = some (digitOf (Char.ofNat (48 + d))) := by
    decide
  exact hall d hd

theorem digitOf_ne_zero (h : c.isDigit = true) (hc : c ≠ '0') : digitOf c ≠ 0 := by
  obtain ⟨d, hd, rfl⟩ := exists_digit h
  have hall : ∀ d < 10, Char.ofNat (48 + d) ≠ '0' → digitOf (Char.ofNat (48 + d)) ≠ 0 := by decide
  exact hall d hd hc

theorem start_of_isDigit (h : c.isDigit = true) (hc : c ≠ '0') :
    start c = some ([], .numeral .whole ⟨false, [digitOf c], [], none⟩) := by
  obtain ⟨d, hd, rfl⟩ := exists_digit h
  have hall : ∀ d < 10, Char.ofNat (48 + d) ≠ '0' → start (Char.ofNat (48 + d)) =
      some ([], .numeral .whole ⟨false, [digitOf (Char.ofNat (48 + d))], [], none⟩) := by decide
  exact hall d hd hc

theorem isDigit_of_mem_toDigits {n : Nat} (h : c ∈ Nat.toDigits 10 n) : c.isDigit = true :=
  Nat.isDigit_of_mem_toDigits (by decide) (by decide) h

theorem exists_toDigits {n : Nat} (hn : 0 < n) : ∃ c cs, Nat.toDigits 10 n = c :: cs ∧ c ≠ '0' := by
  induction n using Nat.strongRecOn with
  | ind n ih =>
    rcases Nat.lt_or_ge n 10 with hlt | hge
    · have hall : ∀ n < 10, 0 < n → n.digitChar ≠ '0' := by decide
      exact ⟨n.digitChar, [], Nat.toDigits_of_lt_base hlt, hall n hlt hn⟩
    · obtain ⟨c, cs, hcs, hc⟩ := ih (n / 10) (by omega) (by omega)
      refine ⟨c, cs ++ [(n % 10).digitChar], ?_, hc⟩
      rw [Nat.toDigits_of_base_le (by decide) hge, hcs, List.cons_append]

theorem lex_digits (h : ∀ c ∈ cs, c.isDigit = true) (n : Numeral) (rest : List Char) :
    lex (.numeral .whole n) (cs ++ rest) =
      lex (.numeral .whole { n with whole := (cs.map digitOf).reverse ++ n.whole }) rest := by
  induction cs generalizing n with
  | nil => rfl
  | cons c cs ih =>
    obtain ⟨hc, hcs⟩ := List.forall_mem_cons.mp h
    have hnext : NumeralStage.whole.next n c =
        some (.whole, { n with whole := digitOf c :: n.whole }) := by
      simp only [NumeralStage.next, digit?_of_isDigit hc]
    rw [List.cons_append, lex]
    simp only [hnext]
    rw [ih hcs, List.map_cons, List.reverse_cons, List.append_assoc]
    rfl

/-- A numeral of whole digits ends where its value ends. -/
theorem lex_numeral_of_ends {stage : NumeralStage} (hs : stage = .zero ∨ stage = .whole)
    (h : Ends rest) (n : Numeral) :
    lex (.numeral stage n) rest = .number n.inOrder :: lex .between rest := by
  cases rest with
  | nil => rcases hs with rfl | rfl <;> rfl
  | cons c rest =>
    have hstop : stage.next n c = none ∧ stage.mayEnd (some c) = true ∧ (start c).isSome := by
      rcases hs with rfl | rfl <;> rcases h c rfl with rfl | rfl | rfl <;> exact ⟨rfl, rfl, rfl⟩
    obtain ⟨hnext, hend, hstart⟩ := hstop
    obtain ⟨⟨ts, l⟩, hstart⟩ := Option.isSome_iff_exists.mp hstart
    rw [lex, lex]
    simp only [hnext, hend, hstart, ↓reduceIte]

theorem lex_whole (h : ∀ c ∈ cs, c.isDigit = true) (hr : Ends rest) (negative : Bool) (d : Nat) :
    lex (.numeral .whole ⟨negative, [d], [], none⟩) (cs ++ rest) =
      .number ⟨negative, d :: cs.map digitOf, [], none⟩ :: lex .between rest := by
  rw [lex_digits h, lex_numeral_of_ends (.inr rfl) hr]
  simp [Numeral.inOrder]

theorem lex_int (n : Int) (h : Ends rest) :
    lex .between ((toString n).toList ++ rest) = .number (numeralOf n) :: lex .between rest := by
  have hdigits {m : Nat} (hm : 0 < m) : ∃ c cs, Nat.toDigits 10 m = c :: cs ∧ c ≠ '0' ∧
      c.isDigit = true ∧ ∀ d ∈ cs, d.isDigit = true := by
    obtain ⟨c, cs, hcs, hc⟩ := exists_toDigits hm
    have hall : ∀ d ∈ c :: cs, d.isDigit = true := fun d hd => isDigit_of_mem_toDigits (hcs ▸ hd)
    exact ⟨c, cs, hcs, hc, List.forall_mem_cons.mp hall⟩
  cases n with
  | ofNat m =>
    have htext : (toString (Int.ofNat m)).toList = Nat.toDigits 10 m := Nat.toList_repr
    have hnumeral : numeralOf (Int.ofNat m) = ⟨false, (Nat.toDigits 10 m).map digitOf, [], none⟩ := rfl
    rw [htext, hnumeral]
    rcases Nat.eq_zero_or_pos m with rfl | hm
    · exact lex_numeral_of_ends (.inl rfl) h ⟨false, [0], [], none⟩
    · obtain ⟨c, cs, hcs, hc, hdc, hds⟩ := hdigits hm
      rw [hcs, List.cons_append, lex, start_of_isDigit hdc hc]
      exact lex_whole hds h false (digitOf c)
  | negSucc m =>
    have hnumeral : numeralOf (Int.negSucc m) =
        ⟨true, (Nat.toDigits 10 (m + 1)).map digitOf, [], none⟩ := by
      rw [numeralOf, decide_eq_true (Int.negSucc_lt_zero m)]
      rfl
    obtain ⟨c, cs, hcs, hc, hdc, hds⟩ := hdigits m.succ_pos
    have hnext : NumeralStage.sign.next ⟨true, [], [], none⟩ c =
        some (.whole, ⟨true, [digitOf c], [], none⟩) := by
      obtain ⟨d, hd⟩ := Nat.exists_eq_succ_of_ne_zero (digitOf_ne_zero hdc hc)
      simp only [NumeralStage.next, digit?_of_isDigit hdc, hd]
    have hstart : lex .between ('-' :: c :: (cs ++ rest)) =
        lex (.numeral .sign ⟨true, [], [], none⟩) (c :: (cs ++ rest)) := rfl
    rw [toList_toString_negSucc, hnumeral, hcs, List.cons_append, List.cons_append, hstart, lex]
    simp only [hnext]
    exact lex_whole hds h true (digitOf c)

/-! ## Values -/

def isExactNumber : Number → Bool
  | .int n => -(Nat.pow 2 63 : Nat) ≤ n && n < (Nat.pow 2 64 : Nat)
  | .double _ => false

mutual

/-- Every number in the value is an integer of 64 bits. -/
def isExact : Json → Bool
  | .number n => isExactNumber n
  | .array items => areExact items
  | .object members => haveExact members
  | _ => true

def areExact : List Json → Bool
  | [] => true
  | v :: r => isExact v && areExact r

def haveExact : List (String × Json) → Bool
  | [] => true
  | (_, v) :: r => isExact v && haveExact r

end

mutual

/-- The tokens that a value is printed from. A floating number has none. -/
def tokensOf : Json → List Token
  | .null => [.null]
  | .bool b => [.bool b]
  | .number (.int n) => [.number (numeralOf n)]
  | .number (.double _) => [.junk]
  | .text s => [.text (some s)]
  | .array [] => [.beginArray, .endArray]
  | .array (v :: r) => .beginArray :: (tokensOf v ++ itemTokens r)
  | .object [] => [.beginObject, .endObject]
  | .object ((k, v) :: r) =>
    .beginObject :: .text (some k) :: .colon :: (tokensOf v ++ memberTokens r)

def itemTokens : List Json → List Token
  | [] => [.endArray]
  | v :: r => .comma :: (tokensOf v ++ itemTokens r)

def memberTokens : List (String × Json) → List Token
  | [] => [.endObject]
  | (k, v) :: r => .comma :: .text (some k) :: .colon :: (tokensOf v ++ memberTokens r)

end

theorem ends_itemsTail (r : List Json) (rest : List Char) : Ends (itemsTail r ++ rest) := by
  cases r with
  | nil => exact ends_cons (.inr (.inl rfl))
  | cons v r => exact ends_cons (.inl rfl)

theorem ends_membersTail (r : List (String × Json)) (rest : List Char) :
    Ends (membersTail r ++ rest) := by
  cases r with
  | nil => exact ends_cons (.inr (.inr rfl))
  | cons e r => exact ends_cons (.inl rfl)

theorem lex_colon (rest : List Char) : lex .between (':' :: rest) = .colon :: lex .between rest := rfl

theorem lex_comma (rest : List Char) : lex .between (',' :: rest) = .comma :: lex .between rest := rfl

mutual

/-- The text of a value is cut into its tokens, and what stands behind it into others. -/
theorem lex_chars : ∀ (v : Json) (rest : List Char), isExact v = true → Ends rest →
    lex .between (chars v ++ rest) = tokensOf v ++ lex .between rest
  | .null, _, _, _ | .bool true, _, _, _ | .bool false, _, _, _ => rfl
  | .array [], _, _, _ | .object [], _, _, _ => rfl
  | .number (.int n), rest, _, hr => lex_int n hr
  | .number (.double _), _, h, _ => absurd h Bool.false_ne_true
  | .text s, rest, _, _ => lex_quote s rest
  | .array (v :: r), rest, h, _ => by
    obtain ⟨hv, hr⟩ := Bool.and_eq_true_iff.mp h
    have hitems := lex_itemsTail r rest hr
    have hvalue := lex_chars v (itemsTail r ++ rest) hv (ends_itemsTail r rest)
    have hstart : lex .between (chars (.array (v :: r)) ++ rest) =
        .beginArray :: lex .between (chars v ++ (itemsTail r ++ rest)) := by
      rw [chars, List.cons_append, List.append_assoc]
      rfl
    rw [hstart, hvalue, hitems, tokensOf, List.cons_append, List.append_assoc]
  | .object ((k, v) :: r), rest, h, _ => by
    obtain ⟨hv, hr⟩ := Bool.and_eq_true_iff.mp h
    have hmembers := lex_membersTail r rest hr
    have hvalue := lex_chars v (membersTail r ++ rest) hv (ends_membersTail r rest)
    have hstart : lex .between (chars (.object ((k, v) :: r)) ++ rest) =
        .beginObject :: lex .between (quote k ++ ':' :: (chars v ++ (membersTail r ++ rest))) := by
      rw [chars, List.cons_append, List.append_assoc, List.cons_append, List.append_assoc]
      rfl
    rw [hstart, lex_quote, lex_colon, hvalue, hmembers, tokensOf, List.cons_append, List.cons_append,
      List.cons_append, List.append_assoc]

theorem lex_itemsTail : ∀ (r : List Json) (rest : List Char), areExact r = true →
    lex .between (itemsTail r ++ rest) = itemTokens r ++ lex .between rest
  | [], _, _ => rfl
  | v :: r, rest, h => by
    obtain ⟨hv, hr⟩ := Bool.and_eq_true_iff.mp h
    have hitems := lex_itemsTail r rest hr
    have hvalue := lex_chars v (itemsTail r ++ rest) hv (ends_itemsTail r rest)
    rw [itemsTail, List.cons_append, List.append_assoc, lex_comma, hvalue, hitems, itemTokens,
      List.cons_append, List.append_assoc]

theorem lex_membersTail : ∀ (r : List (String × Json)) (rest : List Char), haveExact r = true →
    lex .between (membersTail r ++ rest) = memberTokens r ++ lex .between rest
  | [], _, _ => rfl
  | (k, v) :: r, rest, h => by
    obtain ⟨hv, hr⟩ := Bool.and_eq_true_iff.mp h
    have hmembers := lex_membersTail r rest hr
    have hvalue := lex_chars v (membersTail r ++ rest) hv (ends_membersTail r rest)
    rw [membersTail, List.cons_append, List.append_assoc, List.cons_append, List.append_assoc,
      lex_comma, lex_quote, lex_colon, hvalue, hmembers, memberTokens, List.cons_append,
      List.cons_append, List.cons_append, List.append_assoc]

end

theorem tokens_render {v : Json} (h : v.isExact = true) : tokens v.render = tokensOf v := by
  have hlex := lex_chars v [] h (by simp [Ends])
  rw [List.append_nil, lex, List.append_nil] at hlex
  rw [tokens, render, String.toList_ofList, hlex]

end JobConsole.Json
