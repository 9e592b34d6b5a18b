import JobConsole.Output.LineDecoder
import Mathlib.Data.List.DropRight

/-! # Lines of an output

What the lines of an output are, said without a decoder, and what the text of a line is, by how long
it is and where its carriage returns stand.
-/

namespace JobConsole.Output

/-- The lines without their line feeds. What follows the last line feed is a line if there is any. -/
def linesOf : List UInt8 → List (List UInt8)
  | [] => []
  | b :: bs =>
    if b = lineFeed then [] :: linesOf bs
    else
      match linesOf bs with
      | [] => [[b]]
      | l :: ls => (b :: l) :: ls

def firstLine (bs : List UInt8) : List UInt8 := bs.takeWhile (· != lineFeed)

def afterFirst (bs : List UInt8) : List UInt8 := (bs.dropWhile (· != lineFeed)).tail

def withoutReturns (l : List UInt8) : List UInt8 := l.rdropWhile (· == carriageReturn)

variable {l p r bs cs : List UInt8} {limit : Nat}

/-! ## Cutting into lines -/

theorem firstLine_append (h : lineFeed ∉ l) (r : List UInt8) :
    firstLine (l ++ r) = l ++ firstLine r := by
  refine List.takeWhile_append_of_pos fun b hb => ?_
  simpa using ne_of_mem_of_not_mem hb h

theorem afterFirst_append (h : lineFeed ∉ l) (r : List UInt8) :
    afterFirst (l ++ r) = afterFirst r := by
  unfold afterFirst
  rw [List.dropWhile_append_of_pos fun b hb => ?_]
  simpa using ne_of_mem_of_not_mem hb h

theorem firstLine_lineFeed (r : List UInt8) : firstLine (lineFeed :: r) = [] := by
  simp [firstLine]

theorem afterFirst_lineFeed (r : List UInt8) : afterFirst (lineFeed :: r) = r := by
  simp [afterFirst]

theorem linesOf_eq (h : bs ≠ []) : linesOf bs = firstLine bs :: linesOf (afterFirst bs) := by
  induction bs with
  | nil => exact absurd rfl h
  | cons b bs ih =>
    by_cases hb : b = lineFeed
    · subst hb
      rw [firstLine_lineFeed, afterFirst_lineFeed, linesOf, if_pos rfl]
    · have hb' : (b != lineFeed) = true := by simpa using hb
      rw [linesOf, if_neg hb, firstLine, List.takeWhile_cons, if_pos hb', afterFirst,
        List.dropWhile_cons, if_pos hb']
      cases bs with
      | nil => rfl
      | cons c bs => rw [ih (List.cons_ne_nil c bs)]; rfl

theorem linesOf_append_lineFeed (h : lineFeed ∉ l) (r : List UInt8) :
    linesOf (l ++ lineFeed :: r) = l :: linesOf r := by
  rw [linesOf_eq (by simp), firstLine_append h, afterFirst_append h, firstLine_lineFeed,
    afterFirst_lineFeed, List.append_nil]

theorem linesOf_of_notMem (h : lineFeed ∉ l) (hl : l ≠ []) : linesOf l = [l] := by
  have hf := firstLine_append h []
  have ha := afterFirst_append h []
  rw [List.append_nil] at hf ha
  rw [linesOf_eq hl, hf, ha]
  exact congrArg (· :: []) (List.append_nil l)

theorem lineFeed_notMem_of_mem_linesOf (h : l ∈ linesOf bs) : lineFeed ∉ l := by
  induction bs generalizing l with
  | nil => cases h
  | cons b bs ih =>
    rw [linesOf] at h
    split at h
    · rcases List.mem_cons.mp h with rfl | h
      · exact List.not_mem_nil
      · exact ih h
    next hb =>
      split at h
      · obtain rfl := List.mem_singleton.mp h
        exact mt List.mem_singleton.mp (Ne.symm hb)
      next k ks hk =>
        rw [hk] at ih
        rcases List.mem_cons.mp h with rfl | h
        · exact List.not_mem_cons_of_ne_of_not_mem (Ne.symm hb) (ih List.mem_cons_self)
        · exact ih (List.mem_cons_of_mem _ h)

/-- Ended by line feeds, the lines are the output again, up to a line feed that it may lack at its
end. -/
theorem flatMap_linesOf (bs : List UInt8) :
    (linesOf bs).flatMap (· ++ [lineFeed]) =
      bs ++ if bs = [] ∨ bs.getLast? = some lineFeed then [] else [lineFeed] := by
  induction bs with
  | nil => rfl
  | cons b bs ih =>
    rw [linesOf]
    cases bs with
    | nil => by_cases hb : b = lineFeed <;> simp [linesOf, hb]
    | cons c cs =>
      have hlast : (b :: c :: cs).getLast? = (c :: cs).getLast? := List.getLast?_cons_cons
      simp only [reduceCtorEq, false_or, hlast] at ih ⊢
      rw [List.cons_append, ← ih, linesOf_eq (List.cons_ne_nil c cs)]
      split <;> simp_all

/-- Every line feed ends a line, and so does the end of an output that lacks one there. -/
theorem length_linesOf (bs : List UInt8) :
    (linesOf bs).length =
      bs.count lineFeed + if bs = [] ∨ bs.getLast? = some lineFeed then 0 else 1 := by
  have hone : (linesOf bs).map (List.count lineFeed ∘ (· ++ [lineFeed])) =
      (linesOf bs).map fun _ => 1 := List.map_congr_left fun l hl => by
    simp [List.count_eq_zero_of_not_mem (lineFeed_notMem_of_mem_linesOf hl)]
  have hlines : ((linesOf bs).flatMap (· ++ [lineFeed])).count lineFeed = (linesOf bs).length := by
    rw [List.count_flatMap, hone]
    simp
  rw [← hlines, flatMap_linesOf, List.count_append]
  split <;> rfl

theorem exists_append_of_mem_linesOf (h : l ∈ linesOf bs) :
    ∃ (ls : List (List UInt8)) (r : List UInt8), (∀ k ∈ ls, lineFeed ∉ k) ∧
      bs = ls.flatMap (· ++ [lineFeed]) ++ (l ++ r) := by
  obtain ⟨ls, ks, hls⟩ := List.append_of_mem h
  have hfree : ∀ k ∈ ls, lineFeed ∉ k := fun k hk =>
    lineFeed_notMem_of_mem_linesOf (hls ▸ List.mem_append_left _ hk)
  have heq := flatMap_linesOf bs
  simp only [hls, List.flatMap_append, List.flatMap_cons, List.append_assoc] at heq
  split at heq
  · exact ⟨ls, _, hfree, (List.append_nil bs).symm.trans heq.symm⟩
  · rw [← List.append_assoc] at heq
    rcases List.prefix_concat_iff.mp ⟨_, heq⟩ with he | ⟨r, hr⟩
    · simp [← he] at heq
    · exact ⟨ls, r, hfree, by rw [← hr, List.append_assoc]⟩

/-! ## The text of a line -/

theorem withoutReturns_isPrefix (l : List UInt8) : withoutReturns l <+: l :=
  List.rdropWhile_prefix _ l

theorem stripEnd_append_lineFeed (l : List UInt8) : stripEnd (l ++ [lineFeed]) = stripEnd l := by
  simp [stripEnd]

theorem stripEnd_eq (h : lineFeed ∉ l) : stripEnd l = withoutReturns l := by
  have hs (l : List UInt8) :
      stripEnd l = l.rdropWhile fun b => b == lineFeed || b == carriageReturn := rfl
  induction l using List.reverseRecOn with
  | nil => rfl
  | append_singleton l b ih =>
    obtain ⟨hl, hb⟩ := not_or.mp (mt List.mem_append.mpr h)
    have hb : (b == lineFeed) = false :=
      beq_false_of_ne fun he => hb (he ▸ List.mem_singleton_self b)
    simp only [hs, withoutReturns] at ih ⊢
    rw [List.rdropWhile_concat, List.rdropWhile_concat, ih hl, hb, Bool.false_or]

theorem withoutReturns_of_returns {n : Nat} (h : ∀ b ∈ l.drop n, b = carriageReturn) :
    withoutReturns l = withoutReturns (l.take n) := by
  have hr : ∀ b ∈ (l.drop n).reverse, (b == carriageReturn) = true := fun b hb => by
    simpa using h b (List.mem_reverse.mp hb)
  unfold withoutReturns List.rdropWhile
  conv_lhs => rw [← List.take_append_drop n l, List.reverse_append]
  rw [List.dropWhile_append_of_pos hr]

theorem lt_length_withoutReturns {n : Nat} {b : UInt8} (h : b ∈ l.drop n)
    (hb : b ≠ carriageReturn) : n < (withoutReturns l).length := by
  by_contra hle
  let t := l.rtakeWhile (· == carriageReturn)
  have hl : withoutReturns l ++ t = l := List.rdropWhile_append_rtakeWhile
  have ht : b ∈ t := by
    rw [← hl, List.drop_append, List.drop_eq_nil_of_le (by omega), List.nil_append] at h
    exact List.mem_of_mem_drop h
  exact hb (by simpa using List.mem_rtakeWhile_imp ht)

theorem lineText_append_lineFeed (limit : Nat) (l : List UInt8) :
    lineText limit (l ++ [lineFeed]) = lineText limit l := by
  simp only [lineText, stripEnd_append_lineFeed]

theorem lineText_of_length_le (h : lineFeed ∉ l) (hl : l.length ≤ limit) :
    lineText limit l = Text.Utf8.decodeLossy (withoutReturns l) := by
  have := (withoutReturns_isPrefix l).length_le
  rw [lineText, stripEnd_eq h]
  exact if_pos (by omega)

theorem lineText_of_returns (h : lineFeed ∉ l) (hr : ∀ b ∈ l.drop limit, b = carriageReturn) :
    lineText limit l = Text.Utf8.decodeLossy (withoutReturns (l.take limit)) := by
  have := (withoutReturns_isPrefix (l.take limit)).length_le
  rw [lineText, stripEnd_eq h, withoutReturns_of_returns hr]
  exact if_pos (by simp at this; omega)

theorem lineText_of_mem_drop {b : UInt8} (h : lineFeed ∉ l) (hm : b ∈ l.drop limit)
    (hb : b ≠ carriageReturn) :
    lineText limit l = (Text.Utf8.decodeLossy (l.take limit)).push '…' := by
  have hlt := lt_length_withoutReturns hm hb
  have ht : (withoutReturns l).take limit = l.take limit := by
    conv_rhs => rw [← List.prefix_iff_eq_append.mp (withoutReturns_isPrefix l)]
    rw [List.take_append_of_le_length (by omega)]
  rw [lineText, stripEnd_eq h]
  simp only [if_neg (Nat.not_le.mpr hlt), ht]

end JobConsole.Output
