import JobConsole.Proofs.Output.Decoding
import Mathlib.Data.List.Infix

/-! # Outputs in chunks

What is said of a line is fixed by the line, with one exception: where a carriage return stands right
behind the limit, and something else later in the line, it matters whether the decoder has seen the
rest when it says the line. So two ways to cut an output agree unless it has such a line.
-/

namespace JobConsole.Output

structure Shown (limit : Nat) (l : List UInt8) (text : String) : Prop where
  of_beginning : ∃ p, p <+: l ∧ p.length ≤ limit ∧
    (text = Text.Utf8.decodeLossy p ∨ text = (Text.Utf8.decodeLossy p).push '…')
  of_short : l.length ≤ limit → text = Text.Utf8.decodeLossy (withoutReturns l)
  of_long : limit < l.length → carriageReturn ∉ l →
    text = (Text.Utf8.decodeLossy (l.take limit)).push '…'

/-- A carriage return right behind the limit has only carriage returns behind it. -/
def Settled (limit : Nat) (l : List UInt8) : Prop :=
  l[limit]? = some carriageReturn → ∀ b ∈ l.drop limit, b = carriageReturn

variable {l p output : List UInt8} {limit : Nat} {text : String}

/-! ## What a line comes to -/

theorem lineText_beginning (h : lineFeed ∉ l) (limit : Nat) :
    ∃ p, p <+: l ∧ p.length ≤ limit ∧ (lineText limit l = Text.Utf8.decodeLossy p ∨
      lineText limit l = (Text.Utf8.decodeLossy p).push '…') := by
  by_cases hr : ∀ b ∈ l.drop limit, b = carriageReturn
  · have hp := withoutReturns_isPrefix (l.take limit)
    refine ⟨_, hp.trans (List.take_prefix ..), ?_, .inl (lineText_of_returns h hr)⟩
    exact hp.length_le.trans (List.length_take_le ..)
  · simp only [not_forall] at hr
    obtain ⟨b, hm, hb⟩ := hr
    exact ⟨_, List.take_prefix .., List.length_take_le .., .inr (lineText_of_mem_drop h hm hb)⟩

theorem take_of_isPrefix (hp : p <+: l) (h : limit ≤ p.length) : p.take limit = l.take limit := by
  rw [List.prefix_iff_eq_take.mp hp, List.take_take, Nat.min_eq_left h]

theorem getElem_mem_drop (h : limit < p.length) : p[limit] ∈ p.drop limit :=
  List.mem_drop_iff_getElem.mpr ⟨0, by simpa using h, rfl⟩

theorem Rendered.shown (h : Rendered limit l text) (hl : lineFeed ∉ l) : Shown limit l text := by
  obtain ⟨p, hp, hlong, rfl⟩ := h
  have hpl : lineFeed ∉ p := fun hm => hl (hp.subset hm)
  refine ⟨?_, fun hle => ?_, fun hlt hc => ?_⟩
  · obtain ⟨q, hq, hlen, ht⟩ := lineText_beginning hpl limit
    exact ⟨q, hq.trans hp, hlen, ht⟩
  · have := hp.length_le
    obtain rfl : p = l := hlong.resolve_right (by omega)
    exact lineText_of_length_le hl hle
  · have hlp : limit < p.length := hlong.elim (fun he => he ▸ hlt) id
    have hb : p[limit] ≠ carriageReturn :=
      ne_of_mem_of_not_mem (hp.subset (List.getElem_mem hlp)) hc
    rw [lineText_of_mem_drop hpl (getElem_mem_drop hlp) hb, take_of_isPrefix hp hlp.le]

/-- A settled line comes to its own text, whatever beginning it is said from. -/
theorem Rendered.eq_lineText (h : Rendered limit l text) (hl : lineFeed ∉ l)
    (hs : Settled limit l) : text = lineText limit l := by
  obtain ⟨p, hp, rfl | hlong, rfl⟩ := h
  · rfl
  have hpl : lineFeed ∉ p := fun hm => hl (hp.subset hm)
  have htake := take_of_isPrefix hp hlong.le
  by_cases hr : ∀ b ∈ p.drop limit, b = carriageReturn
  · have hget : l[limit]? = some carriageReturn := by
      have hreturn := hr _ (getElem_mem_drop hlong)
      obtain ⟨t, rfl⟩ := hp
      rw [List.getElem?_append_left hlong, List.getElem?_eq_getElem hlong, hreturn]
    rw [lineText_of_returns hpl hr, lineText_of_returns hl (hs hget), htake]
  · simp only [not_forall] at hr
    obtain ⟨b, hm, hb⟩ := hr
    have hm' : b ∈ l.drop limit := (hp.drop limit).subset hm
    rw [lineText_of_mem_drop hpl hm hb, lineText_of_mem_drop hl hm' hb, htake]

/-! ## Every line once -/

/-- However an output is cut, the decoder says one text for each of its lines, in order, and of each
line what is due of it. The lines are the parts of the output between its line feeds. -/
theorem every_line_once (limit : Nat) (chunks : List (List UInt8)) :
    let output := chunks.flatten
    let ended := output = [] ∨ output.getLast? = some lineFeed
    (linesOf output).flatMap (· ++ [lineFeed]) = output ++ (if ended then [] else [lineFeed]) ∧
      (∀ l ∈ linesOf output, lineFeed ∉ l) ∧
      (LineDecoder.decodeAll limit chunks).length =
        output.count lineFeed + (if ended then 0 else 1) ∧
      List.Forall₂ (Shown (max limit 1)) (linesOf output) (LineDecoder.decodeAll limit chunks) := by
  intro output ended
  have hsaid := LineDecoder.rendered_decodeAll limit chunks
  refine ⟨flatMap_linesOf output, fun l hl => lineFeed_notMem_of_mem_linesOf hl, ?_, ?_⟩
  · exact hsaid.length_eq.symm.trans (length_linesOf output)
  · refine List.forall₂_iff_get.mpr ⟨hsaid.length_eq, fun i hi hi' => ?_⟩
    exact (hsaid.get hi hi').shown (lineFeed_notMem_of_mem_linesOf (List.get_mem _ ⟨i, hi⟩))

/-! ## Cuts that show -/

/-- Cut within a line that is too long, an output has this line said from what stands before the
cut. -/
theorem decodeAll_cut (limit : Nat) {ls : List (List UInt8)} (hls : ∀ k ∈ ls, lineFeed ∉ k)
    (hp : lineFeed ∉ p) (hlong : max limit 1 < p.length) (r : List UInt8) :
    (LineDecoder.decodeAll limit [ls.flatMap (· ++ [lineFeed]) ++ p, r])[ls.length]? =
      some (lineText (max limit 1) p) := by
  simp only [LineDecoder.decodeAll, LineDecoder.feed, List.nil_append,
    LineDecoder.drain_lines limit hls, LineDecoder.drain_overlong limit hp hlong]
  simp

/-- The text of a line that is not settled is another one when only what stands up to its carriage
return has been seen. -/
theorem lineText_take_ne (h : lineFeed ∉ l) (hs : ¬ Settled limit l) :
    lineText limit (l.take (limit + 1)) ≠ lineText limit l := by
  simp only [Settled, Classical.not_imp, not_forall] at hs
  obtain ⟨hget, b, hm, hb⟩ := hs
  have hret : ∀ c ∈ (l.take (limit + 1)).drop limit, c = carriageReturn := fun c hc => by
    simpa [List.drop_take, List.take_one, List.head?_drop, hget, eq_comm] using hc
  obtain ⟨t, ht⟩ := withoutReturns_isPrefix (l.take limit)
  have hlen := Text.Utf8.length_decodeLossy_le (withoutReturns (l.take limit)) t
  rw [ht] at hlen
  rw [lineText_of_returns (fun hf => h (List.mem_of_mem_take hf)) hret,
    lineText_of_mem_drop h hm hb, List.take_take, Nat.min_eq_left (Nat.le_succ limit)]
  intro he
  have := congrArg String.length he
  rw [String.length_push] at this
  omega

/-- An output comes to the same lines however it is cut just when all of its lines are settled. -/
theorem same_lines_iff_settled (limit : Nat) (output : List UInt8) :
    (∀ chunks chunks' : List (List UInt8), chunks.flatten = output → chunks'.flatten = output →
        LineDecoder.decodeAll limit chunks = LineDecoder.decodeAll limit chunks') ↔
      ∀ l ∈ linesOf output, Settled (max limit 1) l := by
  constructor
  · intro hsame l hl
    by_contra hs
    have hfree := lineFeed_notMem_of_mem_linesOf hl
    obtain ⟨ls, r, hls, hout⟩ := exists_append_of_mem_linesOf hl
    have hlong : max limit 1 < l.length := by
      obtain ⟨hget, -⟩ := Classical.not_imp.mp hs
      exact (List.getElem?_eq_some_iff.mp hget).1
    let p := l.take (max limit 1 + 1)
    have hp : lineFeed ∉ p := fun hf => hfree (List.mem_of_mem_take hf)
    have hplong : max limit 1 < p.length := by
      simp only [p, List.length_take]
      omega
    -- The line is said from `p` where the output is cut behind it, and from `l` where it is not.
    have hcut : p ++ (l.drop (max limit 1 + 1) ++ r) = l ++ r := by
      rw [← List.append_assoc, List.take_append_drop]
    have heq := congrArg (·[ls.length]?) <|
      hsame [ls.flatMap (· ++ [lineFeed]) ++ p, l.drop (max limit 1 + 1) ++ r]
        [ls.flatMap (· ++ [lineFeed]) ++ l, r] (by simp [hcut, hout]) (by simp [hout])
    simp only [decodeAll_cut limit hls hp hplong, decodeAll_cut limit hls hfree hlong] at heq
    exact lineText_take_ne hfree hs (Option.some.inj heq)
  · intro hs
    have htext (chunks : List (List UInt8)) (h : chunks.flatten = output) :
        LineDecoder.decodeAll limit chunks = (linesOf output).map (lineText (max limit 1)) := by
      have hsaid := h ▸ LineDecoder.rendered_decodeAll limit chunks
      refine List.ext_getElem (by simpa using hsaid.length_eq.symm) fun i hi hi' => ?_
      rw [List.length_map] at hi'
      have hl := List.getElem_mem hi'
      rw [List.getElem_map]
      exact (hsaid.get hi' hi).eq_lineText (lineFeed_notMem_of_mem_linesOf hl) (hs _ hl)
    intro chunks chunks' h h'
    rw [htext chunks h, htext chunks' h']

/-- A carriage return behind the limit is taken for the end of the line where a chunk ends with it. -/
theorem cut_behind_return :
    LineDecoder.decodeAll 4 [[97, 98, 99, 100, 13], [120, 10]] = ["abcd"] ∧
      LineDecoder.decodeAll 4 [[97, 98, 99, 100, 13, 120, 10]] = ["abcd…"] := by
  constructor <;> decide +kernel

end JobConsole.Output
