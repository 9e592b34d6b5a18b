import JobConsole.Proofs.Output.Lines
import Mathlib.Data.List.Forall2

/-! # Decoding an output

However an output is cut into chunks, the decoder says one text for each of its lines, in order. The
text is that of the whole line, or that of a beginning of the line which is longer than the limit: the
decoder says a line that is too long as soon as it knows it to be so.
-/

namespace JobConsole.Output

/-- A text that a line can come to. -/
def Rendered (limit : Nat) (l : List UInt8) (text : String) : Prop :=
  ∃ p, p <+: l ∧ (p = l ∨ limit < p.length) ∧ text = lineText limit p

namespace LineDecoder

/-- Where the buffer has been searched it holds no line feed. -/
structure Sound (d : LineDecoder) (buffer : List UInt8) : Prop where
  scanned_le : d.scanned ≤ buffer.length
  searched : lineFeed ∉ buffer.take d.scanned

def restart (d : LineDecoder) (skipping : Bool) : LineDecoder := ⟨d.limit, 0, skipping⟩

/-- The lines that a decoder has still to say when `future` comes after its buffer. -/
def left (d : LineDecoder) (buffer future : List UInt8) : List (List UInt8) :=
  if d.skipping then linesOf (afterFirst (buffer ++ future)) else linesOf (buffer ++ future)

variable {d d' : LineDecoder} {buffer rest l r : List UInt8} {x : Option String} {line : String}
  {lines : List String} {chunks : List (List UInt8)}

theorem Sound.append (h : d.Sound buffer) (chunk : List UInt8) : d.Sound (buffer ++ chunk) := by
  constructor
  · have := h.scanned_le
    simp only [List.length_append]
    omega
  · rw [List.take_append_of_le_length h.scanned_le]
    exact h.searched

theorem sound_restart (d : LineDecoder) (skipping : Bool) (buffer : List UInt8) :
    (d.restart skipping).Sound buffer :=
  ⟨Nat.zero_le _, List.not_mem_nil⟩

theorem sound_searched (h : lineFeed ∉ buffer) :
    Sound ⟨d.limit, buffer.length, false⟩ buffer :=
  ⟨Nat.le_refl _, by rwa [List.take_length]⟩

/-! ## One call -/

theorem findIdx?_drop_eq_none (h : lineFeed ∉ l) (n : Nat) :
    (l.drop n).findIdx? (· == lineFeed) = none := by
  refine List.findIdx?_eq_none_iff.mpr fun b hb => ?_
  exact beq_false_of_ne (ne_of_mem_of_not_mem (List.mem_of_mem_drop hb) h)

theorem findEnd_eq_none (d : LineDecoder) (h : lineFeed ∉ buffer) : d.findEnd buffer = none := by
  rw [findEnd, findIdx?_drop_eq_none h, Option.map_none]

theorem Sound.findEnd_eq_some (h : d.Sound (l ++ lineFeed :: r)) (hl : lineFeed ∉ l) :
    d.findEnd (l ++ lineFeed :: r) = some l.length := by
  have hle : d.scanned ≤ l.length := by
    by_contra hlt
    refine h.searched ?_
    rw [List.take_append, List.take_of_length_le (by omega)]
    obtain ⟨n, hn⟩ : ∃ n, d.scanned - l.length = n + 1 := ⟨d.scanned - l.length - 1, by omega⟩
    rw [hn]
    exact List.mem_append_right l List.mem_cons_self
  rw [findEnd, List.drop_append_of_le_length hle, List.findIdx?_append, findIdx?_drop_eq_none hl]
  simp [List.findIdx?_cons]
  omega

/-- What a call comes to, by the part of the buffer that it uses up. -/
inductive Nexts : LineDecoder → List UInt8 → Option String → LineDecoder → List UInt8 → Prop where
  | line {d : LineDecoder} {l r : List UInt8} (hs : d.skipping = false) (hl : lineFeed ∉ l) :
      Nexts d (l ++ lineFeed :: r) (some (lineText d.limit l)) (d.restart false) r
  | overlong {d : LineDecoder} {buffer : List UInt8} (hs : d.skipping = false)
      (hb : lineFeed ∉ buffer) (hl : d.limit < buffer.length) :
      Nexts d buffer (some (lineText d.limit buffer)) (d.restart true) []
  | short {d : LineDecoder} {buffer : List UInt8} (hs : d.skipping = false)
      (hb : lineFeed ∉ buffer) (hl : buffer.length ≤ d.limit) :
      Nexts d buffer none ⟨d.limit, buffer.length, false⟩ buffer
  | skipped {d d' : LineDecoder} {l r rest : List UInt8} {x : Option String}
      (hs : d.skipping = true) (hl : lineFeed ∉ l) (hn : Nexts (d.restart false) r x d' rest) :
      Nexts d (l ++ lineFeed :: r) x d' rest
  | skipping {d : LineDecoder} {buffer : List UInt8} (hs : d.skipping = true)
      (hb : lineFeed ∉ buffer) : Nexts d buffer none (d.restart true) []

theorem Sound.nextLine_eq (h : d.Sound (l ++ lineFeed :: r)) (hl : lineFeed ∉ l) :
    d.nextLine (l ++ lineFeed :: r) =
      (some (lineText d.limit l), ⟨d.limit, 0, d.skipping⟩, r) := by
  have htake : (l ++ lineFeed :: r).take (l.length + 1) = l ++ [lineFeed] := by
    simp [List.take_append, List.take_of_length_le (Nat.le_succ l.length)]
  have hdrop : (l ++ lineFeed :: r).drop (l.length + 1) = r := by simp [List.drop_append]
  simp only [LineDecoder.nextLine, h.findEnd_eq_some hl, htake, hdrop, lineText_append_lineFeed]

theorem nextLine_overlong (hb : lineFeed ∉ buffer) (hl : d.limit < buffer.length) :
    d.nextLine buffer = (some (lineText d.limit buffer), d.restart true, []) := by
  simp only [LineDecoder.nextLine, d.findEnd_eq_none hb, if_pos hl]
  rfl

theorem Sound.nextLine (h : d.Sound buffer) (hs : d.skipping = false) :
    ∃ x d' rest, d.nextLine buffer = (x, d', rest) ∧ Nexts d buffer x d' rest := by
  by_cases hm : lineFeed ∈ buffer
  · obtain ⟨l, r, rfl, hl⟩ := List.eq_append_cons_of_mem hm
    exact ⟨_, _, _, hs ▸ h.nextLine_eq hl, .line hs hl⟩
  by_cases hl : d.limit < buffer.length
  · exact ⟨_, _, _, nextLine_overlong hm hl, .overlong hs hm hl⟩
  · refine ⟨_, _, _, ?_, .short hs hm (Nat.not_lt.mp hl)⟩
    simp only [LineDecoder.nextLine, d.findEnd_eq_none hm, if_neg hl, hs]

theorem Sound.next (h : d.Sound buffer) :
    ∃ x d' rest, d.next buffer = (x, d', rest) ∧ Nexts d buffer x d' rest := by
  unfold LineDecoder.next
  split
  next hs =>
    by_cases hm : lineFeed ∈ buffer
    · obtain ⟨l, r, rfl, hl⟩ := List.eq_append_cons_of_mem hm
      have hdrop : (l ++ lineFeed :: r).drop (l.length + 1) = r := by simp [List.drop_append]
      obtain ⟨x, d', rest, hx, hn⟩ := (sound_restart d false r).nextLine rfl
      refine ⟨x, d', rest, ?_, .skipped hs hl hn⟩
      simp only [h.findEnd_eq_some hl, hdrop]
      exact hx
    · refine ⟨_, _, _, ?_, .skipping hs hm⟩
      simp only [d.findEnd_eq_none hm, restart, hs]
  next hs => exact h.nextLine (by simpa using hs)

theorem Nexts.limit_eq (h : Nexts d buffer x d' rest) : d'.limit = d.limit := by
  induction h with
  | skipped _ _ _ ih => exact ih
  | _ => rfl

theorem Nexts.sound (h : Nexts d buffer x d' rest) : d'.Sound rest := by
  induction h with
  | line | overlong | skipping => exact sound_restart ..
  | short _ hb _ => exact sound_searched hb
  | skipped _ _ _ ih => exact ih

/-- A call says the first of the lines that are left, or none. -/
theorem Nexts.left_eq (h : Nexts d buffer x d' rest) (future : List UInt8) :
    ∃ ls, d.left buffer future = ls ++ d'.left rest future ∧
      List.Forall₂ (Rendered d.limit) ls x.toList := by
  induction h with
  | @line d l r hs hl =>
    refine ⟨[l], ?_, .cons ⟨l, List.prefix_rfl, .inl rfl, rfl⟩ .nil⟩
    simp [left, restart, hs, linesOf_append_lineFeed hl]
  | @overlong d buffer hs hb hl =>
    have hne : buffer ++ future ≠ [] := by
      intro he
      simp [(List.append_eq_nil_iff.mp he).1] at hl
    refine ⟨[buffer ++ firstLine future], ?_, .cons ?_ .nil⟩
    · simp [left, restart, hs, linesOf_eq hne, firstLine_append hb, afterFirst_append hb]
    · exact ⟨buffer, List.prefix_append .., .inr hl, rfl⟩
  | short hs _ _ => exact ⟨[], by simp [left, hs], .nil⟩
  | @skipped d d' l r rest x hs hl _ ih =>
    have he : d.left (l ++ lineFeed :: r) future = (d.restart false).left r future := by
      simp [left, restart, hs, afterFirst_append hl, afterFirst_lineFeed]
    exact he ▸ ih
  | skipping hs hb => exact ⟨[], by simp [left, restart, hs, afterFirst_append hb], .nil⟩

/-- A call that says nothing leaves no line feed, no more octets than the limit, and none of a line that
is being skipped. -/
theorem Nexts.of_none (h : Nexts d buffer none d' rest) :
    lineFeed ∉ rest ∧ rest.length ≤ d.limit ∧ (d'.skipping = true → rest = []) := by
  generalize hx : (none : Option String) = x at h
  induction h with
  | line | overlong => cases hx
  | short _ hb hl => exact ⟨hb, hl, nofun⟩
  | skipped _ _ _ ih => exact ih hx
  | skipping => exact ⟨List.not_mem_nil, Nat.zero_le _, fun _ => rfl⟩

/-! ## Many calls -/

theorem drain_of_none (h : d.next buffer = (none, d', rest)) : d.drain buffer = ([], d', rest) := by
  rw [drain]
  split
  next h' => rw [h] at h'; cases h'; rfl
  next h' => rw [h] at h'; cases h'

theorem drain_of_some (h : d.next buffer = (some line, d', rest)) :
    d.drain buffer = (line :: (d'.drain rest).1, (d'.drain rest).2) := by
  rw [drain]
  split
  next h' => rw [h] at h'; cases h'
  next h' => rw [h] at h'; cases h'; rfl

theorem drain_restart_nil (d : LineDecoder) : (d.restart true).drain [] = ([], d.restart true, []) :=
  drain_of_none rfl

theorem drainAtEnd_of_none (h : d.nextAtEnd buffer = (none, d', rest)) :
    d.drainAtEnd buffer = ([], d', rest) := by
  rw [drainAtEnd]
  split
  next h' => rw [h] at h'; cases h'; rfl
  next h' => rw [h] at h'; cases h'

theorem drainAtEnd_of_some (h : d.nextAtEnd buffer = (some line, d', rest)) :
    d.drainAtEnd buffer = (line :: (d'.drainAtEnd rest).1, (d'.drainAtEnd rest).2) := by
  rw [drainAtEnd]
  split
  next h' => rw [h] at h'; cases h'
  next h' => rw [h] at h'; cases h'; rfl

/-- Chunks that come later are decoded with what the earlier ones leave behind. -/
theorem feed_append (d : LineDecoder) (buffer : List UInt8) (chunks chunks' : List (List UInt8)) :
    let x := d.feed buffer chunks
    let y := x.2.1.feed x.2.2 chunks'
    d.feed buffer (chunks ++ chunks') = (x.1 ++ y.1, y.2) := by
  induction chunks generalizing d buffer with
  | nil => rfl
  | cons chunk chunks ih => simp only [List.cons_append, feed, ih, List.append_assoc]

theorem feed_concat {chunk : List UInt8} (h : d.feed buffer chunks = (lines, d', rest)) :
    d.feed buffer (chunks ++ [chunk]) =
      (lines ++ (d'.drain (rest ++ chunk)).1, (d'.drain (rest ++ chunk)).2) := by
  simp only [feed_append, h, feed, List.append_nil]

theorem feed_isPrefix_decodeAll {output : List (List UInt8)} (h : chunks <+: output) (limit : Nat) :
    ((new limit).feed [] chunks).1 <+: decodeAll limit output := by
  obtain ⟨chunks', rfl⟩ := h
  simp only [decodeAll, feed_append, List.append_assoc]
  exact List.prefix_append ..

theorem drain_lines (limit : Nat) {ls : List (List UInt8)} (hls : ∀ l ∈ ls, lineFeed ∉ l)
    (r : List UInt8) :
    (new limit).drain (ls.flatMap (· ++ [lineFeed]) ++ r) =
      (ls.map (lineText (max limit 1)) ++ ((new limit).drain r).1, ((new limit).drain r).2) := by
  induction ls with
  | nil => rfl
  | cons l ls ih =>
    obtain ⟨hl, hls⟩ := List.forall_mem_cons.mp hls
    have hnext : (new limit).next (l ++ lineFeed :: (ls.flatMap (· ++ [lineFeed]) ++ r)) =
        (some (lineText (max limit 1) l), new limit, ls.flatMap (· ++ [lineFeed]) ++ r) :=
      (sound_restart (new limit) false _).nextLine_eq hl
    rw [List.flatMap_cons, List.append_assoc, List.append_assoc, List.singleton_append,
      drain_of_some hnext]
    exact congrArg (fun x => (lineText (max limit 1) l :: x.1, x.2)) (ih hls)

theorem drain_overlong (limit : Nat) {p : List UInt8} (hp : lineFeed ∉ p)
    (hlong : max limit 1 < p.length) :
    (new limit).drain p = ([lineText (max limit 1) p], (new limit).restart true, []) := by
  have hnext : (new limit).next p = (some (lineText (max limit 1) p), (new limit).restart true, []) :=
    nextLine_overlong hp hlong
  rw [drain_of_some hnext, drain_restart_nil]

theorem Sound.drain (h : d.Sound buffer) (future : List UInt8) :
    ∃ ls lines d' rest, d.drain buffer = (lines, d', rest) ∧
      d.left buffer future = ls ++ d'.left rest future ∧
      List.Forall₂ (Rendered d.limit) ls lines ∧ d'.Sound rest ∧ d'.limit = d.limit := by
  induction hn : buffer.length using Nat.strongRecOn generalizing d buffer with
  | _ n ih =>
    obtain ⟨x, d₁, rest₁, hx, hnext⟩ := h.next
    obtain ⟨ls, hls, hf⟩ := hnext.left_eq future
    cases x with
    | none =>
      exact ⟨ls, [], d₁, rest₁, drain_of_none hx, hls, hf, hnext.sound, hnext.limit_eq⟩
    | some line =>
      have hlt : rest₁.length < n := hn ▸ length_lt_of_next hx
      obtain ⟨ls', lines, d', rest, hd, hls', hf', hs', hl'⟩ := ih _ hlt hnext.sound rfl
      refine ⟨ls ++ ls', line :: lines, d', rest, ?_, ?_, ?_, hs', hl'.trans hnext.limit_eq⟩
      · rw [drain_of_some hx, hd]
      · rw [hls, hls', List.append_assoc]
      · exact List.rel_append hf (hnext.limit_eq ▸ hf')

theorem Sound.feed (h : d.Sound buffer) (chunks : List (List UInt8)) :
    ∃ ls lines d' rest, d.feed buffer chunks = (lines, d', rest) ∧
      d.left buffer chunks.flatten = ls ++ d'.left rest [] ∧
      List.Forall₂ (Rendered d.limit) ls lines ∧ d'.Sound rest ∧ d'.limit = d.limit := by
  induction chunks generalizing d buffer with
  | nil => exact ⟨[], [], d, buffer, rfl, rfl, .nil, h, rfl⟩
  | cons chunk chunks ih =>
    obtain ⟨ls, lines, d₁, rest₁, hd, hls, hf, hs, hl⟩ := (h.append chunk).drain chunks.flatten
    obtain ⟨ls', lines', d', rest, hd', hls', hf', hs', hl'⟩ := ih hs
    refine ⟨ls ++ ls', lines ++ lines', d', rest, ?_, ?_, ?_, hs', hl'.trans hl⟩
    · rw [LineDecoder.feed, hd]
      simp only [hd']
    · rw [List.append_assoc, ← hls', ← hls]
      simp only [left, List.flatten_cons, List.append_assoc]
    · exact List.rel_append hf (hl ▸ hf')

/-! ## The end of the output -/

theorem left_nil (d : LineDecoder) : d.left [] [] = [] := by
  simp [left, afterFirst, linesOf]

theorem Sound.nextAtEnd (h : d.Sound buffer) :
    ∃ ls x d' rest, d.nextAtEnd buffer = (x, d', rest) ∧
      d.left buffer [] = ls ++ d'.left rest [] ∧ List.Forall₂ (Rendered d.limit) ls x.toList ∧
      d'.Sound rest ∧ d'.limit = d.limit ∧ (x = none → rest = []) := by
  obtain ⟨x, d₁, rest₁, hx, hnext⟩ := h.next
  obtain ⟨ls, hls, hf⟩ := hnext.left_eq []
  have hl := hnext.limit_eq
  unfold LineDecoder.nextAtEnd
  rw [hx]
  cases x with
  | some line => exact ⟨ls, some line, d₁, rest₁, rfl, hls, hf, hnext.sound, hl, nofun⟩
  | none =>
    obtain ⟨hb, -, hskip⟩ := hnext.of_none
    obtain rfl := List.forall₂_nil_right_iff.mp hf
    cases rest₁ with
    | nil =>
      refine ⟨[], none, _, [], rfl, ?_, .nil, sound_restart d₁ d₁.skipping [], hl, fun _ => rfl⟩
      rw [hls, left_nil, left_nil]
    | cons b bs =>
      have hs : d₁.skipping = false := by
        by_contra hs
        cases hskip (by simpa using hs)
      refine ⟨[b :: bs], some (lineText d₁.limit (b :: bs)), _, [], rfl, ?_,
        .cons ⟨b :: bs, List.prefix_rfl, .inl rfl, hl ▸ rfl⟩ .nil,
        sound_restart d₁ d₁.skipping [], hl, nofun⟩
      rw [hls, left_nil, left]
      simp [hs, linesOf_of_notMem hb]

theorem Sound.drainAtEnd (h : d.Sound buffer) :
    List.Forall₂ (Rendered d.limit) (d.left buffer []) (d.drainAtEnd buffer).1 := by
  induction hn : buffer.length using Nat.strongRecOn generalizing d buffer with
  | _ n ih =>
    obtain ⟨ls, x, d', rest, hx, hls, hf, hs, hl, hnone⟩ := h.nextAtEnd
    rw [LineDecoder.drainAtEnd, hls]
    split
    next h' =>
      obtain ⟨rfl, -⟩ := Prod.mk.inj (hx.symm.trans h')
      obtain rfl := hnone rfl
      obtain rfl := List.forall₂_nil_right_iff.mp hf
      rw [left_nil]
      exact .nil
    next line d₁ rest₁ h' =>
      obtain ⟨rfl, he⟩ := Prod.mk.inj (hx.symm.trans h')
      obtain ⟨rfl, rfl⟩ := Prod.mk.inj he
      have hlt : rest.length < n := hn ▸ length_lt_of_nextAtEnd hx
      exact List.rel_append hf (hl ▸ ih _ hlt hs rfl)

/-- However an output is cut, each of its lines is said once, in order. -/
theorem rendered_decodeAll (limit : Nat) (chunks : List (List UInt8)) :
    List.Forall₂ (Rendered (max limit 1)) (linesOf chunks.flatten) (decodeAll limit chunks) := by
  obtain ⟨ls, lines, d, rest, hd, hls, hf, hs, hl⟩ :=
    (sound_restart (new limit) false []).feed chunks
  have hleft : linesOf chunks.flatten = ls ++ d.left rest [] := hls
  have hfeed : (new limit).feed [] chunks = (lines, d, rest) := hd
  rw [hleft, decodeAll, hfeed]
  exact List.rel_append hf (hl ▸ hs.drainAtEnd)

theorem decodeAll_nil (limit : Nat) : decodeAll limit [] = [] := by
  have h := rendered_decodeAll limit []
  rw [List.flatten_nil, linesOf] at h
  exact List.forall₂_nil_left_iff.mp h

end LineDecoder

end JobConsole.Output
