import JobConsole.Proofs.Output.Decoding

/-! # Calls in any order

Octets are appended to a buffer, and a decoder is called on it, with more output to come or with none, in
any order. The decoder never searches beyond the end of the buffer or passes over a line feed, each of its
searches ends after two passes at most, and neither what it keeps nor what it says outgrows the limit.
-/

namespace JobConsole.Output

variable {l raw : List UInt8} {limit : Nat} {text : String}

/-! ## How long a text is -/

theorem length_lineText_le (limit : Nat) (raw : List UInt8) :
    (lineText limit raw).length ≤ limit + 1 := by
  simp only [lineText]
  split
  next hle =>
    have := Text.Utf8.length_decodeLossy_le_length (stripEnd raw)
    omega
  · have := Text.Utf8.length_decodeLossy_le_length ((stripEnd raw).take limit)
    have := List.length_take_le limit (stripEnd raw)
    rw [String.length_push]
    omega

theorem Rendered.length_le (h : Rendered limit l text) : text.length ≤ limit + 1 := by
  obtain ⟨p, -, -, rfl⟩ := h
  exact length_lineText_le limit p

theorem length_le_of_rendered {ls : List (List UInt8)} {x : Option String}
    (h : List.Forall₂ (Rendered limit) ls x.toList) (hx : x = some text) :
    text.length ≤ limit + 1 := by
  subst hx
  obtain ⟨l, -, hr, -, -⟩ := List.forall₂_cons_right_iff.mp h
  exact hr.length_le

namespace LineDecoder

variable {d d' : LineDecoder} {buffer rest : List UInt8} {x : Option String}

/-! ## The passes of one search -/

/-- What one pass over a buffer comes to: an answer, or another pass behind a line that is skipped. -/
inductive Pass where
  | answer (x : Option String) (d : LineDecoder) (rest : List UInt8)
  | again (d : LineDecoder) (rest : List UInt8)

def pass (d : LineDecoder) (buffer : List UInt8) : Pass :=
  match d.skipping, d.findEnd buffer with
  | true, some i => .again (d.restart false) (buffer.drop (i + 1))
  | true, none => .answer none (d.restart true) []
  | false, some i =>
    .answer (some (lineText d.limit (buffer.take (i + 1)))) (d.restart false) (buffer.drop (i + 1))
  | false, none =>
    if d.limit < buffer.length then .answer (some (lineText d.limit buffer)) (d.restart true) []
    else .answer none ⟨d.limit, buffer.length, false⟩ buffer

/-- Passes over a buffer come to an answer, and none of them begins beyond the end of its buffer. -/
inductive Passes : Nat → LineDecoder → List UInt8 → Option String × LineDecoder × List UInt8 → Prop where
  | answer {d d' : LineDecoder} {buffer rest : List UInt8} {x : Option String}
      (hs : d.scanned ≤ buffer.length) (hp : d.pass buffer = .answer x d' rest) :
      Passes 1 d buffer (x, d', rest)
  | again {n : Nat} {d d' : LineDecoder} {buffer rest : List UInt8}
      {out : Option String × LineDecoder × List UInt8} (hs : d.scanned ≤ buffer.length)
      (hp : d.pass buffer = .again d' rest) (hn : Passes n d' rest out) :
      Passes (n + 1) d buffer out

theorem passes_nextLine (hs : d.scanned ≤ buffer.length) (hk : d.skipping = false) :
    Passes 1 d buffer (d.nextLine buffer) := by
  unfold LineDecoder.nextLine
  cases hf : d.findEnd buffer with
  | some i => exact .answer hs (by simp only [pass, hk, hf]; rfl)
  | none =>
    by_cases hl : d.limit < buffer.length
    · simp only [gt_iff_lt, if_pos hl]
      exact .answer hs (by simp only [pass, hk, hf, if_pos hl]; rfl)
    · simp only [gt_iff_lt, if_neg hl]
      exact .answer hs (by simp only [pass, hk, hf, if_neg hl])

/-- The search for the next line ends after two passes at most: the first may only skip the rest of an
overlong line. -/
theorem exists_passes_next (hs : d.scanned ≤ buffer.length) :
    ∃ n, n ≤ 2 ∧ Passes n d buffer (d.next buffer) := by
  unfold LineDecoder.next
  split
  next hk =>
    cases hf : d.findEnd buffer with
    | some i =>
      refine ⟨2, Nat.le_refl 2, .again hs ?_ (passes_nextLine (Nat.zero_le _) rfl)⟩
      simp only [pass, hk, hf]
      rfl
    | none =>
      refine ⟨1, Nat.le_succ 1, .answer hs ?_⟩
      simp only [pass, hk, hf]
      rfl
  next hk => exact ⟨1, Nat.le_succ 1, passes_nextLine hs (by simpa using hk)⟩

/-! ## One call after the other -/

inductive Call where
  | append (chunk : List UInt8)
  | next
  | nextAtEnd

def call (d : LineDecoder) (buffer : List UInt8) :
    Call → Option String × LineDecoder × List UInt8
  | .append chunk => (none, d, buffer ++ chunk)
  | .next => d.next buffer
  | .nextAtEnd => d.nextAtEnd buffer

def calls (d : LineDecoder) (buffer : List UInt8) : List Call → LineDecoder × List UInt8
  | [] => (d, buffer)
  | c :: cs =>
    let x := d.call buffer c
    x.2.1.calls x.2.2 cs

theorem Sound.call (h : d.Sound buffer) (c : Call) :
    (d.call buffer c).2.1.Sound (d.call buffer c).2.2 ∧ (d.call buffer c).2.1.limit = d.limit := by
  cases c with
  | append chunk => exact ⟨h.append chunk, rfl⟩
  | next =>
    obtain ⟨x, d', rest, hx, hn⟩ := h.next
    rw [LineDecoder.call, hx]
    exact ⟨hn.sound, hn.limit_eq⟩
  | nextAtEnd =>
    obtain ⟨-, x, d', rest, hx, -, -, hs, hl, -⟩ := h.nextAtEnd
    rw [LineDecoder.call, hx]
    exact ⟨hs, hl⟩

theorem Sound.calls (h : d.Sound buffer) (cs : List Call) :
    (d.calls buffer cs).1.Sound (d.calls buffer cs).2 ∧ (d.calls buffer cs).1.limit = d.limit := by
  induction cs generalizing d buffer with
  | nil => exact ⟨h, rfl⟩
  | cons c cs ih =>
    obtain ⟨hs, hl⟩ := h.call c
    obtain ⟨hs', hl'⟩ := ih hs
    exact ⟨hs', hl'.trans hl⟩

/-! ## What calls keep and say -/

/-- A call with more output to come keeps no more than the limit when it says nothing, and nothing of a
line that it skips. -/
theorem Sound.bounded_next (h : d.Sound buffer) :
    (∀ text, (d.next buffer).1 = some text → text.length ≤ d.limit + 1) ∧
      ((d.next buffer).1 = none → (d.next buffer).2.2.length ≤ d.limit ∧
        ((d.next buffer).2.1.skipping = true → (d.next buffer).2.2 = [])) := by
  obtain ⟨x, d', rest, hx, hn⟩ := h.next
  rw [hx]
  refine ⟨fun text ht => ?_, fun hnone => ?_⟩
  · obtain ⟨ls, -, hf⟩ := hn.left_eq []
    exact length_le_of_rendered hf ht
  · obtain rfl : x = none := hnone
    obtain ⟨-, hl, hskip⟩ := hn.of_none
    exact ⟨hl, hskip⟩

theorem Sound.bounded_nextAtEnd (h : d.Sound buffer) :
    (∀ text, (d.nextAtEnd buffer).1 = some text → text.length ≤ d.limit + 1) ∧
      ((d.nextAtEnd buffer).1 = none → (d.nextAtEnd buffer).2.2 = []) := by
  obtain ⟨ls, x, d', rest, hx, -, hf, -, -, hnone⟩ := h.nextAtEnd
  rw [hx]
  exact ⟨fun text ht => length_le_of_rendered hf ht, hnone⟩

/-- Whatever has been appended and called before, the next search begins within the buffer, which holds no
line feed before that place, and ends. What it says has one character more than the limit at most. A call
that says nothing leaves no more octets than the limit, none of a line that is skipped, and none at all
if no more output will come. -/
theorem bounded_after_calls (limit : Nat) (cs : List Call) :
    let d := ((new limit).calls [] cs).1
    let buffer := ((new limit).calls [] cs).2
    let bound := max limit 1
    (d.scanned ≤ buffer.length ∧ lineFeed ∉ buffer.take d.scanned) ∧
      (∃ n, n ≤ 2 ∧ Passes n d buffer (d.next buffer)) ∧
      ((d.next buffer).1 = none → (d.next buffer).2.2.length ≤ bound ∧
        ((d.next buffer).2.1.skipping = true → (d.next buffer).2.2 = [])) ∧
      ((d.nextAtEnd buffer).1 = none → (d.nextAtEnd buffer).2.2 = []) ∧
      ∀ text, (d.next buffer).1 = some text ∨ (d.nextAtEnd buffer).1 = some text →
        text.length ≤ bound + 1 := by
  intro d buffer bound
  obtain ⟨hs, hl⟩ : d.Sound buffer ∧ d.limit = bound :=
    (sound_restart (new limit) false []).calls cs
  obtain ⟨hsaid, hkept⟩ := hs.bounded_next
  obtain ⟨hlast, hempty⟩ := hs.bounded_nextAtEnd
  rw [hl] at hsaid hkept hlast
  exact ⟨⟨hs.scanned_le, hs.searched⟩, exists_passes_next hs.scanned_le, hkept, hempty,
    fun text ht => ht.elim (hsaid text) (hlast text)⟩

end LineDecoder

end JobConsole.Output
