import JobConsole.Text.Utf8

/-! # Lines of process output

Output arrives in chunks of octets and is decoded into lines. A line longer than the limit yields its
first octets, marked by an ellipsis, and is then skipped up to its end, so a buffer never has to
hold more than one line of the limit. The decoder remembers how far the buffer has been searched.
-/

namespace JobConsole.Output

def lineFeed : UInt8 := 10

def carriageReturn : UInt8 := 13

/-- Octets without their trailing line feeds and carriage returns. -/
def stripEnd (raw : List UInt8) : List UInt8 :=
  (raw.reverse.dropWhile fun b => b == lineFeed || b == carriageReturn).reverse

/-- The text of one line, cut to `limit` octets. -/
def lineText (limit : Nat) (raw : List UInt8) : String :=
  let line := stripEnd raw
  if line.length ≤ limit then Text.Utf8.decodeLossy line
  else (Text.Utf8.decodeLossy (line.take limit)).push '…'

structure LineDecoder where
  limit : Nat
  /-- How many octets of the buffer are known to hold no line feed. -/
  scanned : Nat
  /-- Whether the rest of an overlong line is being skipped. -/
  skipping : Bool
  deriving DecidableEq, Repr

namespace LineDecoder

def new (limit : Nat) : LineDecoder := ⟨max limit 1, 0, false⟩

/-- Where the first line feed stands that has not been passed yet. -/
def findEnd (d : LineDecoder) (buffer : List UInt8) : Option Nat :=
  ((buffer.drop d.scanned).findIdx? (· == lineFeed)).map (· + d.scanned)

/-- The next line of a decoder that skips nothing, and what is left of the buffer. -/
def nextLine (d : LineDecoder) (buffer : List UInt8) :
    Option String × LineDecoder × List UInt8 :=
  match d.findEnd buffer with
  | some i =>
    (some (lineText d.limit (buffer.take (i + 1))), { d with scanned := 0 }, buffer.drop (i + 1))
  | none =>
    if buffer.length > d.limit then
      (some (lineText d.limit buffer), { d with scanned := 0, skipping := true }, [])
    else (none, { d with scanned := buffer.length }, buffer)

/-- The next line, if the buffer completes one. -/
def next (d : LineDecoder) (buffer : List UInt8) : Option String × LineDecoder × List UInt8 :=
  if d.skipping then
    match d.findEnd buffer with
    | some i => nextLine { d with scanned := 0, skipping := false } (buffer.drop (i + 1))
    | none => (none, { d with scanned := 0 }, [])
  else nextLine d buffer

/-- The next line when no more output will come. -/
def nextAtEnd (d : LineDecoder) (buffer : List UInt8) :
    Option String × LineDecoder × List UInt8 :=
  match d.next buffer with
  | (some line, d', rest) => (some line, d', rest)
  | (none, d', rest) =>
    if rest.isEmpty then (none, { d' with scanned := 0 }, [])
    else (some (lineText d'.limit rest), { d' with scanned := 0 }, [])

theorem findEnd_lt {d : LineDecoder} {buffer : List UInt8} {i : Nat}
    (h : d.findEnd buffer = some i) : i < buffer.length := by
  obtain ⟨j, hj, rfl⟩ := Option.map_eq_some_iff.mp h
  have := (List.findIdx?_eq_some_iff_findIdx_eq.mp hj).1
  simp only [List.length_drop] at this
  omega

theorem length_lt_of_nextLine {d d' : LineDecoder} {buffer rest : List UInt8} {line : String}
    (h : d.nextLine buffer = (some line, d', rest)) : rest.length < buffer.length := by
  unfold nextLine at h
  split at h
  next i hi =>
    have := findEnd_lt hi
    injection h with _ h
    injection h with _ h
    subst h
    simp only [List.length_drop]
    omega
  next =>
    split at h
    next hl =>
      injection h with _ h
      injection h with _ h
      subst h
      simp only [List.length_nil]
      omega
    next => simp at h

theorem length_lt_of_next {d d' : LineDecoder} {buffer rest : List UInt8} {line : String}
    (h : d.next buffer = (some line, d', rest)) : rest.length < buffer.length := by
  unfold next at h
  split at h
  · split at h
    next i hi =>
      have := length_lt_of_nextLine h
      simp only [List.length_drop] at this
      omega
    next => simp at h
  · exact length_lt_of_nextLine h

theorem length_le_of_next_none {d d' : LineDecoder} {buffer rest : List UInt8}
    (h : d.next buffer = (none, d', rest)) : rest.length ≤ buffer.length := by
  unfold next at h
  split at h
  · split at h
    · unfold nextLine at h
      split at h
      · simp at h
      · split at h
        · simp at h
        · injection h with _ h
          injection h with _ h
          subst h
          simp
    · injection h with _ h
      injection h with _ h
      subst h
      simp
  · unfold nextLine at h
    split at h
    · simp at h
    · split at h
      · simp at h
      · injection h with _ h
        injection h with _ h
        subst h
        exact Nat.le_refl _

theorem length_lt_of_nextAtEnd {d d' : LineDecoder} {buffer rest : List UInt8} {line : String}
    (h : d.nextAtEnd buffer = (some line, d', rest)) : rest.length < buffer.length := by
  unfold nextAtEnd at h
  split at h
  next l e r hn =>
    have := length_lt_of_next hn
    injection h with _ h
    injection h with _ h
    subst h
    exact this
  next e r hn =>
    have hle := length_le_of_next_none hn
    split at h
    · simp at h
    next hr =>
      injection h with _ h
      injection h with _ h
      subst h
      have : 0 < r.length := List.length_pos_iff.mpr (by simpa using hr)
      simp only [List.length_nil]
      omega

/-- All lines that the buffer completes. -/
def drain (d : LineDecoder) (buffer : List UInt8) : List String × LineDecoder × List UInt8 :=
  match _h : d.next buffer with
  | (none, d', rest) => ([], d', rest)
  | (some line, d', rest) =>
    let (lines, d'', rest') := drain d' rest
    (line :: lines, d'', rest')
termination_by buffer.length
decreasing_by exact length_lt_of_next _h

/-- All lines of the buffer when no more output will come. -/
def drainAtEnd (d : LineDecoder) (buffer : List UInt8) :
    List String × LineDecoder × List UInt8 :=
  match _h : d.nextAtEnd buffer with
  | (none, d', rest) => ([], d', rest)
  | (some line, d', rest) =>
    let (lines, d'', rest') := drainAtEnd d' rest
    (line :: lines, d'', rest')
termination_by buffer.length
decreasing_by exact length_lt_of_nextAtEnd _h

/-- All lines of the chunks that arrive after `buffer`, with what they leave behind. -/
def feed (d : LineDecoder) (buffer : List UInt8) :
    List (List UInt8) → List String × LineDecoder × List UInt8
  | [] => ([], d, buffer)
  | chunk :: chunks =>
    let (lines, d', rest) := d.drain (buffer ++ chunk)
    let (lines', d'', rest') := feed d' rest chunks
    (lines ++ lines', d'', rest')

/-- All lines of an output that arrives in chunks and then ends. -/
def decodeAll (limit : Nat) (chunks : List (List UInt8)) : List String :=
  let (lines, d, rest) := (new limit).feed [] chunks
  lines ++ (d.drainAtEnd rest).1

end LineDecoder

end JobConsole.Output
