import JobConsole.Shell.Pattern

/-! # Fields

What words come to is cut into fields. Only what was put in without quotation is cut: at each separator,
where blanks that are separators count together. All parameters at once are cut between them and nowhere
else. A place where quotation began or ended keeps a field that has no characters.
-/

namespace JobConsole.Shell

/-- What a word comes to, bit by bit. -/
inductive Cell where
  /-- Quotation began or ended. -/
  | mark
  | char (c : Char) (quoted : Bool)
  /-- Two parameters meet. -/
  | gap
  deriving DecidableEq, Repr

/-- Where a stretch may be cut. -/
inductive Cutting where
  | nowhere
  | atSeparators
  | atGaps
  deriving DecidableEq, Repr

structure Stretch where
  cells : List Cell
  cutting : Cutting
  deriving DecidableEq, Repr

namespace Cell

def marked? : Cell → Option (Char × Bool)
  | char c q => some (c, q)
  | _ => none

/-- A character, or nothing for a gap; marks are left out. -/
def value? : Cell → Option (Option Char)
  | char c _ => some (some c)
  | gap => some none
  | mark => none

end Cell

def markedText (cs : List Cell) : MarkedText := cs.filterMap Cell.marked?

/-- The characters of stretches. -/
def plainText (ss : List Stretch) : String :=
  MarkedText.text (markedText (ss.flatMap (·.cells)))

namespace Fields

def isStandard (c : Char) : Bool := c = ' ' || c = '\t' || c = '\n'

/-- What separates a field from the next one. -/
structure Separation where
  separators : List Char
  cutting : Cutting

/-- Whether a cell is a separator, and whether it is one that counts together with others. -/
def Separation.kind (s : Separation) : Cell → Option Bool
  | .gap => some true
  | .char c false =>
    if s.cutting = .atSeparators && s.separators.contains c then some (isStandard c) else none
  | _ => none

structure State where
  fields : List (List Cell)
  /-- The field that is being made, backwards. -/
  current : List Cell
  /-- Whether the last stretch that could be cut was cut at gaps. -/
  afterGaps : Bool

/-- Leaves out the separators behind a separator: blanks, and one other if the first was a blank. -/
def skip (s : Separation) : Bool → List Cell → List Cell
  | _, [] => []
  | blank, c :: r =>
    match s.kind c with
    | none => c :: r
    | some true => skip s blank r
    | some false => if blank then skip s false r else c :: r

theorem length_skip_le (s : Separation) (blank : Bool) (cs : List Cell) :
    (skip s blank cs).length ≤ cs.length := by
  induction cs generalizing blank with
  | nil => exact Nat.le_refl _
  | cons c r ih =>
    unfold skip
    split
    · exact Nat.le_refl _
    · exact Nat.le_succ_of_le (ih blank)
    · split
      · exact Nat.le_succ_of_le (ih false)
      · exact Nat.le_refl _

/-- Cuts a stretch. -/
def cut (s : Separation) (afterGaps : Bool) (st : State) : List Cell → State
  | [] => st
  | c :: r =>
    match s.kind c with
    | none => cut s afterGaps { st with current := c :: st.current } r
    | some blank =>
      let blank := blank && !afterGaps && s.cutting = .atSeparators
      if st.current.isEmpty && blank then cut s afterGaps st r
      else
        let st := { st with fields := st.current.reverse :: st.fields, current := [] }
        if s.cutting = .atGaps then cut s afterGaps st r
        else cut s afterGaps st (skip s blank r)
termination_by cs => cs.length
decreasing_by
  all_goals
    first
    | exact Nat.lt_succ_self _
    | exact Nat.lt_succ_of_le (length_skip_le ..)

def addStretch (separators : List Char) (st : State) (x : Stretch) : State :=
  match x.cutting with
  | .nowhere => { st with current := x.cells.reverse ++ st.current }
  | cutting =>
    let st' := cut ⟨separators, cutting⟩ st.afterGaps st x.cells
    { st' with afterGaps := decide (cutting = .atGaps) }

/-- The fields of stretches. -/
def ofStretches (separators : String) (ss : List Stretch) : List (List Cell) :=
  let st := ss.foldl (addStretch separators.toList) ⟨[], [], false⟩
  (if st.afterGaps || !st.current.isEmpty then st.current.reverse :: st.fields else st.fields).reverse

end Fields

end JobConsole.Shell
