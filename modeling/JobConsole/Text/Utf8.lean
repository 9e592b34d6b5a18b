/-! # UTF-8 octets

Octets are decoded one at a time. An ill-formed stretch is cut into maximal subparts, as Unicode
recommends, and each of them decodes to one gap. Lossy decoding puts the replacement character into
every gap; strict decoding refuses a text that has one.
-/

namespace JobConsole.Text.Utf8

def encode (s : String) : List UInt8 :=
  s.toList.flatMap String.utf8EncodeChar

/-- Between characters, or inside one that lacks some continuation octets, the next of which must
lie between two bounds. -/
inductive State where
  | ready
  | inside (missing : Nat) (low high : Nat) (value : Nat)
  deriving DecidableEq, Repr

/-- The character decoded by an octet that starts one; a gap is `none`. -/
def lead (b : UInt8) : List (Option Char) × State :=
  let n := b.toNat
  if n < 0x80 then ([some (Char.ofNat n)], .ready)
  else if n < 0xC2 then ([none], .ready)
  else if n < 0xE0 then ([], .inside 1 0x80 0xBF (n - 0xC0))
  else if n = 0xE0 then ([], .inside 2 0xA0 0xBF 0)
  else if n = 0xED then ([], .inside 2 0x80 0x9F 0xD)
  else if n < 0xF0 then ([], .inside 2 0x80 0xBF (n - 0xE0))
  else if n = 0xF0 then ([], .inside 3 0x90 0xBF 0)
  else if n < 0xF4 then ([], .inside 3 0x80 0xBF (n - 0xF0))
  else if n = 0xF4 then ([], .inside 3 0x80 0x8F 4)
  else ([none], .ready)

def step : State → UInt8 → List (Option Char) × State
  | .ready, b => lead b
  | .inside k low high v, b =>
    let n := b.toNat
    if low ≤ n ∧ n ≤ high then
      let w := 64 * v + (n - 0x80)
      if k ≤ 1 then ([some (Char.ofNat w)], .ready)
      else ([], .inside (k - 1) 0x80 0xBF w)
    else
      let (cs, s) := lead b
      (none :: cs, s)

def finish : State → List (Option Char)
  | .ready => []
  | .inside .. => [none]

def run (s : State) : List UInt8 → List (Option Char)
  | [] => finish s
  | b :: r =>
    let (cs, s') := step s b
    cs ++ run s' r

def replacement : Char := Char.ofNat 0xFFFD

def decodeLossy (bs : List UInt8) : String :=
  String.ofList ((run .ready bs).map (·.getD replacement))

def decode? (bs : List UInt8) : Option String :=
  ((run .ready bs).mapM id).map String.ofList

/-- What is missing inside a character comes out as a gap at the latest. -/
theorem length_run_inside_pos (k low high v : Nat) (bs : List UInt8) :
    0 < (run (.inside k low high v) bs).length := by
  induction bs generalizing k low high v with
  | nil => exact Nat.one_pos
  | cons b bs ih =>
    simp only [run, step]
    by_cases hb : low ≤ b.toNat ∧ b.toNat ≤ high
    · by_cases hk : k ≤ 1
      · simp [hb, hk]
      · simpa [hb, hk] using ih (k - 1) 0x80 0xBF _
    · simp [hb]

theorem length_finish_le (s : State) (bs : List UInt8) : (finish s).length ≤ (run s bs).length := by
  cases s with
  | ready => exact Nat.zero_le _
  | inside k low high v => exact length_run_inside_pos k low high v bs

theorem length_run_le (s : State) (bs cs : List UInt8) :
    (run s bs).length ≤ (run s (bs ++ cs)).length := by
  induction bs generalizing s with
  | nil => exact length_finish_le s cs
  | cons b bs ih =>
    simp only [List.cons_append, run, List.length_append]
    exact Nat.add_le_add_left (ih _) _

/-- More octets are no fewer characters. -/
theorem length_decodeLossy_le (bs cs : List UInt8) :
    (decodeLossy bs).length ≤ (decodeLossy (bs ++ cs)).length := by
  simpa [decodeLossy] using length_run_le .ready bs cs

/-! ## No more characters than octets -/

/-- An octet that starts a character counts for it at once, or leaves it to be counted. -/
theorem length_lead (b : UInt8) : (lead b).1.length + (finish (lead b).2).length = 1 := by
  simp only [lead]
  repeat' split
  all_goals rfl

theorem length_step_le (s : State) (b : UInt8) :
    (step s b).1.length + (finish (step s b).2).length ≤ 1 + (finish s).length := by
  cases s with
  | ready => exact Nat.le_of_eq (length_lead b)
  | inside k low high v =>
    simp only [step]
    split
    · split <;> exact Nat.le_succ 1
    · have hlead := length_lead b
      have hgap : (finish (.inside k low high v)).length = 1 := rfl
      simp only [List.length_cons]
      omega

theorem length_run_le_add (s : State) (bs : List UInt8) :
    (run s bs).length ≤ bs.length + (finish s).length := by
  induction bs generalizing s with
  | nil => simp [run]
  | cons b bs ih =>
    have hstep := length_step_le s b
    have hrest := ih (step s b).2
    simp only [run, List.length_append, List.length_cons]
    omega

theorem length_decodeLossy_le_length (bs : List UInt8) : (decodeLossy bs).length ≤ bs.length := by
  simpa [decodeLossy, finish] using length_run_le_add .ready bs

end JobConsole.Text.Utf8
