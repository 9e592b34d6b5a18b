import JobConsole.Error
import JobConsole.Text.Blank
import JobConsole.Text.Token

/-! # Commands and job ids

What a submission must satisfy by itself. A command names an executable and holds no NUL character.
An id has between 1 and 128 bytes, consists of token characters and is no relative directory name.
-/

namespace JobConsole

def checkCommand : List String → Except Error Unit
  | [] => .error (.invalid .emptyCommand)
  | program :: args =>
    if Text.trim program = "" then .error (.invalid .blankExecutable)
    else if (program :: args).any (fun a => a.toList.contains '\x00') then
      .error (.invalid .nulInCommand)
    else .ok ()

def checkId (id : String) : Except Error Unit :=
  if id = "" ∨ maxIdBytes < id.utf8ByteSize then .error (.invalid .idLength)
  else if id = "." ∨ id = ".." then .error (.invalid (.reservedId id))
  else if Text.isToken id then .ok ()
  else .error (.invalid (.idCharacters id))

theorem checkId_eq_ok_iff {id : String} :
    checkId id = .ok () ↔
      id ≠ "" ∧ id.utf8ByteSize ≤ maxIdBytes ∧ id ≠ "." ∧ id ≠ ".." ∧ Text.isToken id = true := by
  unfold checkId
  split
  next h =>
    refine ⟨nofun, ?_⟩
    rintro ⟨h₁, h₂, _⟩
    exact absurd h (not_or.mpr ⟨h₁, Nat.not_lt.mpr h₂⟩)
  next h =>
    obtain ⟨h₁, h₂⟩ := not_or.mp h
    split
    next hr =>
      refine ⟨nofun, ?_⟩
      rintro ⟨_, _, h₃, h₄, _⟩
      exact absurd hr (not_or.mpr ⟨h₃, h₄⟩)
    next hr =>
      obtain ⟨h₃, h₄⟩ := not_or.mp hr
      split
      next ht => exact ⟨fun _ => ⟨h₁, Nat.not_lt.mp h₂, h₃, h₄, ht⟩, fun _ => rfl⟩
      next ht => exact ⟨nofun, fun h => absurd h.2.2.2.2 ht⟩

end JobConsole
