import JobConsole.Http.Api
import JobConsole.Proofs.Refinery.OutputPlace
import JobConsole.Proofs.Registry.Ids

/-! # Refused submissions to the refinery

A blank input is refused before anything happens. Whatever else is wrong with a command is found after
the directory for its outputs has been made, and then the directory stays. The jobs, the tasks and the
bus are as before in either case.
-/

namespace JobConsole

theorem of_checkCommand_error {command : List String} {e : Error}
    (h : checkCommand command = .error e) :
    command = [] ∨ (∃ program args, command = program :: args ∧ Text.isAllBlank program = true) ∨
      ∃ w ∈ command, '\x00' ∈ w.toList := by
  cases command with
  | nil => exact .inl rfl
  | cons program args =>
    rw [checkCommand] at h
    split at h
    next hb => exact .inr (.inl ⟨program, args, rfl, Text.trim_eq_empty_iff.mp hb⟩)
    · split at h
      next hn =>
        obtain ⟨w, hw, hc⟩ := List.any_eq_true.mp hn
        exact .inr (.inr ⟨w, hw, by simpa using hc⟩)
      · cases h

namespace Http.Api

open Refinery (prepare)

variable {c : Console} {a : Arrival} {q : Refinery.Request}

/-- A submission under an id that can be used is refused as invalid for its command only. -/
theorem submit_of_refused {command : List String} {options : JobOptions} {id : String}
    (hid : options.id = some id) (hc : checkId id = .ok ())
    (h : (submit c a command options).1.status = 400) :
    (submit c a command options).2 = c ∧ ∃ e, checkCommand command = .error e := by
  have hchoose : Registry.chooseId options a.jobId = .ok id := by simp [Registry.chooseId, hid, hc]
  unfold submit at h ⊢
  cases hcheck : checkCommand command with
  | error e =>
    simp only [Registry.submit, hcheck]
    exact ⟨rfl, e, rfl⟩
  | ok =>
    simp only [Registry.submit, hcheck, hchoose] at h
    split at h
    next e he =>
      split at he
      · cases he
        cases h
      · cases he
    · cases h

/-- A request to the refinery that is refused as invalid has left the registry as it was. It has left the
files as they were just when its input is blank or its directory was there before; otherwise the
directory has been made for a command that cannot be submitted. -/
theorem refused_refinery (hid : isUuid a.jobId = true)
    (h : (submitRefinery c a q).1.status = 400) :
    let dir := c.builder.directory a.jobId
    let c' := (submitRefinery c a q).2
    c' = { c with files := c'.files } ∧ c.files.Extends c'.files ∧
    (c'.files = c.files ↔ Text.isAllBlank q.inputPath = true ∨ c.files.isDirectory dir = true) ∧
    (Text.isAllBlank q.inputPath = false → c'.files.isDirectory dir = true ∧
      (Text.isAllBlank c.config.jobs.cliProgram = true ∨
        ∃ w ∈ (prepare c.builder q (Text.trim q.inputPath) a.jobId dir).command,
          '\x00' ∈ w.toList)) := by
  intro dir c'
  have hcheck := checkId_of_isUuid hid
  have hdir : dir ≠ "" := Path.join_ne_empty (isName_of_checkId hcheck).ne_empty
  cases hb : Text.isAllBlank q.inputPath with
  | true =>
    have hbuild : c.builder.build c.files a.jobId q = (c.files, .error (.invalid .missingInput)) :=
      if_pos (Text.trim_eq_empty_iff.mpr hb)
    have hc' : c' = c := by simp only [c', submitRefinery, hbuild, refuse]
    rw [hc']
    exact ⟨rfl, .refl _, by simp, by simp⟩
  | false =>
    have hne : Text.trim q.inputPath ≠ "" := by
      rw [Ne, Text.trim_eq_empty_iff, hb]
      decide
    have hsound := FileSystem.sound_makeDirectories hdir c.files
    obtain ⟨fs, r, hm⟩ : ∃ fs r, c.files.makeDirectories dir = (fs, r) := ⟨_, _, rfl⟩
    have hbuild := Refinery.build_of_not_blank (b := c.builder) hne hm
    cases r with
    | some e =>
      -- what has been made is not taken back, but this is not an invalid request
      simp only [submitRefinery, hbuild] at h
      cases h
    | none =>
      simp only [submitRefinery, hbuild, Option.elim_none] at h
      obtain ⟨hc, e, he⟩ := submit_of_refused rfl hcheck h
      have hc' : c' = { c with files := fs } := by simp only [c', submitRefinery, hbuild, Option.elim_none, hc]
      rw [hm] at hsound
      rw [hc']
      refine ⟨rfl, hsound.extends_fst, ?_, fun _ => ⟨hsound.isDirectory rfl, ?_⟩⟩
      · simp only [Bool.false_eq_true, false_or]
        constructor
        · exact fun hf => hf ▸ hsound.isDirectory rfl
        · intro hd
          exact (Prod.mk.inj (hm.symm.trans (FileSystem.makeDirectories_of_isDirectory hd))).1
      · rcases of_checkCommand_error he with hnil | ⟨program, args, hp, hblank⟩ | hnul
        · cases hnil
        · obtain ⟨rfl, -⟩ := List.cons.inj hp
          exact .inl hblank
        · exact .inr hnul

/-- A blank input is refused and nothing is left behind. -/
theorem refused_refinery_of_blank_input :
    let cfg : ServerConfig :=
      ⟨"", 0, [], 0, 0, 15, .json, ⟨4, 0, 8, "/", "refinery", "out"⟩⟩
    let a : Arrival := ⟨default, "67e55044-10b1-426f-9247-bb680e5fe0c8", ""⟩
    let q : Refinery.Request := .refine ⟨" ", none, none⟩
    ∃ c, Console.start cfg ⟨[], []⟩ = .ok c ∧ isUuid a.jobId = true ∧
      (submitRefinery c a q).1.status = 400 ∧ (submitRefinery c a q).2 = c := by
  intro cfg a q
  obtain ⟨c, hc⟩ : ∃ c, Console.start cfg ⟨[], []⟩ = .ok c := ⟨_, rfl⟩
  have ha : isUuid a.jobId = true := by decide
  have hs : (submitRefinery c a q).1.status = 400 := by
    cases hc
    decide +kernel
  obtain ⟨hall, -, hfiles, -⟩ := refused_refinery ha hs
  refine ⟨c, hc, ha, hs, ?_⟩
  rw [hall, hfiles.mpr (.inl (by decide))]

/-- A request with a NUL character in its input is refused, and its directory stays. -/
theorem directory_left_of_nul_in_input :
    let cfg : ServerConfig :=
      ⟨"", 0, [], 0, 0, 15, .json, ⟨4, 0, 8, "/", "refinery", "out"⟩⟩
    let a : Arrival := ⟨default, "67e55044-10b1-426f-9247-bb680e5fe0c8", ""⟩
    let q : Refinery.Request := .imports ⟨"a\x00b", none, true, none⟩
    ∃ c, Console.start cfg ⟨[], []⟩ = .ok c ∧
      (submitRefinery c a q).1.status = 400 ∧
      c.files.isDirectory "/out/67e55044-10b1-426f-9247-bb680e5fe0c8" = false ∧
      (submitRefinery c a q).2.files.isDirectory "/out/67e55044-10b1-426f-9247-bb680e5fe0c8" =
        true := by
  intro cfg a q
  refine ⟨_, rfl, ?_, ?_, ?_⟩
  all_goals decide +kernel

end Http.Api

end JobConsole
