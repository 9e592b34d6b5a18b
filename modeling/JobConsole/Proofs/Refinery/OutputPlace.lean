import JobConsole.Execution.Setting
import JobConsole.Proofs.Files.Making
import JobConsole.Proofs.Registry.History
import JobConsole.Proofs.Text.Ascii
import JobConsole.Refinery.Command

/-! # Where outputs land

The builder makes a directory for the outputs of a job and names them in the command and in the
metadata, by the same paths. Who reads such a path takes it from the working directory of the job, the
process as well as the resolver. That is the place in the directory if the working directory or the
output root is absolute; if both are relative, the working directory counts twice.
-/

namespace JobConsole

/-! ## What a command names -/

namespace Refinery

/-- A file or directory that the program is asked to leave, under the key that records it. -/
structure Output where
  flag : String
  key : String
  file : String

def Request.outputs : Request → List Output
  | .imports r =>
    [ ⟨"--output", Metadata.outputPathKey, refinedFile⟩,
      ⟨"--archive-dir", Metadata.archiveDirKey, archiveDir⟩ ] ++
    if r.profile then [⟨"--profile", Metadata.profilePathKey, profileFile⟩] else []
  | .refine _ => [⟨"--output", Metadata.outputPathKey, refinedFile⟩]
  | .contract _ => [⟨"--output", Metadata.contractPathKey, contractFile⟩]

def Output.argument (dir : String) (o : Output) : Argument :=
  .output o.flag o.key (Path.join dir o.file)

def Argument.isOutput : Argument → Bool
  | .output .. => true
  | .option .. => false

variable {args : List Argument} {a : Argument} {q : Request} {dir key flag path : String} {m : Metadata}

theorem isOutput_of_optionOf {value : Option String} (h : a ∈ optionOf flag value) :
    a.isOutput = false := by
  unfold optionOf at h
  split at h
  · cases h
  · split at h
    · cases h
    · obtain rfl := List.mem_singleton.mp h
      rfl

theorem filter_optionOf (flag : String) (value : Option String) :
    (optionOf flag value).filter Argument.isOutput = [] :=
  List.filter_eq_nil_iff.mpr fun _ h => by simp [isOutput_of_optionOf h]

/-- The command line names just the outputs of the request. -/
theorem filter_arguments (dir : String) (q : Request) :
    (arguments dir q).filter Argument.isOutput = q.outputs.map (Output.argument dir) := by
  cases q with
  | imports r =>
    cases hp : r.profile <;>
      simp [arguments, List.filter_cons, filter_optionOf, Request.outputs, Output.argument,
        Argument.isOutput, hp]
  | refine r | contract r =>
    simp [arguments, List.filter_cons, filter_optionOf, Request.outputs, Output.argument,
      Argument.isOutput]

theorem foldl_record_filter (args : List Argument) (m : Metadata) :
    args.foldl Argument.record m = (args.filter Argument.isOutput).foldl Argument.record m := by
  induction args generalizing m with
  | nil => rfl
  | cons a args ih =>
    cases a with
    | output flag key path => exact ih _
    | option flag value => exact ih m

theorem get?_foldl_record {os : List Output} (hn : (os.map Output.key).Nodup) (m : Metadata)
    (key : String) (v : Json) :
    ((os.map (Output.argument dir)).foldl Argument.record m).get? key = some v ↔
      (∃ o ∈ os, key = o.key ∧ v = .text (Path.join dir o.file)) ∨
        key ∉ os.map Output.key ∧ m.get? key = some v := by
  induction os generalizing m with
  | nil => simp
  | cons o os ih =>
    obtain ⟨ho, hn⟩ := List.nodup_cons.mp hn
    have hrecord : Argument.record m (o.argument dir) =
      m.insert o.key (.text (Path.join dir o.file)) := rfl
    rw [List.map_cons, List.foldl_cons, hrecord, ih hn, Dict.get?_insert]
    by_cases hk : key = o.key
    · subst hk
      constructor
      · rintro (⟨o', ho', he, -⟩ | ⟨-, h⟩)
        · exact absurd (he ▸ List.mem_map_of_mem ho') ho
        · rw [if_pos rfl] at h
          exact .inl ⟨o, List.mem_cons_self, rfl, (Option.some.inj h).symm⟩
      · rintro (⟨o', ho', he, rfl⟩ | ⟨hno, -⟩)
        · rcases List.mem_cons.mp ho' with rfl | ho'
          · exact .inr ⟨ho, if_pos rfl⟩
          · exact .inl ⟨o', ho', he, rfl⟩
        · exact absurd List.mem_cons_self hno
    · simp [hk]

theorem nodup_outputs (q : Request) : (q.outputs.map Output.key).Nodup := by
  cases q with
  | imports r => cases hp : r.profile <;> simp [Request.outputs, hp] <;> decide
  | refine r | contract r => exact List.nodup_singleton _

theorem isName_of_mem_outputs {o : Output} (h : o ∈ q.outputs) :
    Path.IsName o.file ∧ FileSystem.Ordinary o.file := by
  have hall : ∀ s ∈ [refinedFile, archiveDir, profileFile, contractFile],
      Path.IsName s ∧ FileSystem.Ordinary s := by decide
  refine hall o.file ?_
  cases q with
  | imports r =>
    cases hp : r.profile <;> simp [Request.outputs, hp] at h
    · rcases h with rfl | rfl <;> simp
    · rcases h with rfl | rfl | rfl <;> simp
  | refine r | contract r =>
    obtain rfl := List.mem_singleton.mp h
    simp

theorem infix_command {o : Output} (h : o ∈ q.outputs) (b : Builder) (input id dir : String) :
    [o.flag, Path.join dir o.file] <:+: (prepare b q input id dir).command := by
  have hm : o.argument dir ∈ arguments dir q := by
    have hf : o.argument dir ∈ (arguments dir q).filter Argument.isOutput := by
      rw [filter_arguments]
      exact List.mem_map_of_mem h
    exact (List.mem_filter.mp hf).1
  have hw : (o.argument dir).words <:+: ((arguments dir q).map Argument.words).flatten :=
    List.infix_of_mem_flatten (List.mem_map_of_mem hm)
  exact hw.trans (List.infix_append ..)

/-- The metadata say what kind of request it was, and where each output lands. -/
theorem get?_metadata (b : Builder) (q : Request) (input id dir key : String) (v : Json) :
    (prepare b q input id dir).options.metadata.get? key = some v ↔
      (∃ o ∈ q.outputs, key = o.key ∧ v = .text (Path.join dir o.file)) ∨
        key = Metadata.kindKey ∧ v = .text q.kind := by
  have hkind : Metadata.kindKey ∉ q.outputs.map Output.key := by
    cases q with
    | imports r => cases hp : r.profile <;> simp [Request.outputs, hp] <;> decide
    | refine r | contract r => simp [Request.outputs]; decide
  have hm : (prepare b q input id dir).options.metadata =
      (q.outputs.map (Output.argument dir)).foldl Argument.record
        (Dict.empty.insert Metadata.kindKey (.text q.kind)) := by
    rw [← filter_arguments, ← foldl_record_filter]
    rfl
  rw [hm, get?_foldl_record (nodup_outputs q), Dict.get?_insert]
  by_cases hk : key = Metadata.kindKey
  · have hv : some (Json.text q.kind) = some v ↔ v = .text q.kind := by
      rw [Option.some.injEq, eq_comm]
    rw [if_pos hk, hv]
    simp only [hk, hkind, not_false_eq_true, true_and]
  · simp [hk]

variable {b : Builder} {fs fs' : FileSystem} {p : Prepared} {id : String}

def Builder.directory (b : Builder) (id : String) : String := Path.join b.outputRoot id

theorem build_of_not_blank {r : Option FileError} (hne : Text.trim q.inputPath ≠ "")
    (hm : fs.makeDirectories (b.directory id) = (fs', r)) :
    b.build fs id q = (fs',
      r.elim (.ok (prepare b q (Text.trim q.inputPath) id (b.directory id)))
        fun e => .error (.noOutputDirectory (b.directory id) e)) := by
  rw [Builder.directory] at hm
  simp only [Builder.build, if_neg hne, hm]
  cases r <;> rfl

theorem build_eq_ok (h : b.build fs id q = (fs', .ok p)) :
    p = prepare b q (Text.trim q.inputPath) id (b.directory id) ∧
      fs.makeDirectories (b.directory id) = (fs', none) := by
  by_cases hne : Text.trim q.inputPath = ""
  · rw [Builder.build, if_pos hne] at h
    cases h
  · obtain ⟨fs'', r, hm⟩ : ∃ fs'' r, fs.makeDirectories (b.directory id) = (fs'', r) := ⟨_, _, rfl⟩
    rw [build_of_not_blank hne hm] at h
    cases r with
    | some e => cases h
    | none =>
      obtain ⟨rfl, hp⟩ := Prod.mk.inj h
      exact ⟨(Except.ok.inj hp).symm, hm⟩

end Refinery

/-! ## What is submitted -/

theorem isName_of_checkId {id : String} (h : checkId id = .ok ()) : Path.IsName id := by
  obtain ⟨hne, -, hhere, hup, ht⟩ := checkId_eq_ok_iff.mp h
  exact ⟨hne, hhere, hup, Text.notMem_of_isToken ht (by decide), Text.notMem_of_isToken ht (by decide)⟩

namespace Registry

variable {r r' : Registry} {command : List String} {options : JobOptions} {fresh id : String}
  {now : Timestamp} {j : Job} {o : Operation} {as : List Bus.Act}

theorem job_of_submit (hs : r.submit command options fresh now = .ok (j, r'))
    (hid : options.id = some id) (hcwd : options.cwd = none) :
    checkId id = .ok () ∧ j.id = id ∧ j.command = command ∧ j.cwd = r.workingDir ∧
      j.metadata = options.metadata := by
  obtain ⟨id', -, hi, -, he⟩ := chooseId_of_submit hs
  obtain ⟨rfl, -⟩ := Prod.mk.inj he
  rw [chooseId, hid] at hi
  cases hc : checkId id with
  | error e =>
    simp only [hc] at hi
    cases hi
  | ok =>
    simp only [hc] at hi
    obtain rfl := Except.ok.inj hi
    have hchosen : r.chooseCwd options = r.workingDir := by rw [chooseCwd, hcwd]; rfl
    exact ⟨rfl, rfl, rfl, hchosen, rfl⟩

end Registry

namespace Refinery

open FileSystem (Usable)

variable {cfg : JobsConfig} {r₀ r' : Registry} {fs fs' : FileSystem} {q : Request} {p : Prepared}
  {id fresh : String} {now : Timestamp} {j : Job}

theorem isAbsolute_directory
    (h : Path.isAbsolute cfg.workingDir = true ∨ Path.isAbsolute cfg.outputRoot = true) :
    Path.isAbsolute ((Builder.new cfg).directory id) = true :=
  Path.isAbsolute_join_of_or (.inl (Path.isAbsolute_join_of_or h))

theorem placeOf_of_text {key path : String} (h : j.metadata.get? key = some (.text path))
    (hne : path ≠ "") : Resolved.placeOf j key = some (Path.join j.cwd path) := by
  simp [Resolved.placeOf, Metadata.text?, h, hne]

theorem find_of_enter {g : FileSystem} {cwd : String} {m : Location}
    (h : Execution.enter g cwd = .ok m) : g.find cwd = .ok m := by
  unfold Execution.enter at h
  split at h
  · cases h
  next l hl =>
    split at h
    · exact Except.ok.inj h ▸ hl
    · cases h

/-- The metadata of a submitted job record its outputs by the paths that the command carries, all of them
in the directory that has been made. The resolver and the process take such a path from the working
directory. What the resolver finds is what the process means, and it lies in the directory just when the
directory is also found from the working directory, which is so if the working directory or the output
root is absolute. -/
theorem output_places (h : Registry.new cfg = some r₀) (os : List Timed)
    (hb : (Builder.new cfg).build fs id q = (fs', .ok p))
    (hs : (r₀.runAll os).submit p.command p.options fresh now = .ok (j, r')) :
    let dir := (Builder.new cfg).directory id
    j.cwd = cfg.workingDir ∧
    (∀ key v, j.metadata.get? key = some v ↔
      (∃ o ∈ q.outputs, key = o.key ∧ v = .text (Path.join dir o.file)) ∨
        key = Metadata.kindKey ∧ v = .text q.kind) ∧
    (∀ o ∈ q.outputs, [o.flag, Path.join dir o.file] <:+: j.command) ∧
    ∃ l, fs'.find dir = .ok l ∧ fs'.entry? l = some .directory ∧
      ∀ o ∈ q.outputs, ∀ g, fs'.Extends g →
        let s := Path.join dir o.file
        Resolved.placeOf j o.key = some (Path.join j.cwd s) ∧
        (g.LiesIn (Path.join j.cwd s) l ↔
          Usable (Path.join j.cwd s) ∧ g.find (Path.join j.cwd dir) = .ok l) ∧
        (∀ m, Execution.enter g j.cwd = .ok m →
          (FileSystem.LiesIn { g with current := m } s l ↔
            Usable s ∧ FileSystem.find { g with current := m } dir = .ok l) ∧
          ∀ x, g.place false (Path.join j.cwd s) = .ok x →
            FileSystem.place { g with current := m } false s = .ok x) ∧
        (Path.isAbsolute cfg.workingDir = true ∨ Path.isAbsolute cfg.outputRoot = true →
          s.utf8ByteSize ≤ FileSystem.maxPathBytes →
            g.LiesIn (Path.join j.cwd s) l ∧
            ∀ m, Execution.enter g j.cwd = .ok m →
              FileSystem.LiesIn { g with current := m } s l) := by
  intro dir
  obtain ⟨rfl, hmake⟩ := build_eq_ok hb
  obtain ⟨hid, -, hcommand, hcwd, hmeta⟩ := Registry.job_of_submit hs rfl rfl
  rw [(Registry.settings_runAll h os).1] at hcwd
  have hid := isName_of_checkId hid
  have hdir : dir ≠ "" := Path.join_ne_empty hid.ne_empty
  obtain ⟨l, hl, hentry⟩ := FileSystem.exists_of_makeDirectories hdir hmake
  have hget := get?_metadata (Builder.new cfg) q (Text.trim q.inputPath) id dir
  rw [← hmeta] at hget
  refine ⟨hcwd, hget, fun o ho => ?_, l, hl, hentry, fun o ho g hg => ?_⟩
  · rw [hcommand]
    exact infix_command ho _ _ _ _
  intro s
  obtain ⟨hname, hord⟩ := isName_of_mem_outputs ho
  have hjoin : Path.join j.cwd s = Path.join (Path.join j.cwd dir) o.file := Path.join_assoc ..
  have hlg : g.entry? l = some .directory := hg.within l _ hentry
  have hresolver : g.LiesIn (Path.join j.cwd s) l ↔
      Usable (Path.join j.cwd s) ∧ g.find (Path.join j.cwd dir) = .ok l := by
    rw [hjoin, FileSystem.liesIn_join_iff hname hord (Path.join_ne_empty hdir)]
    simp [hlg]
  have hprocess (m : Location) : FileSystem.LiesIn { g with current := m } s l ↔
      Usable s ∧ FileSystem.find { g with current := m } dir = .ok l := by
    rw [FileSystem.liesIn_join_iff hname hord hdir]
    exact and_congr_right fun _ => and_iff_left hlg
  have hplace : Resolved.placeOf j o.key = some (Path.join j.cwd s) :=
    placeOf_of_text ((hget o.key (.text s)).mpr (.inl ⟨o, ho, rfl, rfl⟩))
      (Path.join_ne_empty hname.ne_empty)
  refine ⟨hplace, hresolver, fun m hm => ⟨hprocess m, fun x hx => ?_⟩, fun ha hfits => ?_⟩
  · exact FileSystem.place_of_place_join (hname.exists_piece_join hdir) (find_of_enter hm) hx
  · have hda : Path.isAbsolute dir = true := isAbsolute_directory ha
    have hsa : Path.isAbsolute s = true := Path.isAbsolute_join_of_or (.inl hda)
    have hu : Usable s := (FileSystem.find_eq_ok_iff.mp hl).1.join hname hfits
    have hfind := hg.find hl
    rw [Path.join_of_isAbsolute hsa, Path.join_of_isAbsolute hda] at hresolver
    rw [Path.join_of_isAbsolute hsa]
    exact ⟨hresolver.mpr ⟨hu, hfind⟩,
      fun m _ => (hprocess m).mpr ⟨hu, FileSystem.find_of_isAbsolute hda m hfind⟩⟩

theorem exists_of_isOk {ε α : Type} {x : Except ε α} (h : x.isOk = true) : ∃ a, x = .ok a := by
  cases x with
  | error e => cases h
  | ok a => exact ⟨a, rfl⟩

theorem exists_submitted {b : Builder} {r : Registry} (hb : (b.build fs id q).2.isOk = true)
    (hs : let made := prepare b q (Text.trim q.inputPath) id (b.directory id)
      (r.submit made.command made.options fresh now).isOk = true) :
    ∃ p j r', b.build fs id q = ((b.build fs id q).1, .ok p) ∧
      r.submit p.command p.options fresh now = .ok (j, r') := by
  obtain ⟨p, hp⟩ := exists_of_isOk hb
  have hbuild : b.build fs id q = ((b.build fs id q).1, .ok p) := Prod.ext rfl hp
  obtain ⟨rfl, -⟩ := build_eq_ok hbuild
  obtain ⟨⟨j, r'⟩, hj⟩ := exists_of_isOk hs
  exact ⟨_, j, r', hbuild, hj⟩

/-- With an absolute working directory the resolver finds the outputs where the builder has made room. -/
theorem output_places_of_absolute :
    let cfg : JobsConfig := ⟨4, 0, 8, "/srv/w", "refinery", "o"⟩
    let fs : FileSystem := ⟨[(["srv"], .directory), (["srv", "w"], .directory)], ["srv"]⟩
    let q : Request := .refine ⟨"in.csv", none, none⟩
    ∃ r₀ fs' p j r', Registry.new cfg = some r₀ ∧
      (Builder.new cfg).build fs "j1" q = (fs', .ok p) ∧
      r₀.submit p.command p.options "" default = .ok (j, r') ∧
      Resolved.placeOf j Metadata.outputPathKey = some "/srv/w/o/j1/refined.parquet" ∧
      fs'.LiesIn "/srv/w/o/j1/refined.parquet" ["srv", "w", "o", "j1"] := by
  intro cfg fs q
  obtain ⟨r₀, hr⟩ : ∃ r₀, Registry.new cfg = some r₀ := ⟨_, rfl⟩
  obtain ⟨p, j, r', hb, hs⟩ : ∃ p j r', (Builder.new cfg).build fs "j1" q =
        (((Builder.new cfg).build fs "j1" q).1, .ok p) ∧
      r₀.submit p.command p.options "" default = .ok (j, r') :=
    exists_submitted (by decide +kernel) (by cases hr; decide +kernel)
  obtain ⟨hcwd, -, -, l, hl, -, hall⟩ := output_places hr [] hb hs
  have hloc : l = ["srv", "w", "o", "j1"] := by
    refine Except.ok.inj (hl.symm.trans ?_)
    decide +kernel
  obtain ⟨hplace, -, -, habs⟩ := hall ⟨"--output", Metadata.outputPathKey, refinedFile⟩
    (List.mem_singleton_self _) _ (.refl _)
  have hjoin : Path.join j.cwd (Path.join ((Builder.new cfg).directory "j1") refinedFile) =
      "/srv/w/o/j1/refined.parquet" := by
    rw [hcwd]
    decide +kernel
  obtain ⟨hin, -⟩ := habs (.inl (by decide +kernel)) (by decide +kernel)
  rw [hjoin] at hplace hin
  exact ⟨r₀, _, _, j, r', hr, hb, hs, hplace, hloc ▸ hin⟩

/-- With a relative working directory and a relative output root the directory is made, and neither the
resolver nor the process looks there. -/
theorem outputs_displaced_of_relative :
    let cfg : JobsConfig := ⟨4, 0, 8, "w", "refinery", "o"⟩
    let fs : FileSystem := ⟨[(["srv"], .directory), (["srv", "w"], .directory)], ["srv"]⟩
    let q : Request := .refine ⟨"in.csv", none, none⟩
    ∃ r₀ fs' p j r', Registry.new cfg = some r₀ ∧
      (Builder.new cfg).build fs "j1" q = (fs', .ok p) ∧
      r₀.submit p.command p.options "" default = .ok (j, r') ∧
      fs'.find ((Builder.new cfg).directory "j1") = .ok ["srv", "w", "o", "j1"] ∧
      Resolved.placeOf j Metadata.outputPathKey = some "w/w/o/j1/refined.parquet" ∧
      ¬fs'.LiesIn "w/w/o/j1/refined.parquet" ["srv", "w", "o", "j1"] ∧
      Execution.enter fs' j.cwd = .ok ["srv", "w"] ∧
      ¬FileSystem.LiesIn { fs' with current := ["srv", "w"] } "w/o/j1/refined.parquet"
        ["srv", "w", "o", "j1"] := by
  intro cfg fs q
  obtain ⟨r₀, hr⟩ : ∃ r₀, Registry.new cfg = some r₀ := ⟨_, rfl⟩
  obtain ⟨p, j, r', hb, hs⟩ : ∃ p j r', (Builder.new cfg).build fs "j1" q =
        (((Builder.new cfg).build fs "j1" q).1, .ok p) ∧
      r₀.submit p.command p.options "" default = .ok (j, r') :=
    exists_submitted (by decide +kernel) (by cases hr; decide +kernel)
  obtain ⟨rfl, -⟩ := build_eq_ok hb
  obtain ⟨-, -, -, hcwd, hmeta⟩ := Registry.job_of_submit hs rfl rfl
  have hw : j.cwd = "w" := by
    rw [hcwd]
    cases hr
    rfl
  have hplace : Resolved.placeOf j Metadata.outputPathKey = some "w/w/o/j1/refined.parquet" := by
    rw [Resolved.placeOf, hw, hmeta]
    decide +kernel
  refine ⟨r₀, _, _, j, r', hr, hb, hs, by decide +kernel, hplace, ?_, ?_, ?_⟩
  · exact FileSystem.not_liesIn_of_error (e := .missing) (by decide +kernel)
  · rw [hw]
    decide +kernel
  · exact FileSystem.not_liesIn_of_error (e := .missing) (by decide +kernel)

end Refinery

end JobConsole
