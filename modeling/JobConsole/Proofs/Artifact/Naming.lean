import JobConsole.Proofs.Artifact.Listing
import JobConsole.Proofs.Http.Address

/-! # Names of artifacts

The id of an artifact is made of its kind and its name. It is numbered only where an earlier artifact of the
job has it, with the first number that is free, and numbering comes to an end. So all ids differ, each stands
for itself in its address, and leads back to the artifact that was listed under it.
-/

namespace JobConsole.Resolved

variable {fs : FileSystem} {j : Job} {r e : Resolved} {rs before after : List Resolved}
  {taken taken' : List String} {base jobId s t : String} {kind : ArtifactKind} {n : Nat}

/-! ## Numbering -/

/-- An id that is taken gives way to the base with the next number, until one is free. -/
inductive Numbers (taken : List String) (base : String) : String → Nat → String → Prop where
  | free {s : String} {n : Nat} (h : s ∉ taken) : Numbers taken base s n s
  | next {s t : String} {n : Nat} (h : s ∈ taken)
      (rest : Numbers taken base (suffixed base n) (n + 1) t) : Numbers taken base s n t

theorem Numbers.unique (h : Numbers taken base s n t) {t' : String}
    (h' : Numbers taken base s n t') : t = t' := by
  induction h with
  | free hs =>
    cases h' with
    | free => rfl
    | next hs' => exact absurd hs' hs
  | next hs _ ih =>
    cases h' with
    | free hs' => exact absurd hs hs'
    | next _ h' => exact ih h'

theorem numbers_variant {m : Nat} (hfree : variant base (n + m) ∉ taken)
    (hbefore : ∀ i < n + m, variant base i ∈ taken) :
    Numbers taken base (variant base n) (n + 2) (variant base (n + m)) := by
  induction m generalizing n with
  | zero => exact .free hfree
  | succ m ih =>
    have hstep : n + (m + 1) = n + 1 + m := by omega
    rw [hstep] at hfree hbefore ⊢
    exact .next (hbefore n (by omega)) (ih hfree hbefore)

/-- Numbering comes to an end, with the id that is chosen. -/
theorem numbers_iff : Numbers taken base base 2 s ↔ s = freeId taken base := by
  have hend : Numbers taken base base 2 (freeId taken base) := by
    obtain ⟨m, he, hfree, hbefore⟩ := exists_freeId taken base
    rw [← Nat.zero_add m] at he hfree hbefore
    exact he ▸ numbers_variant hfree hbefore
  exact ⟨fun h => h.unique hend, fun h => h ▸ hend⟩

theorem freeId_congr (h : ∀ s, s ∈ taken ↔ s ∈ taken') : freeId taken base = freeId taken' base :=
  freeId_of_subset (fun s => (h s).mpr) fun hm => freeId_notMem taken' base ((h _).mp hm)

theorem freeId_eq_self_iff : freeId taken base = base ↔ base ∉ taken := by
  constructor
  · exact fun h => h ▸ freeId_notMem taken base
  · exact fun h => (numbers_iff.mp (.free h)).symm

/-! ## Entries and those before them -/

def naturalId (e : Resolved) : String := Artifact.idOf e.artifact.kind e.artifact.name

theorem naturalId_of_ofFile? {p : String} (h : ofFile? fs jobId kind p = some r) :
    idOf r = naturalId r := by
  obtain ⟨n, -, rfl⟩ := Option.map_eq_some_iff.mp h
  rfl

/-- The id of an entry is the first that is free behind those before it. -/
theorem id_of_separateIds (hr : ∀ r ∈ rs, Addressed jobId r) (hn : ∀ r ∈ rs, idOf r = naturalId r)
    (h : separateIds jobId taken rs = before ++ e :: after) :
    idOf e = freeId (before.map idOf ++ taken) (naturalId e) := by
  induction rs generalizing taken before with
  | nil => exact absurd h.symm (by simp [separateIds])
  | cons r rs ih =>
    obtain ⟨hr, hrs⟩ := List.forall_mem_cons.mp hr
    obtain ⟨hnr, hns⟩ := List.forall_mem_cons.mp hn
    rw [separateIds_cons hr] at h
    cases before with
    | nil =>
      obtain ⟨rfl, -⟩ := List.cons.inj h
      exact congrArg (freeId taken) hnr
    | cons b before =>
      rw [List.cons_append] at h
      obtain ⟨rfl, htail⟩ := List.cons.inj h
      refine (ih hrs hns htail).trans (freeId_congr fun s => ?_)
      simp only [List.map_cons, List.mem_append, List.mem_cons]
      have hid : idOf (renamed jobId r (freeId taken (idOf r))) = freeId taken (idOf r) := rfl
      rw [hid]
      tauto

theorem id_of_resolve (h : resolve fs j = before ++ e :: after) :
    idOf e = freeId (before.map idOf) (naturalId e) := by
  have hn : ∀ r ∈ firstByPath [] (candidates fs j), idOf r = naturalId r := by
    intro r hr
    obtain ⟨kind, p, -, hr⟩ := ofFile?_of_mem_candidates ((firstByPath_sublist [] _).subset hr)
    exact naturalId_of_ofFile? hr
  have hid := id_of_separateIds addressed_of_firstByPath hn h
  rwa [List.append_nil] at hid

/-- For a job with an admitted id, the ids of a listing are all different and made of token characters, and each
address is cut into the ids that it was made of. Each id is where numbering ends that starts from the kind and
the name of the artifact, and it is kept unless an earlier entry has it. The entry listed under an id is found
by it, and nothing is found by any other. -/
theorem ids_of_listing (fs : FileSystem) (j : Job) (hid : checkId j.id = .ok ()) :
    ((resolve fs j).map (·.artifact.id)).Nodup ∧
    (∀ e ∈ resolve fs j, Text.isToken e.artifact.id = true ∧
      Path.pieces e.artifact.url = ["", "api", "v1", "jobs", j.id, "artifacts", e.artifact.id]) ∧
    (∀ before e after, resolve fs j = before ++ e :: after →
      (∀ s, Numbers (before.map (·.artifact.id)) (naturalId e) (naturalId e) 2 s ↔
        s = e.artifact.id) ∧
      (e.artifact.id = naturalId e ↔ ∀ e' ∈ before, e'.artifact.id ≠ naturalId e)) ∧
    (∀ e ∈ resolve fs j, locate fs j e.artifact.id = some e) ∧
    (∀ id, (∀ e ∈ resolve fs j, e.artifact.id ≠ id) → locate fs j id = none) := by
  obtain ⟨-, -, -, -, htoken⟩ := checkId_eq_ok_iff.mp hid
  refine ⟨nodup_resolve fs j, fun e he => ?_, fun before e after h => ⟨fun s => ?_, ?_⟩,
    fun e he => locate_eq_some_iff.mpr ⟨he, rfl⟩, fun id h => ?_⟩
  · have hb := backed_of_resolve he
    refine ⟨hb.isToken, ?_⟩
    rw [hb.addressed, Http.Route.pieces_urlOf htoken hb.isToken]
  · rw [show e.artifact.id = freeId (before.map idOf) (naturalId e) from id_of_resolve h]
    exact numbers_iff
  · rw [show e.artifact.id = freeId (before.map idOf) (naturalId e) from id_of_resolve h,
      freeId_eq_self_iff]
    simp [idOf]
  · refine Option.eq_none_iff_forall_ne_some.mpr fun e he => ?_
    obtain ⟨hm, heq⟩ := locate_eq_some_iff.mp he
    exact h e hm heq

/-- Two names with the same token characters, and one that reads like a numbered one. -/
theorem ids_of_listing_of_colliding_names :
    let fs : FileSystem := ⟨[(["archive"], .directory), (["archive", "a_b-2"], .file [120]),
      (["archive", "a_b"], .file [120]), (["archive", "a b"], .file [120])], []⟩
    let j := recording (Dict.empty.insert Metadata.archiveDirKey (.text "archive"))
    checkId j.id = .ok () ∧
      (resolve fs j).map (fun e => (e.artifact.name, e.artifact.id)) =
        [("a b", "archive-a_b"), ("a_b", "archive-a_b-2"), ("a_b-2", "archive-a_b-2-2")] ∧
      ∀ e ∈ resolve fs j, locate fs j e.artifact.id = some e := by
  intro fs j
  have hid : checkId j.id = .ok () := by decide +kernel
  let file (s : String) : Resolved := ⟨.build "j" .archive s 1, "/archive/" ++ s⟩
  have hsorted : inDirectory fs "j" "/archive" = [file "a b", file "a_b", file "a_b-2"] := by
    refine inDirectory_eq_of_perm (l := ["archive"]) (by decide +kernel) (by decide +kernel)
      (by decide +kernel) ?_ (by decide +kernel)
    have hfound : ((fs.namesIn ["archive"]).filterMap fun s =>
        ofFile? fs "j" .archive (Path.join "/archive" s)) =
          [file "a b", file "a_b", file "a_b-2"].reverse := by decide +kernel
    rw [hfound]
    exact List.reverse_perm _
  have hplace : placeOf j Metadata.archiveDirKey = some "/archive" := by decide +kernel
  have hcandidates : candidates fs j = [file "a b", file "a_b", file "a_b-2"] := by
    simp only [candidates, inArchive, hplace]
    rw [show j.id = "j" from rfl, hsorted]
    decide +kernel
  refine ⟨hid, ?_, (ids_of_listing fs j hid).2.2.2.1⟩
  rw [resolve, hcandidates]
  decide +kernel

end JobConsole.Resolved
