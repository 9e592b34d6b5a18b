import JobConsole.Http.Api
import JobConsole.Proofs.Files.Path
import JobConsole.Proofs.Text.Ascii
import Mathlib.Data.List.TakeWhile

/-! # Addresses of jobs

The characters of an id stand for themselves in a path. So the address of a job is cut where it should
be, no escape is found in it, and it leads to the job, unless a fixed name stands in its place.
-/

namespace JobConsole

namespace Http

theorem Percent.octets_of_notMem {bs : List UInt8} (h : percentSign ∉ bs) : octets bs = bs := by
  fun_induction octets bs with
  | case4 => simp at h
  | case5 => simp at h
  | case6 a b c r ha ih => rw [ih (fun hm => h (List.mem_cons_of_mem a hm))]
  | _ => rfl

theorem Percent.decode?_of_isToken {s : String} (h : Text.isToken s = true) : decode? s = some s := by
  have hascii := Text.ascii_of_isToken h
  have hsign : percentSign ∉ Text.Utf8.encode s := by
    rw [Text.Utf8.encode_of_ascii hascii]
    intro hm
    obtain ⟨c, hc, he⟩ := List.mem_map.mp hm
    have hn := Text.Utf8.toNat_octetOf (hascii c hc)
    rw [he] at hn
    have : c = '%' := by
      rw [← Char.ofNat_toNat c, ← hn]
      rfl
    subst this
    exact Text.notMem_of_isToken h (by decide) hc
  rw [decode?, Percent.octets_of_notMem hsign, Text.Utf8.decode?_encode_of_ascii hascii]

end Http

/-! ## The route of an address -/

namespace Http.Route

def fixedNames : List String := ["import", "refine", "contract", "events"]

def addressOf (id : String) : String := "/api/v1/jobs/" ++ id

variable {id a target : String}

/-- The pieces of an address leave no room for a query. -/
theorem pathOf_of_pieces (h : ∀ s ∈ Path.pieces target, Text.isToken s = true) :
    pathOf target = target := by
  have hall : ∀ c ∈ target.toList, (c ≠ '?' && c ≠ '#') = true := by
    intro c hc
    by_cases hsep : c = '/'
    · rw [hsep]
      rfl
    · obtain ⟨s, hs, hcs⟩ := Path.exists_mem_pieces hc hsep
      have htoken := Text.isTokenChar_of_mem (h s hs) hcs
      simp only [Bool.and_eq_true, decide_eq_true_eq]
      constructor <;> rintro rfl <;> cases htoken
  rw [pathOf, List.takeWhile_eq_self_iff.mpr hall, String.ofList_toList]

theorem pieces_addressOf (h : Text.isToken id = true) :
    Path.pieces (addressOf id) = ["", "api", "v1", "jobs", id] := by
  have hroot : Path.pieces "/api/v1/jobs" = ["", "api", "v1", "jobs"] := by decide +kernel
  have hsplit : addressOf id = "/api/v1/jobs" ++ "/" ++ id := rfl
  rw [hsplit, Path.pieces_between, hroot,
    Path.pieces_of_notMem (Text.notMem_of_isToken h (by decide))]
  rfl

theorem ofTarget_of_pieces {rest : List String}
    (hp : Path.pieces target = "" :: "api" :: "v1" :: "jobs" :: rest)
    (h : ∀ s ∈ rest, Text.isToken s = true) : ofTarget target = ofJobPieces rest := by
  have hfront : ∀ s ∈ ["", "api", "v1", "jobs"], Text.isToken s = true := by decide
  have htoken : ∀ s ∈ Path.pieces target, Text.isToken s = true := by
    rw [hp]
    exact List.forall_mem_append.mpr ⟨hfront, h⟩
  rw [ofTarget, pathOf_of_pieces htoken, hp]
  rfl

theorem ofTarget_addressOf (h : Text.isToken id = true) :
    ofTarget (addressOf id) = ofJobPieces [id] :=
  ofTarget_of_pieces (pieces_addressOf h) (List.forall_mem_singleton.mpr h)

theorem ofJobPieces_eq_job_iff (h : id ≠ "") :
    ofJobPieces [id] = some (job id) ↔ id ∉ fixedNames := by
  unfold ofJobPieces
  split <;> simp_all [fixedNames]

/-! ## The routes below a job -/

def artifactsOf (id : String) : String := addressOf id ++ "/" ++ "artifacts"

theorem pieces_artifactsOf (h : Text.isToken id = true) :
    Path.pieces (artifactsOf id) = ["", "api", "v1", "jobs", id, "artifacts"] := by
  rw [artifactsOf, Path.pieces_between, pieces_addressOf h, Path.pieces_of_notMem (by decide)]
  rfl

theorem ofTarget_artifactsOf (h : Text.isToken id = true) (hne : id ≠ "") :
    ofTarget (artifactsOf id) = some (artifacts id) := by
  have htoken : ∀ s ∈ [id, "artifacts"], Text.isToken s = true := by
    simpa [h] using (by decide : Text.isToken "artifacts" = true)
  rw [ofTarget_of_pieces (pieces_artifactsOf h) htoken]
  simp [ofJobPieces, hne]

theorem pieces_urlOf (h : Text.isToken id = true) (ha : Text.isToken a = true) :
    Path.pieces (Artifact.urlOf id a) = ["", "api", "v1", "jobs", id, "artifacts", a] := by
  have hurl : Artifact.urlOf id a = artifactsOf id ++ "/" ++ a := by
    simp only [Artifact.urlOf, artifactsOf, addressOf, String.append_assoc]
    rfl
  rw [hurl, Path.pieces_between, pieces_artifactsOf h,
    Path.pieces_of_notMem (Text.notMem_of_isToken ha (by decide))]
  rfl

theorem ofTarget_urlOf (h : Text.isToken id = true) (hne : id ≠ "") (ha : Text.isToken a = true)
    (hane : a ≠ "") : ofTarget (Artifact.urlOf id a) = some (artifact id a) := by
  have htoken : ∀ s ∈ [id, "artifacts", a], Text.isToken s = true := by
    simpa [h, ha] using (by decide : Text.isToken "artifacts" = true)
  rw [ofTarget_of_pieces (pieces_urlOf h ha) htoken]
  simp [ofJobPieces, hne, hane]

end Http.Route

end JobConsole
