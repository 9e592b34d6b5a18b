import JobConsole.Proofs.Execution.Slots
import JobConsole.Proofs.Text.Ascii

/-! # Ids of jobs

A job stays where it was entered and keeps its id. An id that a submission asks for is checked, and a
fresh one would pass the check, so every job has an id that consists of token characters.
-/

namespace JobConsole

/-! ## Fresh ids -/

def isHexDigit (c : Char) : Bool := c.isDigit || ('a' ≤ c && c ≤ 'f')

def uuidShape : List Char := "00000000-0000-0000-0000-000000000000".toList

/-- Whether a text is a UUID: five groups of hexadecimal digits, joined by hyphens. -/
def isUuid (s : String) : Bool :=
  s.toList.map (fun c => if isHexDigit c then '0' else c) = uuidShape

theorem shape_of_isUuid {s : String} (h : isUuid s = true) :
    s.toList.map (fun c => if isHexDigit c then '0' else c) = uuidShape :=
  of_decide_eq_true h

theorem isTokenChar_of_isHexDigit {c : Char} (h : isHexDigit c = true) :
    Text.isTokenChar c = true := by
  simp only [isHexDigit, Bool.or_eq_true, Bool.and_eq_true, decide_eq_true_eq] at h
  rcases h with h | ⟨ha, hf⟩
  · exact Text.isTokenChar_of_isDigit h
  · have hz : c.val ≤ 'z'.val := UInt32.le_trans hf (by decide)
    exact Text.isTokenChar_of_isLower (Bool.and_eq_true_iff.mpr ⟨decide_eq_true ha, decide_eq_true hz⟩)

theorem isToken_of_isUuid {s : String} (h : isUuid s = true) : Text.isToken s = true := by
  have hshape : uuidShape.all (fun c => c = '0' || c = '-') = true := by decide
  refine List.all_eq_true.mpr fun c hc => ?_
  by_cases hx : isHexDigit c = true
  · exact isTokenChar_of_isHexDigit hx
  · have hm : c ∈ s.toList.map (fun c => if isHexDigit c then '0' else c) :=
      List.mem_map.mpr ⟨c, hc, if_neg hx⟩
    rw [shape_of_isUuid h] at hm
    have hc := List.all_eq_true.mp hshape c hm
    simp only [Bool.or_eq_true, decide_eq_true_eq] at hc
    rcases hc with rfl | rfl
    · exact absurd (by decide) hx
    · decide

theorem checkId_of_isUuid {s : String} (h : isUuid s = true) : checkId s = .ok () := by
  have ht := isToken_of_isUuid h
  have hlen : s.toList.length = 36 := by
    rw [← List.length_map, shape_of_isUuid h]
    rfl
  have hsize : s.utf8ByteSize = 36 := by
    rw [Text.utf8ByteSize_of_isToken ht, hlen]
  have hne (t : String) (htl : t.toList.length ≠ 36) : s ≠ t := fun he => htl (he ▸ hlen)
  rw [checkId_eq_ok_iff, hsize]
  exact ⟨hne _ (by decide), by decide, hne _ (by decide), hne _ (by decide), ht⟩

def Operation.fresh : Operation → Option String
  | .submit _ _ fresh => some fresh
  | _ => none

namespace Registry

/-- Operations lead from one registry to the other, and no fresh id is used in them but these. -/
def Leads (ids : List String) (r r' : Registry) : Prop :=
  ∃ os, r' = r.runAll os ∧ ∀ o ∈ os, ∀ id, o.op.fresh = some id → id ∈ ids

variable {r r' r'' : Registry} {ids ids' : List String} {now : Timestamp} {o : Operation}
  {as : List Bus.Act}

theorem Leads.refl (ids : List String) (r : Registry) : Leads ids r r :=
  ⟨[], rfl, List.forall_mem_nil _⟩

theorem Leads.trans (h : Leads ids r r') (h' : Leads ids r' r'') : Leads ids r r'' := by
  obtain ⟨os, rfl, ho⟩ := h
  obtain ⟨os', rfl, ho'⟩ := h'
  refine ⟨os ++ os', (runAll_append r os os').symm, fun o hm => ?_⟩
  exact (List.mem_append.mp hm).elim (ho o) (ho' o)

theorem Leads.mono (h : Leads ids r r') (hi : ids ⊆ ids') : Leads ids' r r' := by
  obtain ⟨os, hr, ho⟩ := h
  exact ⟨os, hr, fun o hm id hid => hi (ho o hm id hid)⟩

theorem leads_apply (r : Registry) (now : Timestamp) (o : Operation) :
    Leads o.fresh.toList r (r.apply now o) :=
  ⟨[⟨now, o⟩], rfl, by simp [Option.mem_toList]⟩

theorem leads_of_apply (now : Timestamp) (o : Operation) (ho : o.fresh = none)
    (h : r.apply now o = r') : Leads ids r r' := by
  have hl := leads_apply r now o
  rw [ho, h] at hl
  exact hl.mono (List.nil_subset ids)

theorem Leads.wellFormed (h : Leads ids r r') (hb : r.bus.WellFormed) : r'.bus.WellFormed := by
  obtain ⟨os, rfl, -⟩ := h
  rw [bus_runAll]
  exact hb.acts _

/-! ## The ids of jobs -/

def jobIds (r : Registry) : List String := r.jobs.map Job.id

theorem of_chooseId {options : JobOptions} {fresh id : String}
    (h : chooseId options fresh = .ok id) : checkId id = .ok () ∨ id = fresh := by
  unfold chooseId at h
  split at h
  · exact .inr (Except.ok.inj h).symm
  · split at h
    · cases h
    next hc => exact .inl (Except.ok.inj h ▸ hc)

theorem Effect.jobIds_eq (h : Effect r now o r' as) :
    ∃ added, r'.jobIds = r.jobIds ++ added ∧
      ∀ id ∈ added, checkId id = .ok () ∨ o.fresh = some id := by
  have same (he : r'.jobIds = r.jobIds) : ∃ added, r'.jobIds = r.jobIds ++ added ∧
      ∀ id ∈ added, checkId id = .ok () ∨ o.fresh = some id :=
    ⟨[], he.trans (List.append_nil _).symm, List.forall_mem_nil _⟩
  cases h with
  | @submitted command options fresh id hc hi hnone =>
    refine ⟨[id], by rw [jobIds, enroll, List.map_append]; rfl, fun k hk => ?_⟩
    obtain rfl := List.mem_singleton.mp hk
    exact (of_chooseId hi).imp_right fun he => congrArg some he.symm
  | merged _ | announced _ => exact same (ids_setJob r _)
  | @changed id c => exact same (ids_changeIf r id (some c) now)
  | left _ _ => exact same (congrArg (·.jobs.map Job.id) (release_eq r _))
  | @moved id a t stage c _ _ => exact same (ids_changeIf r id c now)
  | _ => exact same rfl

/-- Whatever happens, jobs stay, and the ids of new ones have been checked or were fresh. -/
theorem Leads.jobIds_eq (h : Leads ids r r') :
    ∃ added, r'.jobIds = r.jobIds ++ added ∧ ∀ id ∈ added, checkId id = .ok () ∨ id ∈ ids := by
  obtain ⟨os, rfl, hf⟩ := h
  induction os generalizing r with
  | nil => exact ⟨[], (List.append_nil _).symm, List.forall_mem_nil _⟩
  | cons o os ih =>
    obtain ⟨ho, hos⟩ := List.forall_mem_cons.mp hf
    obtain ⟨added, he, ha⟩ := (effect r o.now o.op).jobIds_eq
    obtain ⟨added', he', ha'⟩ := ih (r := r.apply o.now o.op) hos
    refine ⟨added ++ added', by rw [runAll, he', he, List.append_assoc], fun id hid => ?_⟩
    rcases List.mem_append.mp hid with hid | hid
    · exact (ha id hid).imp_right (ho id)
    · exact ha' id hid

theorem Leads.paired (h : Leads ids r r') (hp : r.Paired) : r'.Paired := by
  obtain ⟨os, rfl, -⟩ := h
  exact hp.runAll os

theorem mem_jobs_of_submit {command : List String} {options : JobOptions} {fresh : String} {j : Job}
    (h : r.submit command options fresh now = .ok (j, r')) : j ∈ r'.jobs := by
  obtain ⟨id, -, -, -, he⟩ := chooseId_of_submit h
  obtain ⟨rfl, rfl⟩ := Prod.mk.inj he
  exact List.mem_append_right _ (List.mem_singleton_self _)

end Registry

end JobConsole
