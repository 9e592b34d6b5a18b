import JobConsole.Proofs.Registry.Submission

/-! # The listing of jobs

Jobs are kept in the order in which they were submitted, each with the moment of its submission, whatever
happens afterwards. The listing orders them by these moments, newest first, and leaves jobs of one moment in
the reverse order of submission. The clock may repeat a moment or go back.
-/

namespace JobConsole.Registry

variable {r r₀ : Registry} {c : JobsConfig} {o : Timed} {os : List Timed}

/-! ## Submissions along a run -/

def entering (r : Registry) (o : Timed) : List (String × Timestamp) :=
  match o.op with
  | .submit command options fresh =>
    match r.submit command options fresh o.now with
    | .ok (j, _) => [(j.id, o.now)]
    | .error _ => []
  | _ => []

def entered (r : Registry) : List Timed → List (String × Timestamp)
  | [] => []
  | o :: os => r.entering o ++ (r.apply o.now o.op).entered os

def moments (r : Registry) : List (String × Timestamp) := r.jobs.map fun j => (j.id, j.createdAt)

theorem moments_eq_map_admitted (r : Registry) :
    r.moments = r.admitted.map fun t => (t.id, t.createdAt) := by
  simp [moments, admitted, Job.terms]

theorem entering_eq_nil (h : (r.apply o.now o.op).admitted = r.admitted) : r.entering o = [] := by
  unfold entering
  split
  next command options fresh hop =>
    split
    next j r' hs =>
      obtain ⟨id, -, -, -, he⟩ := chooseId_of_submit hs
      have hr : r.apply o.now o.op = (r.enroll id command options o.now).2 := by
        rw [hop, apply, hs]
        exact congrArg Prod.snd he
      rw [hr, terms_enroll] at h
      simp at h
    · rfl
  · rfl

/-- An operation appends what it enters, and keeps all other ids and moments. -/
theorem moments_apply (hp : r.Paired) (o : Timed) :
    (r.apply o.now o.op).moments = r.moments ++ r.entering o := by
  rcases (effect r o.now o.op).admits hp with
    ⟨ha, -⟩ | ⟨id, command, options, fresh, hop, hc, hi, hn, hr, -⟩
  · rw [entering_eq_nil ha, List.append_nil, moments_eq_map_admitted, ha, moments_eq_map_admitted]
  · have hs : r.submit command options fresh o.now = .ok (r.enroll id command options o.now) :=
      submit_eq_ok hc hi hn
    rw [hr]
    simp only [entering, hop, hs]
    exact List.map_append

theorem moments_runAll (hp : r.Paired) (os : List Timed) :
    (r.runAll os).moments = r.moments ++ r.entered os := by
  induction os generalizing r with
  | nil => exact (List.append_nil _).symm
  | cons o os ih =>
    rw [runAll, ih ((effect r o.now o.op).paired hp), moments_apply hp, entered, List.append_assoc]

theorem moments_entered_sublist (r : Registry) (os : List Timed) :
    ((r.entered os).map Prod.snd).Sublist (os.map Timed.now) := by
  induction os generalizing r with
  | nil => exact .slnil
  | cons o os ih =>
    have hone : ((r.entering o).map Prod.snd).Sublist [o.now] := by
      unfold entering
      split
      · split
        · exact .refl _
        · exact List.nil_sublist _
      · exact List.nil_sublist _
    rw [entered, List.map_append, List.map_cons, ← List.singleton_append]
    exact hone.append (ih _)

/-! ## Sorting by moments -/

/-- Whether a job may stand before another one in a listing. -/
def precedes (j k : Job) : Bool := decide (k.createdAt.rank ≤ j.createdAt.rank)

theorem list_eq (r : Registry) : r.list = r.jobs.reverse.mergeSort precedes := rfl

theorem precedes_trans (i j k : Job) (hij : precedes i j = true) (hjk : precedes j k = true) :
    precedes i k = true := by
  simp only [precedes, decide_eq_true_eq] at hij hjk ⊢
  exact hjk.trans hij

theorem precedes_total (j k : Job) : (precedes j k || precedes k j) = true := by
  simpa [precedes] using Int.le_total ..

theorem list_perm (r : Registry) : r.list.Perm r.jobs :=
  (List.mergeSort_perm _ _).trans (List.reverse_perm _)

theorem pairwise_list (r : Registry) :
    r.list.Pairwise fun j k => k.createdAt.rank ≤ j.createdAt.rank := by
  rw [list_eq]
  exact (List.pairwise_mergeSort precedes_trans precedes_total _).imp of_decide_eq_true

/-- Jobs of one moment are listed in the reverse order of submission. -/
theorem filter_list (r : Registry) (moment : Int) :
    r.list.filter (·.createdAt.rank = moment) =
      (r.jobs.filter (·.createdAt.rank = moment)).reverse := by
  rw [← List.filter_reverse]
  let tied := r.jobs.reverse.filter (·.createdAt.rank = moment)
  have htied : ∀ j ∈ tied, j.createdAt.rank = moment := fun j hj => by
    simpa using List.of_mem_filter hj
  have hpairwise : tied.Pairwise fun j k => precedes j k = true :=
    List.pairwise_of_forall_mem_list fun j hj k hk =>
      decide_eq_true (Int.le_of_eq ((htied k hk).trans (htied j hj).symm))
  have hsublist : tied.Sublist r.list :=
    List.sublist_mergeSort precedes_trans precedes_total hpairwise List.filter_sublist
  -- The sort keeps the order of the tied jobs, and all of them are in the listing.
  have hkept : tied.Sublist (r.list.filter (·.createdAt.rank = moment)) := by
    have := hsublist.filter (·.createdAt.rank = moment)
    rwa [List.filter_eq_self.mpr fun j hj => decide_eq_true (htied j hj)] at this
  have hperm := ((list_perm r).trans (List.reverse_perm r.jobs).symm).filter
    (·.createdAt.rank = moment)
  exact (hkept.eq_of_length hperm.length_eq.symm).symm

theorem list_of_pairwise (h : r.jobs.Pairwise fun j k => j.createdAt.rank ≤ k.createdAt.rank) :
    r.list = r.jobs.reverse := by
  rw [list_eq]
  exact List.mergeSort_of_pairwise (List.pairwise_reverse.mpr (h.imp decide_eq_true))

/-! ## The listing of a run -/

/-- Whatever has happened, the registry holds the jobs that were submitted, each once, in this order and with
the moments of their submissions, which are readings of the clock. The listing holds each of them once. Of two
jobs the newer comes first, and jobs of one moment come in the reverse order of submission; so where the clock
did not go back the listing is the reverse of the submissions. -/
theorem newest_listed_first (h : Registry.new c = some r₀) (os : List Timed) :
    let r := r₀.runAll os
    let entered := r₀.entered os
    r.jobs.map (fun j => (j.id, j.createdAt)) = entered ∧
      (entered.map Prod.snd).Sublist (os.map Timed.now) ∧
      r.list.Perm r.jobs ∧ (r.list.map Job.id).Nodup ∧
      r.list.Pairwise (fun j k => k.createdAt.rank ≤ j.createdAt.rank) ∧
      (∀ moment, r.list.filter (·.createdAt.rank = moment) =
        (r.jobs.filter (·.createdAt.rank = moment)).reverse) ∧
      (entered.Pairwise (fun x y => x.2.rank ≤ y.2.rank) →
        r.list = r.jobs.reverse ∧ r.list.map Job.id = (entered.map Prod.fst).reverse) := by
  intro r entered
  have hp : r.Paired := (paired_new h).runAll os
  have hjobs : r.jobs.map (fun j => (j.id, j.createdAt)) = entered := by
    have := moments_runAll (paired_new h) os
    rwa [moments, moments, jobs_new h, List.map_nil, List.nil_append] at this
  refine ⟨hjobs, moments_entered_sublist r₀ os, list_perm r, ?_, pairwise_list r, filter_list r,
    fun hclock => ?_⟩
  · exact ((list_perm r).map Job.id).nodup_iff.mpr hp.nodup
  · have hlist : r.list = r.jobs.reverse := by
      rw [← hjobs, List.pairwise_map] at hclock
      exact list_of_pairwise hclock
    refine ⟨hlist, ?_⟩
    rw [hlist, ← hjobs, List.map_reverse, List.map_map]
    rfl

/-- The clock goes back before the second submission, and shows the third the moment of the first. -/
theorem newest_listed_first_of_clock_set_back :
    let submission (id : String) (hour : Nat) : Timed :=
      ⟨⟨Date.epoch, hour, 0, 0, 0⟩, .submit ["true"] { JobOptions.none with id := some id } ""⟩
    let os := [submission "b" 11, submission "c" 12]
    let noon : Timestamp := ⟨Date.epoch, 12, 0, 0, 0⟩
    ∃ r₀, Registry.new ⟨1, 1, 8, "/", "", ""⟩ = some r₀ ∧
      (r₀.entered os).Pairwise (fun x y => x.2.rank ≤ y.2.rank) ∧
      (r₀.runAll os).list.map Job.id = ["c", "b"] ∧
      (r₀.runAll (submission "a" 12 :: os)).jobs.map Job.id = ["a", "b", "c"] ∧
      ((r₀.runAll (submission "a" 12 :: os)).list.filter
        (·.createdAt.rank = noon.rank)).map Job.id = ["c", "a"] := by
  intro submission os noon
  obtain ⟨r₀, h⟩ : ∃ r₀, Registry.new ⟨1, 1, 8, "/", "", ""⟩ = some r₀ := ⟨_, rfl⟩
  obtain ⟨-, -, -, -, -, -, hreverse⟩ := newest_listed_first h os
  obtain ⟨-, -, -, -, -, hfilter, -⟩ := newest_listed_first h (submission "a" 12 :: os)
  have hclock : (r₀.entered os).Pairwise fun x y => x.2.rank ≤ y.2.rank := by
    cases h
    decide +kernel
  refine ⟨r₀, h, hclock, ?_, ?_, ?_⟩
  · rw [(hreverse hclock).2]
    cases h
    decide +kernel
  · cases h
    decide +kernel
  · rw [hfilter]
    cases h
    decide +kernel

end JobConsole.Registry
