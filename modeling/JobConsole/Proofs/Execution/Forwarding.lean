import JobConsole.Proofs.Execution.Pumping
import JobConsole.Proofs.Job.Log

/-! # Output on its way into the log

However the two pumps of a job and everything else interleave, the lines logged for an output stream are the
first ones that the decoder yields for what was read of it, each with one event and one entry of the log. The
log holds the newest of the entries that the events of the job tell of, as many as fit.
-/

namespace JobConsole

open Output (LineDecoder)

/-! ## What events tell -/

namespace Event

def line? (s : Stream) (e : Event) : Option String :=
  match e.payload with
  | .log entry => if entry.stream = s then some entry.message else none
  | _ => none

def logged? (e : Event) : Option LogEntry :=
  match e.payload with
  | .log entry => some entry
  | .error message => some ⟨.error, message, e.timestamp⟩
  | _ => none

variable {e : Event}

theorem line?_of_isSide (h : e.isSide = true) (s : Stream) : e.line? s = none := by
  unfold isSide at h
  unfold line?
  split at h <;> simp_all

theorem logged?_of_isSide (h : e.isSide = true) : e.logged? = none := by
  unfold isSide at h
  unfold logged?
  split at h <;> simp_all

end Event

def linesOn (s : Stream) (es : List Event) : List String := es.filterMap (Event.line? s)

theorem linesOn_append (s : Stream) (es es' : List Event) :
    linesOn s (es ++ es') = linesOn s es ++ linesOn s es' :=
  List.filterMap_append

theorem linesOn_of_side {es : List Event} (h : ∀ e ∈ es, e.isSide = true) (s : Stream) :
    linesOn s es = [] :=
  List.filterMap_eq_nil_iff.mpr fun e he => e.line?_of_isSide (h e he) s

theorem linesOn_changed {j j' : Job} {now : Timestamp} {c : Change} {p : Payload}
    (h : Changed j now c j' p) (id : String) (s : Stream) :
    linesOn s [⟨id, now, p⟩] = Change.said s (some c) := by
  cases h with
  | @logged stream line => by_cases hs : stream = s <;> simp [linesOn, Event.line?, Change.said, hs]
  | _ => rfl

theorem Task.isAhead_new (id : String) (slot : Slot) :
    (Task.new id slot).stage.isAhead = true := by
  unfold Task.new
  split <;> rfl

theorem Stage.pump?_of_isOver {stage : Stage} (h : stage.isOver = true) (s : Stream) :
    stage.pump? s = none := by
  cases stage with
  | running => cases h
  | _ => rfl

namespace Registry

variable {r r' : Registry} {id : String} {j : Job} {t : Task} {now : Timestamp} {o : Timed}
  {os : List Timed} {a : Action} {s : Stream}

/-! ## Steps of one task -/

/-- The step that the task of a job takes, if it takes one, with the stage in which it takes it. -/
def stepOf (r : Registry) (id : String) (o : Timed) : List (Stage × Action) :=
  match o.op with
  | .step i a =>
    if i = id ∧ (r.step i a o.now).isSome then ((r.task? i).map fun t => (t.stage, a)).toList
    else []
  | _ => []

def stepsOf (r : Registry) (id : String) : List Timed → List (Stage × Action)
  | [] => []
  | o :: os => r.stepOf id o ++ (r.apply o.now o.op).stepsOf id os

def heard (r : Registry) (id : String) (s : Stream) (os : List Timed) : Heard :=
  (r.stepsOf id os).foldl (fun o x => o.afterStep s x.1 x.2) .nothing

theorem heard_error (r : Registry) (id : String) (os : List Timed) :
    r.heard id .error os = .nothing := by
  have hnone (stage : Stage) : stage.pump? .error = none := by cases stage <;> rfl
  simp only [heard, Heard.afterStep, hnone, Option.map_none, Option.getD_none, ite_self,
    List.foldl_fixed]

theorem stepsOf_append (r : Registry) (id : String) (os os' : List Timed) :
    r.stepsOf id (os ++ os') = r.stepsOf id os ++ (r.runAll os).stepsOf id os' := by
  induction os generalizing r with
  | nil => rfl
  | cons o os ih => rw [List.cons_append, stepsOf, ih, stepsOf, List.append_assoc, runAll]

theorem stepOf_of_lacks (h : r.Lacks id) : r.stepOf id o = [] := by
  unfold stepOf
  split
  · split
    next hi => rw [hi.1, h.2]; rfl
    · rfl
  · rfl

/-- A step is refused, or the task takes it and changes its job as the stage says. -/
theorem step_cases (hj : r.get? id = some j) (ht : r.task? id = some t) (a : Action)
    (now : Timestamp) :
    (r.step id a now = none ∧ r.changeOfStep id a = none) ∨
      ∃ stage c r' slot, r.step id a now = some r' ∧ r.changeOfStep id a = c ∧
        t.stage.Steps a stage c ∧ r'.task? id = some ⟨t.jobId, slot, stage⟩ := by
  obtain rfl := jobId_of_task? ht
  have hspec : r.launchSpec? t.jobId = some ⟨j.command, j.cwd, j.env⟩ := by rw [launchSpec?, hj]; rfl
  simp only [step, changeOfStep, ht, stepTask, hspec]
  split
  next hs =>
    rw [hs]
    split
    next n hf => exact .inr ⟨.ready, none, _, .held, rfl, rfl, .acquired, task?_setTask_self ht rfl⟩
    next => exact .inl ⟨rfl, rfl⟩
  next hs =>
    rw [hs]
    refine .inr ⟨.gone, none, _, t.slot.afterEnd, rfl, rfl, .left, ?_⟩
    rw [release_eq]
    exact task?_setTask_self (by exact ht) rfl
  next =>
    split
    next stage c hs =>
      refine .inr ⟨stage, c, _, t.slot, rfl, by rw [hs]; rfl, ?_, ?_⟩
      · exact .reacted (Stage.reacts_of_react hs)
      · exact task?_changeIf_setStage ht
    next hs => exact .inl ⟨rfl, by rw [hs]; rfl⟩

theorem stepOf_cases (hj : r.get? id = some j) (ht : r.task? id = some t)
    (ho : o.op.isDirect = false) :
    (r.stepOf id o = [] ∧ (r.apply o.now o.op).task? id = some t ∧
        ∀ e ∈ eventsOf id (r.busActs o.now o.op), e.isSide = true) ∨
      ∃ a stage c slot, r.stepOf id o = [(t.stage, a)] ∧ t.stage.Steps a stage c ∧
        (r.apply o.now o.op).task? id = some ⟨t.jobId, slot, stage⟩ ∧
        r.busActs o.now o.op = publishing (c.bind (r.announcement id · o.now)) := by
  obtain ⟨now, op⟩ := o
  by_cases hstep : ∃ a, op = .step id a
  · obtain ⟨a, rfl⟩ := hstep
    simp only [stepOf, apply, busActs]
    rcases step_cases hj ht a now with ⟨hr, hc⟩ | ⟨stage, c, r', slot, hr, hc, hs, ht'⟩
    · refine .inl ⟨by simp [hr], by rw [hr]; exact ht, ?_⟩
      rw [hc]
      exact List.forall_mem_nil _
    · refine .inr ⟨a, stage, c, slot, by simp [hr, ht], hs, by rw [hr]; exact ht', by rw [hc]⟩
  · have hnone : r.stepOf id ⟨now, op⟩ = [] := by
      cases op with
      | step i a =>
        refine if_neg fun h => hstep ⟨a, by rw [h.1]⟩
      | _ => rfl
    obtain ⟨-, -, ht', hes⟩ := (effect r now op).rests ho (fun a ha => hstep ⟨a, ha⟩) hj ht
    exact .inl ⟨hnone, ht', hes⟩

theorem linesOn_publishing (hj : r.get? id = some j) (c : Option Change) (now : Timestamp)
    (s : Stream) :
    linesOn s (eventsOf id (publishing (c.bind (r.announcement id · now)))) = Change.said s c := by
  cases c with
  | none => rfl
  | some c =>
    rcases change_cases r id c now with ⟨-, ha, hf⟩ | ⟨k, j', p, hk, hc, -, ha⟩
    · rw [Option.bind_some, ha]
      -- a line that is logged fits every job
      cases c with
      | log => cases hf j hj
      | _ => rfl
    · rw [Option.bind_some, ha, publishing, eventsOf_publish_self]
      exact linesOn_changed hc id s

/-! ## Runs -/

/-- Along every run, the lines logged for the streams of a job go with what is heard of them. -/
theorem tells_runAll {c : JobsConfig} {r₀ : Registry} (h : Registry.new c = some r₀)
    (hd : ∀ o ∈ os, o.op.isDirect = false) (id : String) :
    ((r₀.runAll os).Lacks id ∧ r₀.published id os = [] ∧ r₀.stepsOf id os = []) ∨
      ∃ j t, (r₀.runAll os).get? id = some j ∧ (r₀.runAll os).task? id = some t ∧
        t.stage.Tagged ∧
        ∀ s, t.stage.Tells s (r₀.heard id s os) (linesOn s (r₀.published id os)) := by
  induction os using List.reverseRecOn with
  | nil => exact .inl ⟨lacks_new h id, rfl, rfl⟩
  | append_singleton os o ih =>
    obtain ⟨hos, ho⟩ := List.forall_mem_append.mp hd
    have ho := List.forall_mem_singleton.mp ho
    have hpublished : r₀.published id (os ++ [o]) =
        r₀.published id os ++ eventsOf id ((r₀.runAll os).busActs o.now o.op) := by
      rw [published_append, published_cons, published_nil, List.append_nil]
    have hsteps : r₀.stepsOf id (os ++ [o]) = r₀.stepsOf id os ++ (r₀.runAll os).stepOf id o := by
      rw [stepsOf_append, stepsOf, stepsOf, List.append_nil]
    rw [runAll_append, hpublished]
    simp only [heard, hsteps, List.foldl_append]
    rcases ih hos with ⟨hn, hes, hs⟩ | ⟨j, t, hj, ht, htag, htells⟩
    · rw [hes, hs, stepOf_of_lacks hn]
      rcases (effect (r₀.runAll os) o.now o.op).enters ho hn with ⟨hn', he'⟩ |
        ⟨command, options, hj, ht, he'⟩
      · exact .inl ⟨hn', he', rfl⟩
      · have hahead := Task.isAhead_new id (r₀.runAll os).takeSlot.1
        refine .inr ⟨_, _, hj, ht, fun s p hp => ?_, fun s => ?_⟩
        · cases hahead.symm.trans (Stage.isAhead_of_pump? hp)
        · rw [he']
          exact .ahead hahead
    · obtain ⟨j', t', hj', ht', -⟩ := (effect (r₀.runAll os) o.now o.op).moves ho hj ht
      rcases stepOf_cases hj ht ho with ⟨hnone, ht'', hes⟩ | ⟨a, stage, c, slot, hstep, hs, ht'', hacts⟩
      · refine .inr ⟨j', t, hj', ht'', htag, fun s => ?_⟩
        rw [hnone, linesOn_append, linesOn_of_side hes, List.append_nil]
        exact htells s
      · refine .inr ⟨j', _, hj', ht'', htag.step hs, fun s => ?_⟩
        rw [hstep, hacts, linesOn_append, linesOn_publishing hj]
        exact (htells s).step htag hs

/-- Along every run, the log of a job holds the entries that its events tell of. -/
theorem log_runAll {c : JobsConfig} {r₀ : Registry} (h : Registry.new c = some r₀)
    (hd : ∀ o ∈ os, o.op.isDirect = false) (hj : (r₀.runAll os).get? id = some j) :
    j.log = ((r₀.published id os).filterMap Event.logged?).foldl Log.push (.new c.logCapacity) := by
  rcases holds_of_moves (P := fun j _ es =>
      j.log = (es.filterMap Event.logged?).foldl Log.push (.new c.logCapacity)) (lacks_new h id)
    (fun past _ _ _ _ => congrArg Log.new (settings_runAll h past).2)
    (by
      intro o _ j t j' t' es es' hlog hm
      rw [List.filterMap_append, List.foldl_append, ← hlog]
      cases hm with
      | rests hes =>
        rw [List.filterMap_eq_nil_iff.mpr fun e he => e.logged?_of_isSide (hes e he)]
        rfl
      | changed _ _ hc =>
        cases hc with
        | finished _ hj => exact hj ▸ rfl
        | _ => rfl
      | _ => rfl)
    hd with ⟨hn, -⟩ | ⟨k, t, hk, -, hlog⟩
  · cases hn.1.symm.trans hj
  · obtain rfl := Option.some.inj (hk.symm.trans hj)
    exact hlog

/-- At every moment of a run, the lines logged for an output stream of a job are the first ones that the decoder
yields for its chunks. They are all of them when the job is said to be finished, if the output has ended and its
pump was not cut short. No line is logged for any other stream, and the log holds the last of the entries that
the events tell of. -/
theorem output_in_order {c : JobsConfig} {r₀ : Registry} (h : Registry.new c = some r₀)
    (os : List Timed) (hd : ∀ o ∈ os, o.op.isDirect = false) (id : String) :
    (∀ s output, (r₀.heard id s os).chunks <+: output →
      ((r₀.heard id s os).ended = true → output = (r₀.heard id s os).chunks) →
        linesOn s (r₀.published id os) <+: LineDecoder.decodeAll Pump.maxLineBytes output) ∧
    (∀ s, (r₀.heard id s os).ended = true → (r₀.heard id s os).cutShort = false →
      (∃ e ∈ r₀.published id os, e.isFinished = true) →
        linesOn s (r₀.published id os) =
          LineDecoder.decodeAll Pump.maxLineBytes (r₀.heard id s os).chunks) ∧
    linesOn .error (r₀.published id os) = [] ∧
    ∀ j, (r₀.runAll os).get? id = some j →
      let entries := (r₀.published id os).filterMap Event.logged?
      j.log.entries = entries.rtake (max c.logCapacity 1) ∧
        j.log.truncated = decide (max c.logCapacity 1 < entries.length) := by
  refine ⟨fun s output ho he => ?_, fun s he hcut hf => ?_, ?_, fun j hj => ?_⟩
  · rcases tells_runAll h hd id with ⟨-, hes, -⟩ | ⟨j, t, -, -, -, htells⟩
    · rw [hes]
      exact List.nil_prefix
    · exact (htells s).isPrefix ho he
  · obtain ⟨e, hm, hf⟩ := hf
    rcases course_runAll h hd id with ⟨-, hes⟩ | ⟨j, t, -, ht, hc⟩
    · rw [hes] at hm
      cases hm
    rcases tells_runAll h hd id with ⟨hn, -⟩ | ⟨j', t', -, ht', -, htells⟩
    · cases hn.2.symm.trans ht
    · obtain rfl := Option.some.inj (ht'.symm.trans ht)
      have hover := (hc.of_finished (mem_course hm hf) (by simpa [Event.isFinished] using hf)).1
      exact ((htells s).told (Stage.pump?_of_isOver hover s)).whole he hcut
  · rcases tells_runAll h hd id with ⟨-, hes, -⟩ | ⟨j, t, -, -, -, htells⟩
    · rw [hes]
      rfl
    · have htold := htells .error
      rw [heard_error] at htold
      have hfirst := htold.isPrefix List.prefix_rfl fun _ => rfl
      exact List.prefix_nil.mp (LineDecoder.decodeAll_nil Pump.maxLineBytes ▸ hfirst)
  · simp only [log_runAll h hd hj, Log.foldl_push]
    exact ⟨trivial, trivial⟩

/-- The end of the one output is seen, and the other one is cut off with a line still to take. -/
theorem output_in_order_of_cut_off :
    let os : List Timed :=
      [⟨default, .submit ["true"] .none "a"⟩, ⟨default, .step "a" (.launch (.ok 7))⟩,
        ⟨default, .step "a" (.read .stdout [97, 10, 98])⟩,
        ⟨default, .step "a" (.read .stderr [120, 10, 121, 10])⟩,
        ⟨default, .step "a" (.pump .stdout)⟩, ⟨default, .step "a" (.pump .stderr)⟩,
        ⟨default, .step "a" (.pump .stdout)⟩, ⟨default, .step "a" (.endOutput .stdout)⟩,
        ⟨default, .step "a" (.exit ⟨some 0, none⟩)⟩, ⟨default, .step "a" (.pump .stdout)⟩,
        ⟨default, .step "a" (.pump .stdout)⟩, ⟨default, .step "a" (.abort .stderr)⟩,
        ⟨default, .step "a" .finish⟩]
    ∃ r₀, Registry.new ⟨1, 1, 2, "/", "", ""⟩ = some r₀ ∧ (∀ o ∈ os, o.op.isDirect = false) ∧
      r₀.heard "a" .stdout os = ⟨[[97, 10, 98]], true, false⟩ ∧
      (∃ e ∈ r₀.published "a" os, e.isFinished = true) ∧
      linesOn .stdout (r₀.published "a" os) =
        LineDecoder.decodeAll Pump.maxLineBytes [[97, 10, 98]] ∧
      linesOn .stderr (r₀.published "a" os) = ["x"] ∧
      ["x"] <+: LineDecoder.decodeAll Pump.maxLineBytes [[120, 10, 121, 10]] := by
  intro os
  have hd : ∀ o ∈ os, o.op.isDirect = false := by simp [os, Operation.isDirect]
  obtain ⟨r₀, h⟩ : ∃ r₀, Registry.new ⟨1, 1, 2, "/", "", ""⟩ = some r₀ := ⟨_, rfl⟩
  obtain ⟨hfirst, hwhole, -⟩ := output_in_order h os hd "a"
  have hout : r₀.heard "a" .stdout os = ⟨[[97, 10, 98]], true, false⟩ := by
    cases h
    rfl
  have herr : r₀.heard "a" .stderr os = ⟨[[120, 10, 121, 10]], false, false⟩ := by
    cases h
    rfl
  have hx : linesOn .stderr (r₀.published "a" os) = ["x"] := by
    cases h
    rfl
  have hfinished : ∃ e ∈ r₀.published "a" os, e.isFinished = true := by
    cases h
    exact ⟨_, List.mem_of_mem_getLast? rfl, rfl⟩
  refine ⟨r₀, h, hd, hout, hfinished, ?_, hx, ?_⟩
  · have hall := hwhole .stdout (by rw [hout]) (by rw [hout]) hfinished
    rwa [hout] at hall
  · have hline := hfirst .stderr _ List.prefix_rfl fun _ => rfl
    rwa [hx, herr] at hline

end Registry

end JobConsole
