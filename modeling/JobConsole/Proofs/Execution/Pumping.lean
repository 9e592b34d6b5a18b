import JobConsole.Proofs.Execution.Lifecycle
import JobConsole.Proofs.Output.Decoding

/-! # Lines that pumps take

Whatever order the chunks of an output, the calls of its decoder and everything else come in, the lines that
a pump has taken are the first ones that the decoder yields for the chunks. They are all of them once the
output has ended and the pump has stopped by itself.
-/

namespace JobConsole

open Output (LineDecoder)

/-! ## What a pump hears -/

namespace Action

def chunk? : Action → Option (List UInt8)
  | read _ chunk => some chunk
  | _ => none

def endsOutput : Action → Bool
  | endOutput _ => true
  | _ => false

def aborts : Action → Bool
  | abort _ => true
  | _ => false

end Action

/-- What a pump hears of its output: the chunks that it reads, whether it comes to the end, and whether it is
cut short after that, before it has taken all that is left. -/
structure Heard where
  chunks : List (List UInt8)
  ended : Bool
  cutShort : Bool

namespace Heard

def nothing : Heard := ⟨[], false, false⟩

def after (o : Heard) (state : PumpState) (a : Action) : Heard :=
  ⟨o.chunks ++ a.chunk?.toList, o.ended || a.endsOutput,
    o.cutShort || (a.aborts && decide (state = .ending))⟩

theorem after_eq_self {a : Action} (o : Heard) (state : PumpState) (hc : a.chunk? = none)
    (he : a.endsOutput = false) (hb : a.aborts = false) : o.after state a = o := by
  simp [after, hc, he, hb]

end Heard

/-- The lines are the first ones of every output that may have been heard, and all of them once the output has
ended, unless the pump was cut short. -/
structure Told (o : Heard) (lines : List String) : Prop where
  isPrefix : ∀ output, o.chunks <+: output → (o.ended = true → output = o.chunks) →
    lines <+: LineDecoder.decodeAll Pump.maxLineBytes output
  whole : o.ended = true → o.cutShort = false →
    lines = LineDecoder.decodeAll Pump.maxLineBytes o.chunks

theorem told_nothing : Told .nothing [] := ⟨fun _ _ _ => List.nil_prefix, nofun⟩

def Change.said (s : Stream) : Option Change → List String
  | some (.log s' line) => if s' = s then [line] else []
  | _ => []

theorem Change.said_none (s : Stream) : Change.said s none = [] := rfl

theorem Change.said_report (s : Stream) (reason : String) :
    Change.said s (some (.report reason)) = [] := rfl

namespace Pump

variable {p p' : Pump} {o : Heard} {lines : List String} {c : Option Change} {a : Action}
  {exited : Bool} {s : Stream}

theorem said_change (p : Pump) (line : Option String) :
    Change.said p.stream (p.change line) = line.toList := by
  cases line with
  | none => rfl
  | some line => exact if_pos rfl

theorem said_of_react_of_ne (hr : p.react exited a = some (c, p')) (hs : p.stream ≠ s) :
    Change.said s c = [] := by
  rcases change_of_react hr with rfl | ⟨line, rfl⟩ | ⟨_, _, _, -, rfl⟩
  · rfl
  · exact if_neg hs
  · rfl

/-- The lines that a pump has taken are those that it has heard, less those that it has still to take. -/
inductive Tells : Pump → Heard → List String → Prop where
  | reading {s : Stream} {d : LineDecoder} {buffer : List UInt8} {chunks : List (List UInt8)}
      {lines : List String}
      (h : (LineDecoder.new maxLineBytes).feed [] chunks = (lines, d, buffer)) :
      Tells ⟨s, d, buffer, .reading⟩ ⟨chunks, false, false⟩ lines
  | decoding {s : Stream} {d : LineDecoder} {buffer : List UInt8} {chunks : List (List UInt8)}
      {lines : List String}
      (h : (LineDecoder.new maxLineBytes).feed [] chunks =
        (lines ++ (d.drain buffer).1, (d.drain buffer).2)) :
      Tells ⟨s, d, buffer, .decoding⟩ ⟨chunks, false, false⟩ lines
  | ending {s : Stream} {d : LineDecoder} {buffer : List UInt8} {chunks : List (List UInt8)}
      {lines : List String}
      (h : LineDecoder.decodeAll maxLineBytes chunks = lines ++ (d.drainAtEnd buffer).1) :
      Tells ⟨s, d, buffer, .ending⟩ ⟨chunks, true, false⟩ lines
  | stopped {s : Stream} {d : LineDecoder} {buffer : List UInt8} {o : Heard} {lines : List String}
      (h : Told o lines) : Tells ⟨s, d, buffer, .stopped⟩ o lines

theorem tells_new (s : Stream) : (Pump.new s).Tells .nothing [] := .reading rfl

theorem told_of_feed {chunks : List (List UInt8)}
    (h : lines <+: ((LineDecoder.new maxLineBytes).feed [] chunks).1) :
    Told ⟨chunks, false, false⟩ lines :=
  ⟨fun _ ho _ => h.trans (LineDecoder.feed_isPrefix_decodeAll ho maxLineBytes), nofun⟩

theorem told_of_decodeAll {chunks : List (List UInt8)} {cut : Bool}
    (h : lines <+: LineDecoder.decodeAll maxLineBytes chunks)
    (hcut : cut = false → lines = LineDecoder.decodeAll maxLineBytes chunks) :
    Told ⟨chunks, true, cut⟩ lines :=
  ⟨fun _ _ ho => ho rfl ▸ h, fun _ hc => hcut hc⟩

theorem Tells.isPrefix (h : p.Tells o lines) {output : List (List UInt8)}
    (ho : o.chunks <+: output) (he : o.ended = true → output = o.chunks) :
    lines <+: LineDecoder.decodeAll maxLineBytes output := by
  cases h with
  | reading h => exact (told_of_feed (h ▸ List.prefix_rfl)).isPrefix output ho nofun
  | decoding h =>
    exact (told_of_feed (h ▸ List.prefix_append ..)).isPrefix output ho nofun
  | ending h => exact he rfl ▸ h ▸ List.prefix_append ..
  | stopped h => exact h.isPrefix output ho he

theorem Tells.told (h : p.Tells o lines) (hs : p.state = .stopped) : Told o lines := by
  cases h with
  | stopped h => exact h
  | _ => cases hs

theorem Tells.take (h : p.Tells o lines) (hs : p.state = .decoding ∨ p.state = .ending) :
    p.take.2.Tells o (lines ++ p.take.1.toList) := by
  cases h with
  | reading | stopped => rcases hs with hs | hs <;> cases hs
  | @decoding s d buffer chunks lines h =>
    simp only [Pump.take]
    split
    next line d' rest hn =>
      rw [LineDecoder.drain_of_some hn] at h
      exact .decoding (by simpa using h)
    next d' rest hn =>
      rw [LineDecoder.drain_of_none hn] at h
      exact .reading (by simpa using h)
  | @ending s d buffer chunks lines h =>
    simp only [Pump.take]
    split
    next line d' rest hn =>
      rw [LineDecoder.drainAtEnd_of_some hn] at h
      exact .ending (by simpa using h)
    next d' rest hn =>
      rw [LineDecoder.drainAtEnd_of_none hn, List.append_nil] at h
      refine .stopped ?_
      rw [Option.toList_none, List.append_nil, ← h]
      exact told_of_decodeAll (h ▸ List.prefix_rfl) fun _ => h ▸ rfl

/-- A pump that is stopped has taken first lines, and it is cut short if more of the output was left. -/
theorem Tells.stop (h : p.Tells o lines) (s : Stream) :
    Tells { p with state := .stopped } (o.after p.state (.abort s)) lines := by
  have hafter : o.after p.state (.abort s) =
      ⟨o.chunks, o.ended, o.cutShort || decide (p.state = .ending)⟩ := by
    simp [Heard.after, Action.chunk?, Action.endsOutput, Action.aborts]
  rw [hafter]
  cases h with
  | reading h => exact .stopped (told_of_feed (h ▸ List.prefix_rfl))
  | decoding h => exact .stopped (told_of_feed (h ▸ List.prefix_append ..))
  | ending h => exact .stopped (told_of_decodeAll (h ▸ List.prefix_append ..) nofun)
  | @stopped _ _ _ o _ h => exact .stopped (by simpa using h)

theorem take_of_react (hr : p.react exited (.pump s) = some (c, p')) :
    (p.state = .decoding ∨ p.state = .ending) ∧ p.change p.take.1 = c ∧ p.take.2 = p' := by
  unfold Pump.react at hr
  split at hr <;> simp_all

theorem stop_of_react (hr : p.react exited (.abort s) = some (c, p')) :
    c = none ∧ p' = { p with state := .stopped } := by
  simp only [Pump.react] at hr
  split at hr
  · cases hr
    exact ⟨rfl, rfl⟩
  · cases hr

/-- Every step of a pump keeps its lines in step with what it hears. -/
theorem Tells.react (h : p.Tells o lines) (ha : a.stream? = some s)
    (hr : p.react exited a = some (c, p')) :
    p'.Tells (o.after p.state a) (lines ++ Change.said p.stream c) := by
  cases a with
  | read _ chunk =>
    cases h with
    | reading h =>
      cases hr
      rw [Change.said_none, List.append_nil]
      exact .decoding (LineDecoder.feed_concat h)
    | _ => cases hr
  | endOutput =>
    cases h with
    | @reading _ d buffer chunks lines h =>
      cases hr
      have hafter : Heard.after ⟨chunks, false, false⟩ .reading (.endOutput s) =
          ⟨chunks, true, false⟩ := by
        simp [Heard.after, Action.chunk?, Action.endsOutput, Action.aborts]
      rw [Change.said_none, List.append_nil]
      exact hafter ▸ .ending (by simp only [LineDecoder.decodeAll, h])
    | _ => cases hr
  | failRead s' cause =>
    cases h with
    | reading h =>
      cases hr
      rw [Heard.after_eq_self _ _ rfl rfl rfl, Change.said_report, List.append_nil]
      exact .stopped (told_of_feed (h ▸ List.prefix_rfl))
    | _ => cases hr
  | pump s' =>
    obtain ⟨hs, rfl, rfl⟩ := take_of_react hr
    rw [o.after_eq_self _ rfl rfl rfl, said_change]
    exact h.take hs
  | abort s =>
    obtain ⟨rfl, rfl⟩ := stop_of_react hr
    rw [Change.said_none, List.append_nil]
    exact h.stop s
  | _ => cases ha

theorem stream_take (p : Pump) : p.take.2.stream = p.stream := by
  unfold Pump.take
  split
  · rfl
  · rfl
  · split <;> rfl
  · split <;> rfl

theorem stream_of_react (hr : p.react exited a = some (c, p')) : p'.stream = p.stream := by
  have htake (h : some (p.change p.take.1, p.take.2) = some (c, p')) : p'.stream = p.stream :=
    (Prod.mk.inj (Option.some.inj h)).2 ▸ stream_take p
  unfold Pump.react at hr
  split at hr
  · cases hr
    rfl
  · cases hr
    rfl
  · cases hr
    rfl
  · exact htake hr
  · exact htake hr
  · split at hr
    · cases hr
      rfl
    · cases hr
  · cases hr

end Pump

/-! ## The pumps of a task -/

def Heard.afterStep (o : Heard) (s : Stream) (stage : Stage) (a : Action) : Heard :=
  if a.stream? = some s then ((stage.pump? s).map fun p => o.after p.state a).getD o else o

namespace Stage

variable {stage stage' : Stage} {a : Action} {c : Option Change} {s s' : Stream} {o : Heard}
  {lines : List String} {p p' : Pump}

inductive Steps : Stage → Action → Stage → Option Change → Prop where
  | acquired : Steps .waiting .acquire .ready none
  | left : Steps .finished .leave .gone none
  | reacted {stage stage' : Stage} {a : Action} {c : Option Change}
      (h : Reacts stage a stage' c) : Steps stage a stage' c

/-- The pumps are those of their streams. -/
def Tagged (stage : Stage) : Prop := ∀ s p, stage.pump? s = some p → p.stream = s

/-- The process is still to be launched. -/
def isAhead : Stage → Bool
  | .waiting | .ready => true
  | _ => false

/-- The lines that have been taken of a stream go with what has been heard of it. -/
inductive Tells (s : Stream) : Stage → Heard → List String → Prop where
  | ahead {stage : Stage} (ha : stage.isAhead = true) : Tells s stage .nothing []
  | pumping {stage : Stage} {p : Pump} {o : Heard} {lines : List String}
      (hp : stage.pump? s = some p) (h : p.Tells o lines) : Tells s stage o lines
  | past {stage : Stage} {o : Heard} {lines : List String} (ha : stage.isAhead = false)
      (hp : stage.pump? s = none) (h : Told o lines) : Tells s stage o lines

theorem pump?_setPump (hp : stage.pump? s' = some p) (p' : Pump) (s : Stream) :
    (stage.setPump s' p').pump? s = if s' = s then some p' else stage.pump? s := by
  cases stage with
  | running => cases s' <;> cases s <;> first | rfl | cases hp
  | _ => cases hp

theorem isAhead_of_pump? (hp : stage.pump? s = some p) : stage.isAhead = false := by
  cases stage with
  | running => rfl
  | _ => cases hp

theorem isAhead_setPump (hp : stage.pump? s' = some p) (p' : Pump) :
    (stage.setPump s' p').isAhead = false := by
  cases stage with
  | running => cases s' <;> rfl
  | _ => cases hp

theorem Tagged.step (h : stage.Tagged) (hs : Steps stage a stage' c) : stage'.Tagged := by
  intro s q hq
  cases hs with
  | acquired | left => cases hq
  | reacted hr =>
    cases hr with
    | refused | reported | failed | ended | givenUp => cases hq
    | launched => cases s <;> cases hq <;> rfl
    | @pumped _ _ _ _ _ _ s' _ _ hp hr =>
      rw [pump?_setPump hp] at hq
      split at hq
      next hs =>
        cases hq
        exact (Pump.stream_of_react hr).trans (hs ▸ h _ _ hp)
      · exact h s q hq
    | exited | lost => exact h s q (by cases s <;> exact hq)

theorem Tells.eq_nothing (h : Tells s stage o lines) (ha : stage.isAhead = true) :
    o = .nothing ∧ lines = [] := by
  cases h with
  | ahead => exact ⟨rfl, rfl⟩
  | pumping hp => cases ha.symm.trans (isAhead_of_pump? hp)
  | past ha' => cases ha.symm.trans ha'

theorem Tells.pump (h : Tells s stage o lines) (hp : stage.pump? s = some p) : p.Tells o lines := by
  cases h with
  | ahead ha => cases ha.symm.trans (isAhead_of_pump? hp)
  | pumping hq h => exact Option.some.inj (hq.symm.trans hp) ▸ h
  | past _ hn => cases hn.symm.trans hp

theorem Tells.told (h : Tells s stage o lines) (hp : stage.pump? s = none) : Told o lines := by
  cases h with
  | ahead => exact told_nothing
  | pumping hq => cases hq.symm.trans hp
  | past _ _ h => exact h

theorem Tells.isPrefix (h : Tells s stage o lines) {output : List (List UInt8)}
    (ho : o.chunks <+: output) (he : o.ended = true → output = o.chunks) :
    lines <+: LineDecoder.decodeAll Pump.maxLineBytes output := by
  cases h with
  | ahead => exact List.nil_prefix
  | pumping _ h => exact h.isPrefix ho he
  | past _ _ h => exact h.isPrefix output ho he

/-- Nothing is heard or said of a stream where a step is none of its pump. -/
theorem Tells.quietly (h : Tells s stage' o lines) (ha : a.stream? ≠ some s)
    (hc : Change.said s c = []) :
    Tells s stage' (o.afterStep s stage a) (lines ++ Change.said s c) := by
  rw [Heard.afterStep, if_neg ha, hc, List.append_nil]
  exact h

theorem Tells.told_of_stopped {out err : Pump} {exit : Option WaitResult}
    (h : Tells s (.running out err exit) o lines) (ho : out.state = .stopped)
    (he : err.state = .stopped) : Told o lines := by
  cases s with
  | stdout => exact (h.pump rfl).told ho
  | stderr => exact (h.pump rfl).told he
  | error => exact h.told rfl

theorem Tells.setExit {out err : Pump} {exit : Option WaitResult}
    (h : Tells s (.running out err exit) o lines) (exit' : Option WaitResult) :
    Tells s (.running out err exit') o lines := by
  cases h with
  | ahead ha => cases ha
  | pumping hp h => exact .pumping (by cases s <;> exact hp) h
  | past _ hp h => exact .past rfl (by cases s <;> exact hp) h

/-- A step of a task keeps its lines in step with what is heard. -/
theorem Tells.step (h : Tells s stage o lines) (ht : stage.Tagged) (hs : Steps stage a stage' c) :
    Tells s stage' (o.afterStep s stage a) (lines ++ Change.said s c) := by
  cases hs with
  | acquired =>
    obtain ⟨rfl, rfl⟩ := h.eq_nothing rfl
    exact Tells.quietly (.ahead rfl) nofun rfl
  | left => exact Tells.quietly (.past rfl rfl (h.told rfl)) nofun rfl
  | reacted hr =>
    cases hr with
    | refused | reported | failed =>
      exact Tells.quietly (.past rfl rfl (h.told rfl)) nofun rfl
    | launched =>
      obtain ⟨rfl, rfl⟩ := h.eq_nothing rfl
      refine Tells.quietly ?_ nofun rfl
      cases s with
      | stdout | stderr => exact .pumping rfl (Pump.tells_new _)
      | error => exact .past rfl rfl told_nothing
    | @pumped _ _ p p' _ _ s' _ ha hp hr =>
      obtain rfl := ht s' p hp
      have hp' := pump?_setPump hp p' s
      by_cases hs : p.stream = s
      · subst hs
        rw [if_pos rfl] at hp'
        rw [Heard.afterStep, if_pos ha, hp]
        exact .pumping hp' ((h.pump hp).react ha hr)
      · rw [if_neg hs] at hp'
        refine Tells.quietly ?_ (by simpa [ha] using hs) (Pump.said_of_react_of_ne hr hs)
        cases h with
        | ahead ha => cases ha
        | pumping hq h => exact .pumping (hp'.trans hq) h
        | past _ hn h => exact .past (isAhead_setPump hp p') (hp'.trans hn) h
    | exited | lost => exact (h.setExit _).quietly nofun rfl
    | ended ho he | givenUp ho he =>
      exact Tells.quietly (.past rfl rfl (h.told_of_stopped ho he)) nofun rfl

end Stage

end JobConsole
