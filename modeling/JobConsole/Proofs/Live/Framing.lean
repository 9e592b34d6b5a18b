import JobConsole.Live.EventStream
import JobConsole.Proofs.Json.Printing

/-! # Reading event streams

An event stream is read line by line, as the standard has it: a line ends with a line feed, a carriage
return or both, fields add to the event that is underway, and an empty line dispatches it. As neither
the name of a message nor its data holds a line end, every message is read back by itself, and a stream
of them one by one.
-/

namespace JobConsole.Live

structure Dispatched where
  name : String
  data : String
  lastId : String
  deriving DecidableEq, Repr

structure Underway where
  name : List Char
  /-- Every line of data, each with a line feed behind it. -/
  data : List Char
  lastId : List Char

namespace Underway

def none : Underway := ⟨[], [], []⟩

/-- A field with its value. Fields that are not known are left out, and so is the time after which to
connect again, which is no part of an event. -/
def field (u : Underway) (name value : List Char) : Underway :=
  if name = "event".toList then { u with name := value }
  else if name = "data".toList then { u with data := u.data ++ value ++ ['\n'] }
  else if name = "id".toList ∧ Char.ofNat 0 ∉ value then { u with lastId := value }
  else u

/-- An empty line dispatches the event, if there is data. -/
def dispatch (u : Underway) : Option Dispatched × Underway :=
  let event : Dispatched :=
    ⟨if u.name = [] then "message" else .ofList u.name, .ofList u.data.dropLast, .ofList u.lastId⟩
  (if u.data = [] then .none else some event, ⟨[], [], u.lastId⟩)

end Underway

namespace EventSource

/-- The lines of a stream that have come to their end. `line` is what was read of the first, latest
first. -/
def linesFrom (line : List Char) : List Char → List (List Char)
  | [] => []
  | '\r' :: '\n' :: r => line.reverse :: linesFrom [] r
  | '\r' :: r => line.reverse :: linesFrom [] r
  | '\n' :: r => line.reverse :: linesFrom [] r
  | c :: r => linesFrom (c :: line) r

def takeLine (u : Underway) : List Char → Option Dispatched × Underway
  | [] => u.dispatch
  | ':' :: _ => (none, u)
  | line =>
    let name := line.takeWhile (· ≠ ':')
    match line.drop name.length with
    | ':' :: ' ' :: value => (none, u.field name value)
    | ':' :: value => (none, u.field name value)
    | _ => (none, u.field name [])

def readLines (u : Underway) : List (List Char) → List Dispatched
  | [] => []
  | line :: r =>
    let (event, u') := takeLine u line
    event.toList ++ readLines u' r

/-- The events of a stream. A byte order mark in front is skipped, and an event that the stream breaks
off in is left out. -/
def read (stream : String) : List Dispatched :=
  match stream.toList with
  | c :: r => readLines .none (linesFrom [] (if c.toNat = 0xFEFF then r else c :: r))
  | [] => []

end EventSource

def Frame.dispatched? : Frame → Option Dispatched
  | .snapshot j => some ⟨"snapshot", j.toJson.render, ""⟩
  | .event e => some ⟨e.name, e.toJson.render, ""⟩
  | .keepAlive => none
  | .notFound id => some ⟨"not-found", (Json.object [("jobId", .text id)]).render, ""⟩

/-! ## Lines -/

namespace EventSource

open Json (Visible visible_cons_iff visible_append_iff)

theorem linesFrom_append {l : List Char} (h : Visible l) (line rest : List Char) :
    linesFrom line (l ++ '\n' :: rest) = (line.reverse ++ l) :: linesFrom [] rest := by
  induction l generalizing line with
  | nil => simp [linesFrom]
  | cons c l ih =>
    obtain ⟨hc, hl⟩ := visible_cons_iff.mp h
    have hreturn : c ≠ '\r' := by
      rintro rfl
      exact absurd hc (by decide)
    have hfeed : c ≠ '\n' := by
      rintro rfl
      exact absurd hc (by decide)
    have hstep (r : List Char) : linesFrom line (c :: r) = linesFrom (c :: line) r := by
      rw [linesFrom]
      · exact fun _ he => absurd he hreturn
      · exact hreturn
      · exact hfeed
    rw [List.cons_append, hstep, ih hl, List.reverse_cons, List.append_assoc]
    rfl

theorem linesFrom_lines {ls : List (List Char)} (h : ∀ l ∈ ls, Visible l) (rest : List Char) :
    linesFrom [] (ls.flatMap (· ++ ['\n']) ++ '\n' :: rest) = ls ++ [] :: linesFrom [] rest := by
  induction ls with
  | nil => rfl
  | cons l ls ih =>
    obtain ⟨hl, hls⟩ := List.forall_mem_cons.mp h
    rw [List.flatMap_cons, List.append_assoc, List.append_assoc, List.singleton_append,
      linesFrom_append hl, ih hls]
    rfl

theorem takeLine_field (u : Underway) {name : List Char} (hne : name ≠ []) (hn : ':' ∉ name)
    (value : List Char) :
    takeLine u (name ++ ':' :: ' ' :: value) = (none, u.field name value) := by
  obtain ⟨c, l, rfl⟩ := List.exists_cons_of_ne_nil hne
  have hc : c ≠ ':' := fun h => hn (h ▸ List.mem_cons_self)
  have htake : ((c :: l) ++ ':' :: ' ' :: value).takeWhile (· ≠ ':') = c :: l := by
    rw [List.takeWhile_append_of_pos fun d hd => ?_]
    · simp
    · simpa using fun h : d = ':' => hn (h ▸ hd)
  have hdrop : ((c :: l) ++ ':' :: ' ' :: value).drop (c :: l).length = ':' :: ' ' :: value :=
    List.drop_left
  rw [List.cons_append] at htake hdrop ⊢
  rw [takeLine]
  · simp only [htake, hdrop]
  · exact List.cons_ne_nil _ _
  · exact fun _ he => hc (List.cons.inj he).1

theorem readLines_field (u : Underway) {name : List Char} (hne : name ≠ []) (hn : ':' ∉ name)
    (value : List Char) (rest : List (List Char)) :
    readLines u ((name ++ ':' :: ' ' :: value) :: rest) = readLines (u.field name value) rest := by
  rw [readLines, takeLine_field u hne hn]
  rfl

theorem readLines_end (u : Underway) (rest : List (List Char)) :
    readLines u ([] :: rest) = u.dispatch.1.toList ++ readLines u.dispatch.2 rest := rfl

end EventSource

/-! ## Messages -/

namespace Message

open Json (Visible visible_cons_iff visible_append_iff)

def lineText (l : String × String) : List Char := l.1.toList ++ ':' :: ' ' :: l.2.toList

theorem toList_encode (m : Message) :
    m.encode.toList = (m.lines.map lineText).flatMap (· ++ ['\n']) ++ ['\n'] := by
  have hline (l : String × String) :
      (l.1 ++ ": " ++ l.2 ++ "\n").toList = lineText l ++ ['\n'] := by
    simp [lineText]
  rw [encode, String.toList_append, String.toList_join, List.flatMap_map, List.flatMap_map]
  simp only [hline]
  rfl

/-- No line end stands inside the lines of a message. -/
def Clean (m : Message) : Prop := ∀ l ∈ m.lines, Visible l.1.toList ∧ Visible l.2.toList

theorem Clean.linesFrom {m : Message} (h : m.Clean) (rest : List Char) :
    EventSource.linesFrom [] (m.encode.toList ++ rest) =
      m.lines.map lineText ++ [] :: EventSource.linesFrom [] rest := by
  rw [toList_encode, List.append_assoc, List.singleton_append, EventSource.linesFrom_lines]
  intro l hl
  obtain ⟨⟨f, v⟩, hm, rfl⟩ := List.mem_map.mp hl
  obtain ⟨hf, hv⟩ := h _ hm
  simp only [lineText, visible_append_iff, visible_cons_iff]
  exact ⟨hf, by decide, by decide, hv⟩

theorem exists_head (m : Message) : ∃ c r, m.encode.toList = c :: r ∧ c.toNat ≠ 0xFEFF := by
  rw [toList_encode]
  cases m with
  | event name data => simp [lines, lineText]
  | comment text => exact ⟨':', _, rfl, by decide⟩

theorem clean_event {name : String} (h : Visible name.toList) (data : Json) :
    (event name data).Clean := by
  simp only [Clean, lines, List.forall_mem_cons]
  exact ⟨⟨Json.visible_of_all rfl, h⟩, ⟨Json.visible_of_all rfl, Json.visible_render data⟩,
    List.forall_mem_nil _⟩

theorem clean_ofFrame (f : Frame) : (ofFrame f).Clean := by
  cases f with
  | snapshot j => exact clean_event (Json.visible_of_all rfl) _
  | event e =>
    refine clean_event (Json.visible_of_all ?_) _
    rw [Event.name]
    cases e.payload.kind <;> rfl
  | keepAlive =>
    simp only [Clean, ofFrame, lines, List.forall_mem_cons]
    exact ⟨⟨Json.visible_of_all rfl, Json.visible_of_all rfl⟩, List.forall_mem_nil _⟩
  | notFound id => exact clean_event (Json.visible_of_all rfl) _

def dispatched? : Message → Option Dispatched
  | event name data => some ⟨if name = "" then "message" else name, data.render, ""⟩
  | comment _ => none

theorem readLines_lines (m : Message) (rest : List (List Char)) :
    EventSource.readLines .none (m.lines.map lineText ++ [] :: rest) =
      m.dispatched?.toList ++ EventSource.readLines .none rest := by
  cases m with
  | event name data =>
    have hlines : (event name data).lines.map lineText =
        ["event".toList ++ ':' :: ' ' :: name.toList,
          "data".toList ++ ':' :: ' ' :: data.render.toList] := rfl
    rw [hlines, List.cons_append, List.cons_append, List.nil_append,
      EventSource.readLines_field _ (by decide) (by decide),
      EventSource.readLines_field _ (by decide) (by decide), EventSource.readLines_end]
    simp [Underway.field, Underway.none, Underway.dispatch, dispatched?]
  | comment text => rfl

end Message

theorem dispatched?_ofFrame (f : Frame) : (Message.ofFrame f).dispatched? = f.dispatched? := by
  cases f with
  | event e =>
    have hname : e.name ≠ "" := by
      rw [Event.name]
      cases e.payload.kind <;> decide
    simp only [Message.ofFrame, Message.dispatched?, if_neg hname, Frame.dispatched?]
  | _ => rfl

/-! ## Streams -/

theorem readLines_stream (fs : List Frame) :
    EventSource.readLines .none
      (EventSource.linesFrom [] (String.join (fs.map fun f => (Message.ofFrame f).encode)).toList) =
        fs.filterMap Frame.dispatched? := by
  induction fs with
  | nil => rfl
  | cons f fs ih =>
    rw [String.toList_join, List.map_cons, List.flatMap_cons, ← String.toList_join,
      (Message.clean_ofFrame f).linesFrom, Message.readLines_lines, ih, dispatched?_ofFrame]
    cases hf : f.dispatched? with
    | none => rw [List.filterMap_cons_none hf]; rfl
    | some d => rw [List.filterMap_cons_some hf]; rfl

/-- The messages of any frames, one behind the other, are read back one by one: each frame but a
keep-alive is one event, in order, with its name and with the text of its job, event or id as it was. -/
theorem framing_unambiguous (fs : List Frame) :
    EventSource.read (String.join (fs.map fun f => (Message.ofFrame f).encode)) =
      fs.filterMap Frame.dispatched? := by
  have hread := readLines_stream fs
  cases fs with
  | nil => rfl
  | cons f fs =>
    obtain ⟨c, r, hc, hmark⟩ := (Message.ofFrame f).exists_head
    have hstream : (String.join ((f :: fs).map fun f => (Message.ofFrame f).encode)).toList =
        c :: (r ++ (String.join (fs.map fun f => (Message.ofFrame f).encode)).toList) := by
      rw [String.toList_join, List.map_cons, List.flatMap_cons, hc, ← String.toList_join]
      rfl
    rw [EventSource.read]
    simp only [hstream, if_neg hmark]
    rw [← hstream]
    exact hread

end JobConsole.Live
