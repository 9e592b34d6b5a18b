import JobConsole.Json.Printer
import JobConsole.Live.Channel
import JobConsole.Wire.Event

/-! # Event streams

Frames of a live channel are sent as messages of an event stream: a named event with the JSON text of
the job or event as its data, or a comment. A message is a run of lines that ends with an empty
one. A stream ends when its channel does, or when the server shuts down.
-/

namespace JobConsole.Live

/-- One message of an event stream. -/
inductive Message where
  | event (name : String) (data : Json)
  | comment (text : String)

namespace Message

def ofFrame : Frame → Message
  | .snapshot j => .event "snapshot" j.toJson
  | .event e => .event e.name e.toJson
  | .keepAlive => .comment "keep-alive"
  | .notFound id => .event "not-found" (.object [("jobId", .text id)])

/-- The lines of a message, as field and value. A comment has the empty field. -/
def lines : Message → List (String × String)
  | event name data => [("event", name), ("data", data.render)]
  | comment text => [("", text)]

/-- The text of a message. -/
def encode (m : Message) : String :=
  String.join (m.lines.map fun l => l.1 ++ ": " ++ l.2 ++ "\n") ++ "\n"

end Message

/-- The body of a streamed answer. -/
structure Feed where
  channel : Channel
  ended : Bool

namespace Feed

def new (c : Channel) : Feed := ⟨c, false⟩

/-- Takes the messages that can be sent at once, at most `limit` of them. -/
def read (f : Feed) (b : Bus) (shutdown : Bool) (now : Nat) :
    Nat → List Message × Feed × Bus
  | 0 => ([], f, b)
  | limit + 1 =>
    if f.ended then ([], f, b)
    else if shutdown then ([], { f with ended := true }, b)
    else
      match f.channel.poll b now with
      | (.ended, c, b') => ([], ⟨c, true⟩, b')
      | (.idle _, c, b') => ([], ⟨c, false⟩, b')
      | (.frame m, c, b') =>
        let (ms, f', b'') := read ⟨c, false⟩ b' shutdown now limit
        (.ofFrame m :: ms, f', b'')

/-- Takes `count` messages, or fewer if the stream ends; waits for each. Also gives the moment at
which the last wait is over. -/
def wait (f : Feed) (b : Bus) (shutdown : Bool) (now : Nat) :
    Nat → List Message × Feed × Bus × Nat
  | 0 => ([], f, b, now)
  | count + 1 =>
    if f.ended then ([], f, b, now)
    else if shutdown then ([], { f with ended := true }, b, now)
    else
      match f.channel.next b now with
      | (none, c, b', now') => ([], ⟨c, true⟩, b', now')
      | (some m, c, b', now') =>
        let (ms, f', b'', now'') := wait ⟨c, false⟩ b' shutdown now' count
        (.ofFrame m :: ms, f', b'', now'')

/-- The body goes away, and the channel with it. -/
def drop (f : Feed) (b : Bus) : Bus := (f.channel.close b).2

end Feed

end JobConsole.Live
