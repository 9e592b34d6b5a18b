import JobConsole.Bus.Basic
import JobConsole.Text.Quoted

/-! # Display of subscriptions

The text under which a subscription is shown to developers.
-/

namespace JobConsole

def Topic.describe : Topic → String
  | job id => "Job(" ++ Text.Quoted.quote id ++ ")"
  | wildcard => "Wildcard"

def Receiver.describe (r : Receiver) : String :=
  "Subscription \x7b id: " ++ toString r.id ++ ", topic: " ++ r.topic.describe ++
    ", active: " ++ toString r.active ++ " \x7d"

end JobConsole
