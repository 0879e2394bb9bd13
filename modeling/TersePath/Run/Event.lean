import TersePath.Element
import TersePath.Number.Fixed
import TersePath.Path.Simplify

namespace TersePath

inductive Event where
  | queued (count : Nat)
  | failed (pass : String) (fault : Fault)
  | malformedOperand (field token : List Char)
  | rescaled (scale : Nat)
  | unreadableWidth (text : String) (inherited : Binary64)
  | shrank (rule : Rule) (before after : Nat)
  | deviation (distance : Binary64)
  | deviationUnavailable (fault : Fault)
deriving DecidableEq

namespace Event

def level : Event → String
  | queued _ => "INFO"
  | failed _ _ => "WARNING"
  | _ => "DEBUG"

def text : Event → String
  | queued count => "Pipeline: " ++ count.repr ++ " passes queued"
  | failed pass fault => "  " ++ pass ++ " FAILED: " ++ fault.message
  | malformedOperand field token =>
    "Malformed operand " ++ String.ofList (quoted field) ++ " in " ++ String.ofList token
  | rescaled scale => "Rescaled path by " ++ scale.repr
  | unreadableWidth text inherited =>
    "Unparsable stroke-width " ++ String.ofList (quoted text.toList) ++ ", inheriting " ++
      String.ofList inherited.literal
  | shrank rule before after =>
    "Rule " ++ rule.name ++ ": " ++ before.repr ++ " → " ++ after.repr ++ " commands"
  | deviation distance =>
    "Max deviation from input: " ++ String.ofList (distance.fixedText 4)
  | deviationUnavailable fault => "Max deviation unavailable: " ++ fault.message

end Event

end TersePath
