import EvmClient.Abi.Descriptor

/-!
# Events in logs

A log shows an event if its first topic is the event's and it has a further topic for each indexed
parameter. The values of these come from their topics, those of the others from the log's data. A
receipt shows an event in those of its logs that do, in their order.
-/

set_option autoImplicit false

namespace EvmClient

structure EventValues where
  indexed : List TypedValue
  unindexed : List TypedValue
  deriving Inhabited

namespace Event

/-- Whether a topic is the first topic of the event's logs, in either case of its letters. -/
def isTopic (e : Event) : Value → Except Defect Bool
  | .text s => .ok (Text.lowered s == e.topic)
  | .bytes _ => .ok false
  | _ => .error .missingPart

def furtherTopics? (e : Event) (log : Log) : Except Defect (Option (List Value)) :=
  match log.topics with
  | some (first :: rest) => do
    if ← e.isTopic first then
      return if rest.length = e.indexed.length then some rest else none
    else return none
  | _ => .ok none

def topicValues : List EventParameter → List Value → Outcome (List TypedValue)
  | p :: ps, topic :: topics => do
    let v ← Abi.decodeTopic topic p.type
    let vs ← topicValues ps topics
    return v :: vs
  | _, _ => .ok []

def ofLog (e : Event) (log : Log) : Outcome (Option EventValues) := do
  match ← Outcome.ofDefect (e.furtherTopics? log) with
  | none => return none
  | some topics =>
    let unindexed ← Abi.decodeReturn log.data (e.unindexed.map EventParameter.type)
    let indexed ← topicValues e.indexed topics
    return some ⟨indexed, unindexed⟩

def ofLogs (e : Event) : List Log → Outcome (List (EventValues × Log))
  | [] => .ok []
  | log :: logs => do
    let found ← e.ofLog log
    let rest ← ofLogs e logs
    return found.toList.map (·, log) ++ rest

/-- The occurrences of an event in a receipt, in the order of its logs. -/
def ofReceipt (e : Event) (r : Receipt) : Outcome (List (EventValues × Log)) := e.ofLogs r.logs

def valuesOfLogs (e : Event) : List Log → Outcome (List EventValues)
  | [] => .ok []
  | log :: logs => do
    let found ← e.ofLog log
    let rest ← valuesOfLogs e logs
    return found.toList ++ rest

def valuesOfReceipt (e : Event) (r : Receipt) : Outcome (List EventValues) := e.valuesOfLogs r.logs

end Event
end EvmClient
