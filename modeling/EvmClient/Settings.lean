import EvmClient.Error
import EvmClient.Number.Reading

/-!
# Settings of a manager

How long to wait for receipts and answers, whether to wait at all, and who counts the nonces.
Durations are positive numbers and switches are truth values; both are read leniently, and all
problems are reported together. Settings do not change once they are made.
-/

set_option autoImplicit false

namespace EvmClient

structure Settings where
  /-- seconds until the wait for a receipt is given up -/
  receiptTimeout : Value := .int 120
  /-- seconds between two looks for a receipt -/
  pollLatency : Value := .float 0.1
  waitForReceipt : Bool := true
  /-- nonces are counted here instead of being asked for -/
  manualNonce : Bool := false
  /-- seconds until a request is given up -/
  requestTimeout : Value := .int 30
  deriving Inhabited

namespace Settings

def givenText? : Value → Option (Option String)
  | .text s => some (some s)
  | .bytes bs => some (String.fromUTF8? ⟨bs.toArray⟩)
  | _ => none

def number (v : Value) : Except SettingProblem Float :=
  match givenText? v with
  | some s => (s.bind Number.float?).elim (.error .unreadableNumber) .ok
  | none =>
    match v with
    | .float x => .ok x
    | v => (v.integer?.bind Number.nearestFloat?).elim (.error .noNumber) .ok

def duration (v : Value) : Except SettingProblem Value := do
  let x ← number v
  if 0.0 < x then return .float x else .error .notPositive

def word? (s : String) : Option Bool :=
  let w := Text.lowered s
  if ["1", "on", "t", "true", "y", "yes"].contains w then some true
  else if ["0", "off", "f", "false", "n", "no"].contains w then some false
  else none

/-- The truth value that a number stands for. Numbers that do not fit in 64 bits are no switches. -/
def ofNumber (i : Int) : Except SettingProblem Bool :=
  if i = 0 then .ok false
  else if i = 1 then .ok true
  else if -9223372036854775808 ≤ i ∧ i < 9223372036854775808 then .error .unreadableSwitch
  else .error .noSwitch

def isMachineInteger (x : Float) : Bool :=
  x.isFinite && x == x.floor && x.abs < 9223372036854775808.0

def switch (v : Value) : Except SettingProblem Bool :=
  match givenText? v with
  | some s => (s.bind word?).elim (.error .unreadableSwitch) .ok
  | none =>
    match v with
    | .bool b => .ok b
    | .int i => ofNumber i
    | .float x => if isMachineInteger x then ofNumber (Number.truncate x) else .error .noSwitch
    | _ => .error .noSwitch

def entry {α : Type} (given : Fields) (name : String) (read : Value → Except SettingProblem α)
    (fallback : α) : α × List (String × SettingProblem) :=
  match given.lookup name with
  | none => (fallback, [])
  | some v =>
    match read v with
    | .ok a => (a, [])
    | .error problem => (fallback, [(name, problem)])

def ofFields (given : Fields) : Outcome Settings :=
  let d : Settings := {}
  let manualNonce := entry given "manual_nonce" switch d.manualNonce
  let pollLatency := entry given "poll_latency" duration d.pollLatency
  let receiptTimeout := entry given "receipt_timeout" duration d.receiptTimeout
  let requestTimeout := entry given "request_timeout" duration d.requestTimeout
  let waitForReceipt := entry given "wait_for_receipt" switch d.waitForReceipt
  match manualNonce.2 ++ pollLatency.2 ++ receiptTimeout.2 ++ requestTimeout.2 ++
      waitForReceipt.2 with
  | [] => .ok {
      receiptTimeout := receiptTimeout.1
      pollLatency := pollLatency.1
      waitForReceipt := waitForReceipt.1
      manualNonce := manualNonce.1
      requestTimeout := requestTimeout.1 }
  | problems => .error (.settings problems)

/-- Setting anything anew is refused; names that start with an underscore are not settings. -/
def assign (s : Settings) (name : String) : Outcome Settings :=
  if "_".isPrefixOf name then .ok s else .error (.settings [(name, .frozen)])

end Settings
end EvmClient
