import EvmClient.Value.Quantity

/-!
# Answers of a node

A read is answered by a result or by an error; both are plain data. The error is read from whatever
the node put there.
-/

set_option autoImplicit false

namespace EvmClient

structure RpcError where
  code : Value
  message : Value
  data : Value := .null
  deriving Inhabited

structure CallResponse where
  result : Value := .null
  error : Option RpcError := none
  deriving Inhabited

structure CodeResponse where
  code : Value := .null
  error : Option RpcError := none
  deriving Inhabited

/-- Reads the members of an error; a missing code is zero and a missing message is empty. -/
def RpcError.ofMembers (members : Fields) : Except Defect RpcError := do
  let code ← ((members.lookup "code").getD (.int 0)).wholeNumber
  let message ← ((members.lookup "message").getD (.text "")).textOf
  return { code := .int code, message := .text message, data := members.get "data" }

def CallResponse.hasError (r : CallResponse) : Bool := r.error.isSome

def CodeResponse.hasError (r : CodeResponse) : Bool := r.error.isSome

end EvmClient
