import EvmClient.Error.Stated
import EvmClient.Library
import EvmClient.Logging
import EvmClient.Network
import EvmClient.Script
import EvmClient.Session
import EvmClient.Proofs.Hex
import EvmClient.Proofs.Quantity
import EvmClient.Proofs.Value
import EvmClient.Proofs.Address
import EvmClient.Proofs.Input.Address
import EvmClient.Proofs.Input.Amount
import EvmClient.Proofs.Abi.Word
import EvmClient.Proofs.Abi.WellFormed
import EvmClient.Proofs.Abi.Canonical
import EvmClient.Proofs.Abi.Layout
import EvmClient.Proofs.Abi.Admission
import EvmClient.Proofs.Abi.RoundTrip
import EvmClient.Proofs.Abi.Pieces
import EvmClient.Proofs.Abi.Reading
import EvmClient.Proofs.Abi.Arguments
import EvmClient.Proofs.Abi.Alias
import EvmClient.Proofs.Abi.Grammar
import EvmClient.Proofs.Abi.Results
import EvmClient.Proofs.Abi.Leading
import EvmClient.Proofs.Abi.Spelling
import EvmClient.Proofs.Abi.Interchange
import EvmClient.Proofs.Linking.Placeholder
import EvmClient.Proofs.Linking.Substitution
import EvmClient.Proofs.Text.Occurrence
import EvmClient.Proofs.Linking.Completeness
import EvmClient.Proofs.Path
import EvmClient.Proofs.Outcome
import EvmClient.Proofs.Questions
import EvmClient.Proofs.Passive
import EvmClient.Proofs.Receipt
import EvmClient.Proofs.Revert
import EvmClient.Proofs.Revert.Payload
import EvmClient.Proofs.Gas
import EvmClient.Proofs.Node.Reply
import EvmClient.Proofs.Node.Send
import EvmClient.Proofs.Node.Asked
import EvmClient.Proofs.Node.Submission
import EvmClient.Proofs.Node.NonceLedger
import EvmClient.Proofs.Node.Numbering
import EvmClient.Proofs.Node.Turn
import EvmClient.Proofs.Node.Verdict
import EvmClient.Proofs.Node.Rendering
import EvmClient.Proofs.Node.Delegation
import EvmClient.Proofs.Execution.Phases
import EvmClient.Proofs.Execution.Asked
import EvmClient.Proofs.Execution.Protocol
import EvmClient.Proofs.Execution.Submission
import EvmClient.Proofs.Execution.MinedFailure
import EvmClient.Proofs.Execution.Reason
import EvmClient.Proofs.Execution.Agreement
import EvmClient.Proofs.Execution.Acceptance
import EvmClient.Proofs.Execution.Amount
import EvmClient.Proofs.SharedManager
import EvmClient.Proofs.Chain
import EvmClient.Proofs.Failures
import EvmClient.Proofs.Rejection
import EvmClient.Proofs.Target
import EvmClient.Proofs.Recipient
import EvmClient.Proofs.Creation
import EvmClient.Proofs.Deployment
import EvmClient.Proofs.Input.Payload
import EvmClient.Proofs.Frames
import EvmClient.Proofs.Binding
import EvmClient.Proofs.Calldata
import EvmClient.Proofs.Deferred
import EvmClient.Proofs.Naming
import EvmClient.Proofs.ReadCall
import EvmClient.Proofs.Event
import EvmClient.Proofs.Event.Shape
import EvmClient.Proofs.Event.Topic
import EvmClient.Proofs.Event.Listing
import EvmClient.Proofs.LetterCase
import EvmClient.Proofs.Bytecode
import EvmClient.Proofs.Bytecode.Metadata
import EvmClient.Proofs.Bytecode.Cut
import EvmClient.Proofs.Handles
