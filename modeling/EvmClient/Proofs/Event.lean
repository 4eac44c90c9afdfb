import EvmClient.Event.Extraction
import EvmClient.Proofs.Abi.Arguments
import EvmClient.Proofs.Abi.Spelling

/-!
# Events read back from their logs

A log keeps the arguments of an event in two rows: the topics, for the indexed ones, and the data,
for the others. Each row is in the order of the parameters, however the two kinds are interleaved.
Reading the log gives both rows back; an argument that is not a single word has left only a hash
behind if it is indexed.
-/

set_option autoImplicit false

namespace EvmClient

/-- An argument of an event, and the bytes of its topic if it is indexed. -/
structure EventArgument where
  parameter : EventParameter
  value : Value
  topic : List UInt8

namespace EventArgument

def typed (a : EventArgument) : TypedValue := ⟨a.parameter.type, a.value⟩

/-- A single word is its own topic; for everything else any hash may stand. -/
def IsTopical (a : EventArgument) : Prop :=
  ∃ t, AbiType.ofText a.parameter.type = .ok t ∧
    if t.isElementary then Abi.encodeArguments [a.typed] = .ok a.topic else a.topic.length = 32

def fromTopic (a : EventArgument) : TypedValue :=
  match AbiType.ofText a.parameter.type with
  | .ok t => if t.isElementary then a.typed.canonical else ⟨"bytes32", .bytes a.topic⟩
  | .error _ => a.typed

end EventArgument

def indexedOf (args : List EventArgument) : List EventArgument :=
  args.filter fun a => a.parameter.isIndexed

def unindexedOf (args : List EventArgument) : List EventArgument :=
  args.filter fun a => !a.parameter.isIndexed

namespace Event

/-- The log that an event with these arguments leaves. -/
structure Emits (e : Event) (args : List EventArgument) (log : Log) : Prop where
  parameters : e.parameters = args.map EventArgument.parameter
  topical : ∀ a ∈ indexedOf args, a.IsTopical
  topics : log.topics =
    some (.text e.topic :: (indexedOf args).map fun a => .text (Hex.markedText a.topic))
  data : ∃ bs, Abi.encodeArguments ((unindexedOf args).map EventArgument.typed) = .ok bs ∧
    log.data = .text (Hex.markedText bs)

variable {e : Event} {args : List EventArgument} {log : Log}

theorem lowered_markedText (bs : List UInt8) :
    Text.lowered (Hex.markedText bs) = Hex.markedText bs := by
  have hchars := Hex.chars_of_ofChars? (Hex.ofChars?_chars bs)
  rw [Text.lowered, Hex.markedText, String.toList_ofList, List.map_cons, List.map_cons, ← hchars]
  rfl

theorem isTopic_topic (e : Event) : e.isTopic (.text e.topic) = .ok true := by
  rw [isTopic, topic, lowered_markedText, beq_self_eq_true]

theorem indexed_eq (h : e.parameters = args.map EventArgument.parameter) :
    e.indexed = (indexedOf args).map EventArgument.parameter := by
  rw [indexed, h, List.filter_map]
  rfl

theorem unindexed_eq (h : e.parameters = args.map EventArgument.parameter) :
    e.unindexed.map EventParameter.type =
      ((unindexedOf args).map EventArgument.typed).map TypedValue.type := by
  rw [unindexed, h, List.filter_map, List.map_map, List.map_map]
  rfl

theorem furtherTopics?_of_emits (h : e.Emits args log) :
    e.furtherTopics? log =
      .ok (some ((indexedOf args).map fun a => .text (Hex.markedText a.topic))) := by
  rw [furtherTopics?, h.topics]
  simp only [isTopic_topic, indexed_eq h.parameters, List.length_map, bind, Except.bind, if_true,
    pure, Except.pure]

theorem decodeTopic_of_isTopical {a : EventArgument} (h : a.IsTopical) :
    Abi.decodeTopic (.text (Hex.markedText a.topic)) a.parameter.type = .ok a.fromTopic := by
  obtain ⟨t, ht, htopic⟩ := h
  have hdata : Abi.dataBytes (.text (Hex.markedText a.topic)) = .ok a.topic :=
    Abi.dataBytes_of_decode? (Hex.isMarkedText_markedText a.topic).2
  rw [Abi.decodeTopic, hdata, EventArgument.fromTopic, ht]
  simp only [bind, Except.bind, Abi.isHashedType_eq ht]
  by_cases he : t.isElementary = true
  · rw [if_pos he] at htopic
    have hdecode := Abi.decodeValues_of_encode htopic
      (.conversion (.topic (.text (Hex.markedText a.topic)) a.parameter.type))
    have htype : a.parameter.type = a.typed.type := rfl
    have hcanonical : TypedValue.mk a.typed.type a.typed.canonical.value = a.typed.canonical := by
      rw [← a.typed.type_canonical]
    rw [htype] at hdecode ⊢
    simp only [List.map_cons, List.map_nil] at hdecode
    simp only [he, Bool.not_true, Bool.false_eq_true, if_false, if_true, hdecode, List.headD_cons]
    exact congrArg Except.ok hcanonical
  · rw [Bool.not_eq_true] at he
    simp only [he, Bool.not_false, if_true, Bool.false_eq_true, if_false]
    rfl

theorem topicValues_of_topical {as : List EventArgument} (h : ∀ a ∈ as, a.IsTopical) :
    topicValues (as.map EventArgument.parameter)
        (as.map fun a => .text (Hex.markedText a.topic)) =
      .ok (as.map EventArgument.fromTopic) := by
  induction as with
  | nil => rfl
  | cons a as ih =>
    have ha := decodeTopic_of_isTopical (h a (by simp))
    have has := ih fun b hb => h b (by simp [hb])
    rw [List.map_cons, List.map_cons, topicValues, ha, has]
    rfl

/-- Reading undoes emitting. -/
theorem ofLog_of_emits (e : Event) (args : List EventArgument) (log : Log)
    (h : e.Emits args log) :
    e.ofLog log = .ok (some
      ⟨(indexedOf args).map EventArgument.fromTopic,
        (unindexedOf args).map fun a => a.typed.canonical⟩) := by
  obtain ⟨bs, hbs, hdata⟩ := h.data
  have hbytes : Abi.dataBytes log.data = .ok bs := by
    rw [hdata]
    exact Abi.dataBytes_of_decode? (Hex.isMarkedText_markedText bs).2
  have hunindexed := Abi.decodeReturn_of_dataBytes hbs hbytes
  have hindexed := topicValues_of_topical h.topical
  rw [← unindexed_eq h.parameters] at hunindexed
  rw [← indexed_eq h.parameters] at hindexed
  rw [ofLog, furtherTopics?_of_emits h]
  simp only [bind, Except.bind, Outcome.ofDefect, hunindexed, hindexed, List.map_map]
  rfl

/-! ## Nested arguments between indexed ones -/

def flagArgument : EventArgument := ⟨⟨"bool", true⟩, .bool true, Abi.word 1⟩

def nameArgument : EventArgument := ⟨⟨"string", true⟩, .text "name", List.replicate 32 7⟩

def mixedArguments : List EventArgument :=
  flagArgument :: Abi.nestedArguments.map (fun a => ⟨⟨a.type, false⟩, a.value, []⟩) ++
    [nameArgument]

def mixedEvent : Event := ⟨"Stored", mixedArguments.map EventArgument.parameter⟩

theorem ofText_bool : AbiType.ofText "bool" = .ok .bool := by
  have htokens : TypeExpr.tokens? "bool".toList = some [.word "bool" .absent] := by decide +kernel
  exact Abi.ofText_eq_ok htokens rfl (by decide +kernel) rfl

theorem flagArgument_isTopical : flagArgument.IsTopical := by
  have htypes : AbiType.ofTexts ([flagArgument.typed].map TypedValue.type) = .ok [.bool] :=
    Abi.ofTexts_singleton ofText_bool
  have hencode : Abi.encodeArguments [flagArgument.typed] = .ok flagArgument.topic := by
    rw [Abi.encodeArguments, htypes]
    rfl
  exact ⟨.bool, ofText_bool, hencode⟩

theorem nameArgument_isTopical : nameArgument.IsTopical := ⟨.string, Abi.ofText_string, rfl⟩

theorem flagArgument_fromTopic : flagArgument.fromTopic = ⟨"bool", .bool true⟩ := by
  have hbool : AbiType.ofText flagArgument.parameter.type = .ok .bool := ofText_bool
  have htyped : AbiType.ofText flagArgument.typed.type = .ok .bool := ofText_bool
  rw [EventArgument.fromTopic, hbool]
  change flagArgument.typed.canonical = _
  rw [TypedValue.canonical, htyped]
  rfl

theorem nameArgument_fromTopic :
    nameArgument.fromTopic = ⟨"bytes32", .bytes (List.replicate 32 7)⟩ := by
  have hstring : AbiType.ofText nameArgument.parameter.type = .ok .string := Abi.ofText_string
  rw [EventArgument.fromTopic, hstring]
  rfl

theorem mixed_arguments_read :
    ∃ log, mixedEvent.Emits mixedArguments log ∧
      mixedEvent.ofLog log = .ok (some
        ⟨[⟨"bool", .bool true⟩, ⟨"bytes32", .bytes (List.replicate 32 7)⟩],
          Abi.nestedResults⟩) := by
  obtain ⟨bs, hbs⟩ := Abi.nestedArguments_encoded
  have hemits : mixedEvent.Emits mixedArguments
      { topics := some (.text mixedEvent.topic ::
          (indexedOf mixedArguments).map fun a => .text (Hex.markedText a.topic))
        data := .text (Hex.markedText bs) } := by
    refine ⟨rfl, ?_, rfl, bs, hbs, rfl⟩
    intro a ha
    have hmem : a ∈ [flagArgument, nameArgument] := ha
    simp only [List.mem_cons, List.not_mem_nil, or_false] at hmem
    obtain rfl | rfl := hmem
    · exact flagArgument_isTopical
    · exact nameArgument_isTopical
  have h := ofLog_of_emits mixedEvent mixedArguments _ hemits
  have hindexed : (indexedOf mixedArguments).map EventArgument.fromTopic =
      [flagArgument.fromTopic, nameArgument.fromTopic] := rfl
  have hunindexed : (unindexedOf mixedArguments).map (fun a => a.typed.canonical) =
      Abi.nestedArguments.map TypedValue.canonical := rfl
  rw [hindexed, hunindexed, flagArgument_fromTopic, nameArgument_fromTopic,
    Abi.nestedArguments_canonical] at h
  exact ⟨_, hemits, h⟩

end Event
end EvmClient
