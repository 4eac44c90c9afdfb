import EvmClient.Proofs.Abi.Results
import EvmClient.Proofs.Event
import EvmClient.Session.Operation

/-!
# The shape of an occurrence

An occurrence of an event has a value for each indexed parameter, of the type of the parameter or of
a hash. It has a value for each of the others exactly if the data of the log carries them. Data that
is too short for a value is no occurrence, with one exception: no data at all counts as no results,
and the log is then an occurrence without them.
-/

set_option autoImplicit false

namespace EvmClient

/-! ## Topics -/

/-- The type of what a topic tells about a parameter: its own, or that of a hash. -/
def EventParameter.topicType (p : EventParameter) : String :=
  match AbiType.ofText p.type with
  | .ok t => if t.isElementary then p.type else "bytes32"
  | .error _ => p.type

theorem Abi.decodeTopic_type {p : EventParameter} (hp : ∃ t, AbiType.ofText p.type = .ok t)
    {topic : Value} {v : TypedValue} (h : decodeTopic topic p.type = .ok v) :
    v.type = p.topicType := by
  obtain ⟨t, ht⟩ := hp
  obtain ⟨bs, _, h⟩ := bind_eq_ok.mp h
  have htype : p.topicType = if t.isElementary then p.type else "bytes32" := by
    rw [EventParameter.topicType, ht]
  rw [isHashedType_eq ht] at h
  rw [htype]
  cases he : t.isElementary with
  | false =>
    rw [he] at h
    cases h
    rfl
  | true =>
    rw [he] at h
    obtain ⟨vs, _, h⟩ := bind_eq_ok.mp h
    cases h
    rfl

namespace Event

/-- Every parameter has a type. No text names an empty tuple. -/
def IsTyped (e : Event) : Prop := ∀ p ∈ e.parameters, ∃ t, AbiType.ofText p.type = .ok t

variable {e : Event} {log : Log} {v : EventValues}

theorem topicValues_types {ps : List EventParameter} {topics : List Value} {vs : List TypedValue}
    (hps : ∀ p ∈ ps, ∃ t, AbiType.ofText p.type = .ok t) (hlength : topics.length = ps.length)
    (h : topicValues ps topics = .ok vs) :
    vs.map TypedValue.type = ps.map EventParameter.topicType := by
  induction ps generalizing topics vs with
  | nil =>
    cases h
    rfl
  | cons p ps ih =>
    cases topics with
    | nil => cases hlength
    | cons topic topics =>
      rw [topicValues] at h
      obtain ⟨first, hfirst, h⟩ := bind_eq_ok.mp h
      obtain ⟨rest, hrest, h⟩ := bind_eq_ok.mp h
      cases h
      have htype := Abi.decodeTopic_type (hps p List.mem_cons_self) hfirst
      have htypes := ih (fun q hq => hps q (List.mem_cons_of_mem p hq)) (Nat.succ.inj hlength) hrest
      rw [List.map_cons, List.map_cons, htype, htypes]

theorem length_furtherTopics {topics : List Value} (h : e.furtherTopics? log = .ok (some topics)) :
    topics.length = e.indexed.length := by
  unfold furtherTopics? at h
  split at h
  · obtain ⟨isFirst, _, h⟩ := bind_eq_ok.mp h
    cases isFirst with
    | false => cases h
    | true =>
      rw [if_pos rfl] at h
      split at h
      · rename_i hlength
        cases h
        exact hlength
      · cases h
  · cases h

theorem ofLog_eq_some (h : e.ofLog log = .ok (some v)) :
    ∃ topics, topics.length = e.indexed.length ∧
      Abi.decodeReturn log.data (e.unindexed.map EventParameter.type) = .ok v.unindexed ∧
      topicValues e.indexed topics = .ok v.indexed := by
  obtain ⟨further, hfurther, h⟩ := bind_eq_ok.mp h
  cases further with
  | none => cases h
  | some topics =>
    obtain ⟨unindexed, hunindexed, h⟩ := bind_eq_ok.mp h
    obtain ⟨indexed, hindexed, h⟩ := bind_eq_ok.mp h
    cases h
    exact ⟨topics, length_furtherTopics (Outcome.ofDefect_eq_ok.mp hfurther), hunindexed, hindexed⟩

/-! ## Occurrences -/

theorem mem_ofLogs {logs : List Log} {found : List (EventValues × Log)}
    (h : e.ofLogs logs = .ok found) (hmem : (v, log) ∈ found) : e.ofLog log = .ok (some v) := by
  induction logs generalizing found with
  | nil =>
    cases h
    cases hmem
  | cons first logs ih =>
    obtain ⟨here, hhere, h⟩ := bind_eq_ok.mp h
    obtain ⟨rest, hrest, h⟩ := bind_eq_ok.mp h
    cases h
    obtain hmem | hmem := List.mem_append.mp hmem
    · cases here with
      | none => cases hmem
      | some w =>
        cases List.mem_singleton.mp hmem
        exact hhere
    · exact ih hrest hmem

end Event

def Answer.matches : Answer → List (EventValues × Log)
  | .occurrence found => found.toList
  | .occurrences found => found
  | _ => []

namespace Event

variable {e : Event} {log : Log} {v : EventValues}

theorem mem_matches {source : EventSource} {answer : Answer}
    (h : e.occurrences source = .ok answer) (hmem : (v, log) ∈ answer.matches) :
    e.ofLog log = .ok (some v) := by
  cases source with
  | log log' =>
    obtain ⟨found, hfound, h⟩ := bind_eq_ok.mp h
    cases h
    cases found with
    | none => cases hmem
    | some w =>
      cases List.mem_singleton.mp hmem
      exact hfound
  | receipt r =>
    obtain ⟨found, hfound, h⟩ := bind_eq_ok.mp h
    cases h
    exact mem_ofLogs hfound hmem

/-- An occurrence has the declared shape exactly if the data of its log carries the values that are
not indexed. If it does not, there is no data, and none of these values. -/
theorem matched_shape_iff_carried (e : Event) (he : e.IsTyped) (source : EventSource)
    (answer : Answer) (h : e.occurrences source = .ok answer) (v : EventValues) (log : Log)
    (hmem : (v, log) ∈ answer.matches) :
    v.indexed.map TypedValue.type = e.indexed.map EventParameter.topicType ∧
      (v.unindexed.map TypedValue.type = e.unindexed.map EventParameter.type ↔
        Abi.Carries log.data (e.unindexed.map EventParameter.type)) ∧
      (¬Abi.Carries log.data (e.unindexed.map EventParameter.type) ↔
        e.unindexed ≠ [] ∧ Abi.dataBytes log.data = .ok []) ∧
      (¬Abi.Carries log.data (e.unindexed.map EventParameter.type) → v.unindexed = []) := by
  obtain ⟨topics, hlength, hdata, htopics⟩ := ofLog_eq_some (mem_matches h hmem)
  have hindexed : ∀ p ∈ e.indexed, ∃ t, AbiType.ofText p.type = .ok t :=
    fun p hp => he p (List.mem_filter.mp hp).1
  refine ⟨topicValues_types hindexed hlength htopics, ?_⟩
  obtain ⟨hcarries, htypes⟩ | ⟨hne, hempty, hnone⟩ := Abi.decodeReturn_eq_ok hdata
  · refine ⟨iff_of_true htypes hcarries, ?_, fun hnot => absurd hcarries hnot⟩
    refine iff_of_false (not_not_intro hcarries) ?_
    rintro ⟨hne, hempty⟩
    exact Abi.not_carries_of_empty (by simpa using hne) hempty hcarries
  · have hnot := Abi.not_carries_of_empty hne hempty
    refine ⟨iff_of_false ?_ hnot, iff_of_true hnot ⟨by simpa using hne, hempty⟩, fun _ => hnone⟩
    rw [hnone]
    exact fun heq => hne heq.symm

/-! ## A hashed and a plain parameter -/

def paidEvent : Event := ⟨"Paid", [⟨"string", true⟩, ⟨"uint256", false⟩]⟩

def paidTopic : List UInt8 := List.replicate 32 7

def paidLog (data : List UInt8) : Log :=
  { topics := some [.text paidEvent.topic, .text (Hex.markedText paidTopic)]
    data := .text (Hex.markedText data) }

theorem ofText_uint256 : AbiType.ofText "uint256" = .ok (.uint 256) := by
  have htokens : TypeExpr.tokens? "uint256".toList = some [.word "uint" (.width 256)] := by
    decide +kernel
  exact Abi.ofText_eq_ok htokens rfl (by decide +kernel) rfl

theorem paidEvent_isTyped : paidEvent.IsTyped := by
  intro p hp
  have hmem : p ∈ [⟨"string", true⟩, ⟨"uint256", false⟩] := hp
  simp only [List.mem_cons, List.not_mem_nil, or_false] at hmem
  obtain rfl | rfl := hmem
  · exact ⟨.string, Abi.ofText_string⟩
  · exact ⟨.uint 256, ofText_uint256⟩

theorem paidLog_occurs {data : List UInt8} {results : List TypedValue}
    (h : Abi.decodeReturn (.text (Hex.markedText data)) ["uint256"] = .ok results) :
    paidEvent.occurrences (.log (paidLog data)) =
      .ok (.occurrence (some (⟨[⟨"bytes32", .bytes paidTopic⟩], results⟩, paidLog data))) := by
  have hfurther : paidEvent.furtherTopics? (paidLog data) =
      .ok (some [.text (Hex.markedText paidTopic)]) := by
    simp only [furtherTopics?, paidLog, isTopic_topic]
    rfl
  have hlog : paidEvent.ofLog (paidLog data) =
      .ok (some ⟨[⟨"bytes32", .bytes paidTopic⟩], results⟩) := by
    have hresults : Abi.decodeReturn (paidLog data).data
        (paidEvent.unindexed.map EventParameter.type) = .ok results := h
    rw [ofLog, hfurther]
    simp only [bind, Except.bind, Outcome.ofDefect, hresults]
    rfl
  rw [occurrences, hlog]
  rfl

theorem paid_amount_carried :
    ∃ answer v, paidEvent.occurrences (.log (paidLog (Abi.word 5))) = .ok answer ∧
      (v, paidLog (Abi.word 5)) ∈ answer.matches ∧
      v.indexed.map TypedValue.type = ["bytes32"] ∧
      v.unindexed.map TypedValue.type = ["uint256"] := by
  have htypes : AbiType.ofTexts ["uint256"] = .ok [.uint 256] := by
    simp only [AbiType.ofTexts, List.mapM_cons, List.mapM_nil, ofText_uint256]
    rfl
  have hbytes : Abi.dataBytes (.text (Hex.markedText (Abi.word 5))) = .ok (Abi.word 5) :=
    Abi.dataBytes_of_decode? (Hex.isMarkedText_markedText _).2
  have hdecode : AbiType.decodeAll [.uint 256] (Abi.word 5) = .ok [.int 5] := by rfl
  have hresults : Abi.decodeReturn (.text (Hex.markedText (Abi.word 5))) ["uint256"] =
      .ok [⟨"uint256", .int 5⟩] := by
    rw [Abi.decodeReturn, hbytes]
    simp only [Abi.decodeValues, htypes, bind, Except.bind, Outcome.ofDefect, hdecode]
    rfl
  have hoccurs := paidLog_occurs hresults
  have hshape := matched_shape_iff_carried paidEvent paidEvent_isTyped _ _ hoccurs _ _
    (List.mem_singleton_self _)
  have hindexed : paidEvent.indexed.map EventParameter.topicType = ["bytes32"] := by
    have htopic : EventParameter.topicType ⟨"string", true⟩ = "bytes32" := by
      simp [EventParameter.topicType, Abi.ofText_string, AbiType.isElementary]
    exact congrArg (fun s => [s]) htopic
  refine ⟨_, _, hoccurs, List.mem_singleton_self _, hshape.1.trans hindexed, ?_⟩
  exact hshape.2.1.mpr ⟨_, _, _, hbytes, htypes, hdecode⟩

/-- A log without data is an occurrence of an event whose amount is missing. -/
theorem paid_amount_missing :
    ∃ answer v, paidEvent.occurrences (.log (paidLog [])) = .ok answer ∧
      (v, paidLog []) ∈ answer.matches ∧ paidEvent.IsTyped ∧
      paidEvent.unindexed.length = 1 ∧ v.unindexed.length = 0 := by
  have hoccurs := @paidLog_occurs [] [] rfl
  exact ⟨_, _, hoccurs, List.mem_singleton_self _, paidEvent_isTyped, rfl, rfl⟩

end Event
end EvmClient
