import EvmClient.Proofs.Abi.Alias
import EvmClient.Proofs.Event

/-!
# Descriptors with short names

A function or an event may be described with short names of types or with these names in full. Both
descriptions code the same values in the same way. But the hash is that of the text as it is
written, so the selector and the first topic are others, and a call or a log of one description is
none of the other. `descriptors_interchange_iff` says that this is the only difference.
-/

set_option autoImplicit false

namespace EvmClient

def TypedValue.inFull (v : TypedValue) : TypedValue := { v with type := Abi.inFull v.type }

def Function.inFull (f : Function) : Function := { f with inputs := f.inputs.map TypedValue.inFull }

def EventParameter.inFull (p : EventParameter) : EventParameter :=
  { p with type := Abi.inFull p.type }

def Event.inFull (e : Event) : Event :=
  { e with parameters := e.parameters.map EventParameter.inFull }

def EventValues.inFull (v : EventValues) : EventValues :=
  ⟨v.indexed.map TypedValue.inFull, v.unindexed.map TypedValue.inFull⟩

/-! ## Signatures -/

namespace Abi

theorem count_comma_inFull (cs : List Char) :
    (TypeExpr.inFull cs).count ',' = cs.count ',' := by
  induction cs using TypeExpr.inFull_induction with
  | hnil => rfl
  | hother c cs _ ih => rw [List.count_cons, List.count_cons, ih]
  | hword word digits rest hletters hdigits ih =>
    have hextra : digits.count ',' = 0 :=
      List.count_eq_zero.mpr fun hmem => absurd (hdigits _ hmem) (by decide)
    rw [List.count_append, List.count_append, List.count_append, hextra, ih, Nat.zero_add]

theorem count_comma_of_inFull {s t : String} (h : inFull s = inFull t) :
    s.toList.count ',' = t.toList.count ',' := by
  have hcount := congrArg (fun r : String => r.toList.count ',') h
  simpa only [inFull, String.toList_ofList, count_comma_inFull] using hcount

/-- A front with a given number of commas ends where the next comma stands. -/
theorem fronts_eq {front front' rest rest' : List Char}
    (h : front ++ ',' :: rest = front' ++ ',' :: rest')
    (hcount : front.count ',' = front'.count ',') :
    front = front' ∧ rest = rest' := by
  induction front generalizing front' with
  | nil =>
    cases front' with
    | nil => exact ⟨rfl, (List.cons.inj h).2⟩
    | cons c front' =>
      obtain ⟨rfl, _⟩ := List.cons.inj h
      simp at hcount
  | cons c front ih =>
    cases front' with
    | nil =>
      obtain ⟨rfl, _⟩ := List.cons.inj h
      simp at hcount
    | cons d front' =>
      obtain ⟨rfl, hrest⟩ := List.cons.inj h
      rw [List.count_cons, List.count_cons, Nat.add_right_cancel_iff] at hcount
      obtain ⟨rfl, rfl⟩ := ih hrest hcount
      exact ⟨rfl, rfl⟩

theorem types_eq_of_joined {types types' : List String}
    (h : types.map inFull = types'.map inFull)
    (hjoined : String.intercalate "," types = String.intercalate "," types') : types = types' := by
  induction types generalizing types' with
  | nil => exact (List.map_eq_nil_iff.mp h.symm).symm
  | cons s rest ih =>
    cases types' with
    | nil => cases h
    | cons s' rest' =>
      obtain ⟨hs, hrest⟩ := List.cons.inj h
      cases rest with
      | nil =>
        obtain rfl := List.map_eq_nil_iff.mp hrest.symm
        rw [String.intercalate_singleton, String.intercalate_singleton] at hjoined
        rw [hjoined]
      | cons t rest =>
        cases rest' with
        | nil => cases hrest
        | cons t' rest' =>
          have hchars := congrArg String.toList hjoined
          rw [String.intercalate_cons_cons, String.intercalate_cons_cons, String.toList_append,
            String.toList_append, String.toList_append, String.toList_append, List.append_assoc,
            List.append_assoc] at hchars
          obtain ⟨hfront, hback⟩ := fronts_eq hchars (count_comma_of_inFull hs)
          rw [String.toList_inj.mp hfront, ih hrest (String.toList_inj.mp hback)]

theorem signatureText_inj {name : String} {types types' : List String}
    (h : types.map inFull = types'.map inFull) :
    signatureText name types = signatureText name types' ↔ types = types' := by
  constructor
  · intro hsignature
    apply types_eq_of_joined h
    simpa only [signatureText, String.append_left_inj, String.append_right_inj] using hsignature
  · rintro rfl
    rfl

theorem eq_of_maps_eq {α β γ : Type} {f : α → β} {g : α → γ}
    (hrecord : ∀ a b : α, f a = f b ∧ g a = g b → a = b) {as bs : List α}
    (hf : as.map f = bs.map f) (hg : as.map g = bs.map g) : as = bs := by
  induction as generalizing bs with
  | nil => exact (List.map_eq_nil_iff.mp hf.symm).symm
  | cons a as ih =>
    cases bs with
    | nil => cases hf
    | cons b bs =>
      obtain ⟨ha, has⟩ := List.cons.inj hf
      obtain ⟨hb, hbs⟩ := List.cons.inj hg
      rw [hrecord a b ⟨ha, hb⟩, ih has hbs]

/-! ## Values -/

theorem types_inFull (args : List TypedValue) :
    (args.map TypedValue.inFull).map TypedValue.type = (args.map TypedValue.type).map inFull := by
  rw [List.map_map, List.map_map]
  rfl

theorem values_inFull (args : List TypedValue) :
    (args.map TypedValue.inFull).map TypedValue.value = args.map TypedValue.value := by
  rw [List.map_map]
  rfl

theorem encodeArguments_inFull (args : List TypedValue) :
    (encodeArguments (args.map TypedValue.inFull)).classified =
      (encodeArguments args).classified := by
  unfold encodeArguments
  simp only [types_inFull, values_inFull, AbiType.ofTexts_inFull]
  cases AbiType.ofTexts (args.map TypedValue.type) with
  | ok types =>
    simp only
    cases AbiType.encodeAll? types (args.map TypedValue.value) with
    | some bs => rfl
    | none => exact Outcome.classified_fail rfl rfl
  | error d =>
    cases d with
    | unreadableType | oversizedNumber => rfl
    | _ => exact Outcome.classified_fail rfl rfl

theorem zipWith_inFull (types : List String) (vs : List Value) :
    List.zipWith TypedValue.mk (types.map inFull) vs =
      (List.zipWith TypedValue.mk types vs).map TypedValue.inFull := by
  rw [List.zipWith_map_left, List.map_zipWith]
  rfl

theorem decodeReturn_inFull (data : Value) (types : List String) :
    (decodeReturn data (types.map inFull)).classified =
      Outcome.classified ((decodeReturn data types).map (List.map TypedValue.inFull)) := by
  unfold decodeReturn
  rw [Outcome.map_bind]
  refine Outcome.classified_bind rfl fun bs => ?_
  rw [List.isEmpty_map]
  split
  · rfl
  · rw [Outcome.map_bind]
    refine Outcome.classified_bind
      (decodeValues_classified (AbiType.ofTexts_inFull types) bs rfl ?_) fun vs => ?_
    · rw [ClientError.message?, ClientError.message?, ConversionCause.message?,
        ConversionCause.message?, Option.isSome_map, Option.isSome_map]
    · rw [zipWith_inFull]
      rfl

theorem inFull_bytes32 : inFull "bytes32" = "bytes32" := by decide +kernel

theorem decodeTopic_inFull (topic : Value) (type : String) :
    (decodeTopic topic (inFull type)).classified =
      Outcome.classified ((decodeTopic topic type).map TypedValue.inFull) := by
  unfold decodeTopic
  rw [Outcome.map_bind, isHashedType_inFull]
  refine Outcome.classified_bind rfl fun bs => ?_
  split
  · change Outcome.classified (.ok _) = Outcome.classified (.ok (TypedValue.inFull ⟨_, _⟩))
    rw [TypedValue.inFull, inFull_bytes32]
  · rw [Outcome.map_bind]
    refine Outcome.classified_bind
      (decodeValues_classified (AbiType.ofTexts_inFull [type]) bs rfl ?_) fun vs => rfl
    rw [ClientError.message?, ClientError.message?, ConversionCause.message?,
      ConversionCause.message?, Option.isSome_map, Option.isSome_map]

theorem markedText_injective {bs bs' : List UInt8} (h : Hex.markedText bs = Hex.markedText bs') :
    bs = bs' := by
  have hdecoded := congrArg Hex.decode? h
  rwa [(Hex.isMarkedText_markedText bs).2, (Hex.isMarkedText_markedText bs').2,
    Option.some.injEq] at hdecoded

section

variable {f g : Function}

theorem encodeArguments_of_inFull (h : f.inFull = g.inFull) :
    (encodeArguments f.inputs).classified = (encodeArguments g.inputs).classified := by
  have hinputs : f.inputs.map TypedValue.inFull = g.inputs.map TypedValue.inFull :=
    congrArg Function.inputs h
  rw [← encodeArguments_inFull, hinputs, encodeArguments_inFull]

theorem encodeCall_of_inFull (h : f.inFull = g.inFull) :
    (encodeCall f).classified = (encodeCall g).classified ↔
      f.selector = g.selector ∨ ∀ bs, encodeArguments f.inputs ≠ .ok bs := by
  have harguments := encodeArguments_of_inFull h
  unfold encodeCall
  cases hf : encodeArguments f.inputs with
  | error failure =>
    rw [hf] at harguments
    cases hg : encodeArguments g.inputs with
    | error failure' =>
      rw [hg] at harguments
      have hkind : failure.kind = failure'.kind := Except.error.inj harguments
      exact iff_of_true (congrArg Except.error hkind) (.inr fun _ => nofun)
    | ok bs =>
      rw [hg] at harguments
      cases harguments
  | ok bs =>
    rw [hf] at harguments
    cases hg : encodeArguments g.inputs with
    | error failure =>
      rw [hg] at harguments
      cases harguments
    | ok bs' =>
      rw [hg] at harguments
      cases harguments
      constructor
      · intro hcall
        have htext := markedText_injective (Except.ok.inj hcall)
        exact .inl (List.append_cancel_right htext)
      · rintro (hselector | hnone)
        · rw [hselector]
        · exact absurd rfl (hnone bs)

theorem signature_of_inFull (h : f.inFull = g.inFull) : f.signature = g.signature ↔ f = g := by
  obtain ⟨name, inputs, outputs⟩ := f
  obtain ⟨name', inputs', outputs'⟩ := g
  simp only [Function.inFull, Function.mk.injEq] at h
  obtain ⟨rfl, hinputs, rfl⟩ := h
  have htypes := congrArg (List.map TypedValue.type) hinputs
  have hvalues := congrArg (List.map TypedValue.value) hinputs
  rw [types_inFull, types_inFull] at htypes
  rw [values_inFull, values_inFull] at hvalues
  rw [Function.signature, Function.signature, Function.inputTypes, Function.inputTypes,
    signatureText_inj htypes]
  simp only [Function.mk.injEq, true_and, and_true]
  refine ⟨fun htexts => eq_of_maps_eq ?_ htexts hvalues, congrArg _⟩
  rintro ⟨type, v⟩ ⟨_, _⟩ ⟨rfl, rfl⟩
  rfl

end

end Abi

/-! ## Logs -/

namespace Event

def valuesFrom (e : Event) (data : Value) : Option (List Value) → Outcome (Option EventValues)
  | none => .ok none
  | some topics => do
    let unindexed ← Abi.decodeReturn data (e.unindexed.map EventParameter.type)
    let indexed ← topicValues e.indexed topics
    return some ⟨indexed, unindexed⟩

theorem ofLog_eq (e : Event) (log : Log) :
    e.ofLog log = Outcome.ofDefect (e.furtherTopics? log) >>= e.valuesFrom log.data := by
  rw [ofLog]
  refine congrArg _ (funext fun found => ?_)
  cases found <;> rfl

/-- What the values in a log come to, with the types of the values in full. -/
def reading (e : Event) (log : Log) : Except FailureKind (Option EventValues) :=
  Outcome.classified ((e.ofLog log).map (Option.map EventValues.inFull))

theorem reading_of_furtherTopics? {e : Event} {log : Log} {found : Option (List Value)}
    (h : e.furtherTopics? log = .ok found) :
    e.reading log =
      Outcome.classified ((e.valuesFrom log.data found).map (Option.map EventValues.inFull)) := by
  rw [reading, ofLog_eq, h]
  rfl

theorem indexed_inFull (e : Event) : e.inFull.indexed = e.indexed.map EventParameter.inFull := by
  rw [indexed, inFull, List.filter_map]
  rfl

theorem unindexed_inFull (e : Event) :
    e.inFull.unindexed.map EventParameter.type =
      (e.unindexed.map EventParameter.type).map Abi.inFull := by
  rw [unindexed, inFull, List.filter_map, List.map_map, List.map_map]
  rfl

theorem topicValues_inFull (parameters : List EventParameter) (topics : List Value) :
    (topicValues (parameters.map EventParameter.inFull) topics).classified =
      Outcome.classified ((topicValues parameters topics).map (List.map TypedValue.inFull)) := by
  induction parameters generalizing topics with
  | nil => rfl
  | cons p ps ih =>
    cases topics with
    | nil => rfl
    | cons topic topics =>
      rw [List.map_cons, topicValues, topicValues, Outcome.map_bind]
      refine Outcome.classified_bind_map (Abi.decodeTopic_inFull topic p.type) fun v => ?_
      rw [Outcome.map_bind]
      exact Outcome.classified_bind_map (ih topics) fun _ => rfl

theorem valuesFrom_inFull (e : Event) (data : Value) (found : Option (List Value)) :
    (e.inFull.valuesFrom data found).classified =
      Outcome.classified ((e.valuesFrom data found).map (Option.map EventValues.inFull)) := by
  cases found with
  | none => rfl
  | some topics =>
    rw [valuesFrom, valuesFrom, Outcome.map_bind, unindexed_inFull, indexed_inFull]
    refine Outcome.classified_bind_map (Abi.decodeReturn_inFull data _) fun unindexed => ?_
    rw [Outcome.map_bind]
    exact Outcome.classified_bind_map (topicValues_inFull e.indexed topics) fun _ => rfl

section

variable {e d : Event}

theorem values_of_inFull (h : e.inFull = d.inFull) (data : Value) (found : Option (List Value)) :
    Outcome.classified ((e.valuesFrom data found).map (Option.map EventValues.inFull)) =
      Outcome.classified ((d.valuesFrom data found).map (Option.map EventValues.inFull)) := by
  rw [← valuesFrom_inFull, h, valuesFrom_inFull]

theorem length_indexed_of_inFull (h : e.inFull = d.inFull) :
    e.indexed.length = d.indexed.length := by
  have hindexed := congrArg (fun c : Event => c.indexed.length) h
  simpa only [indexed_inFull, List.length_map] using hindexed

section

variable {log : Log} {topics : List Value}

theorem furtherTopics?_own (hlog : log.topics = some (.text e.topic :: topics)) :
    e.furtherTopics? log =
      .ok (if topics.length = e.indexed.length then some topics else none) := by
  simp only [furtherTopics?, hlog, isTopic_topic]
  rfl

theorem furtherTopics?_other (h : e.topic ≠ d.topic)
    (hlog : log.topics = some (.text e.topic :: topics)) : d.furtherTopics? log = .ok none := by
  have hlowered : Text.lowered e.topic = e.topic := lowered_markedText _
  have hother : d.isTopic (.text e.topic) = .ok false := by
    rw [isTopic, hlowered, beq_eq_false_iff_ne.mpr h]
  simp only [furtherTopics?, hlog, hother]
  rfl

end

theorem reading_of_own_topic (h : e.inFull = d.inFull) (log : Log) (topics : List Value) :
    e.reading { log with topics := some (.text e.topic :: topics) } =
      d.reading { log with topics := some (.text d.topic :: topics) } := by
  rw [reading_of_furtherTopics? (furtherTopics?_own rfl),
    reading_of_furtherTopics? (furtherTopics?_own rfl), length_indexed_of_inFull h]
  exact values_of_inFull h _ _

theorem valuesFrom_some (e : Event) (data : Value) (topics : List Value) :
    e.valuesFrom data (some topics) ≠ .ok none := by
  intro h
  obtain ⟨_, _, h⟩ := bind_eq_ok.mp h
  obtain ⟨_, _, h⟩ := bind_eq_ok.mp h
  cases h

theorem reading_eq_iff (h : e.inFull = d.inFull) :
    (∀ log, e.reading log = d.reading log) ↔ e.topic = d.topic := by
  constructor
  · intro hread
    refine Decidable.of_not_not fun hne => ?_
    have hlog := hread { topics := some (.text e.topic :: List.replicate e.indexed.length .null) }
    rw [reading_of_furtherTopics? (furtherTopics?_own rfl), if_pos List.length_replicate,
      reading_of_furtherTopics? (furtherTopics?_other hne rfl)] at hlog
    cases hvalues : e.valuesFrom (.text "0x") (some (List.replicate e.indexed.length .null)) with
    | error failure =>
      rw [hvalues] at hlog
      cases hlog
    | ok found =>
      rw [hvalues] at hlog
      cases found with
      | none => exact valuesFrom_some e _ _ hvalues
      | some values => cases hlog
  · intro htopic log
    have hfurther : e.furtherTopics? log = d.furtherTopics? log := by
      unfold furtherTopics? isTopic
      rw [htopic, length_indexed_of_inFull h]
    rw [reading, reading, ofLog_eq, ofLog_eq, hfurther, Outcome.map_bind, Outcome.map_bind]
    exact Outcome.classified_bind rfl fun found => values_of_inFull h log.data found

theorem signature_of_inFull (h : e.inFull = d.inFull) : e.signature = d.signature ↔ e = d := by
  obtain ⟨name, parameters⟩ := e
  obtain ⟨name', parameters'⟩ := d
  simp only [inFull, Event.mk.injEq] at h
  obtain ⟨rfl, hparameters⟩ := h
  have htypes := congrArg (List.map EventParameter.type) hparameters
  have hindexed := congrArg (List.map EventParameter.isIndexed) hparameters
  have hnames : ∀ ps : List EventParameter,
      (ps.map EventParameter.inFull).map EventParameter.type =
        (ps.map EventParameter.type).map Abi.inFull ∧
      (ps.map EventParameter.inFull).map EventParameter.isIndexed =
        ps.map EventParameter.isIndexed := by
    intro ps
    rw [List.map_map, List.map_map, List.map_map]
    exact ⟨rfl, rfl⟩
  rw [(hnames _).1, (hnames _).1] at htypes
  rw [(hnames _).2, (hnames _).2] at hindexed
  rw [signature, signature, Abi.signatureText_inj htypes, Event.mk.injEq]
  simp only [true_and]
  refine ⟨fun htexts => Abi.eq_of_maps_eq ?_ htexts hindexed, congrArg _⟩
  rintro ⟨type, isIndexed⟩ ⟨_, _⟩ ⟨rfl, rfl⟩
  rfl

end

end Event

/-- Descriptions of which some types are written in full code the same arguments and read the same
values. But their signatures differ, and the selector and the first topic are hashes of these. So
calls agree exactly if the hashes happen to select the same function, unless nothing can be encoded,
and logs are read alike exactly if the hashes of the events happen to be the same. -/
theorem descriptors_interchange_iff (f g : Function) (e d : Event) (hf : f.inFull = g.inFull)
    (he : e.inFull = d.inFull) :
    ((Abi.encodeArguments f.inputs).classified = (Abi.encodeArguments g.inputs).classified ∧
      ((Abi.encodeCall f).classified = (Abi.encodeCall g).classified ↔
        f.selector = g.selector ∨ ∀ bs, Abi.encodeArguments f.inputs ≠ .ok bs) ∧
      (f.signature = g.signature ↔ f = g)) ∧
    (∀ (log : Log) (topics : List Value),
        e.reading { log with topics := some (.text e.topic :: topics) } =
          d.reading { log with topics := some (.text d.topic :: topics) }) ∧
      ((∀ log, e.reading log = d.reading log) ↔ e.topic = d.topic) ∧
      (e.signature = d.signature ↔ e = d) := by
  constructor
  · exact ⟨Abi.encodeArguments_of_inFull hf, Abi.encodeCall_of_inFull hf,
      Abi.signature_of_inFull hf⟩
  · exact ⟨Event.reading_of_own_topic he, Event.reading_eq_iff he, Event.signature_of_inFull he⟩

/-! ## A function and an event of one number -/

def setter (type : String) : Function := ⟨"set", [⟨type, .int 1⟩], []⟩

def setEvent (type : String) : Event := ⟨"set", [⟨type, false⟩]⟩

theorem inFull_uint : Abi.inFull "uint" = "uint256" := by decide +kernel

theorem inFull_uint256 : Abi.inFull "uint256" = "uint256" := by decide +kernel

theorem setter_inFull : (setter "uint").inFull = (setter "uint256").inFull := by
  simp only [setter, Function.inFull, List.map_cons, List.map_nil, TypedValue.inFull, inFull_uint,
    inFull_uint256]

theorem setEvent_inFull : (setEvent "uint").inFull = (setEvent "uint256").inFull := by
  simp only [setEvent, Event.inFull, List.map_cons, List.map_nil, EventParameter.inFull,
    inFull_uint, inFull_uint256]

theorem setter_encoded : ∃ bs, Abi.encodeArguments (setter "uint").inputs = .ok bs := by
  have htokens : TypeExpr.tokens? "uint".toList = some [.word "uint" .absent] := by decide +kernel
  have htype : AbiType.ofText "uint" = .ok (.uint 256) :=
    Abi.ofText_eq_ok htokens rfl (by decide +kernel) rfl
  have htypes : AbiType.ofTexts ((setter "uint").inputs.map TypedValue.type) =
      .ok [.uint 256] := Abi.ofTexts_singleton htype
  rw [Abi.encodeArguments, htypes]
  exact ⟨_, rfl⟩

theorem numbers_coded_alike :
    (setter "uint").inFull = (setter "uint256").inFull ∧
      (Abi.encodeArguments (setter "uint").inputs).classified =
        (Abi.encodeArguments (setter "uint256").inputs).classified ∧
      (setter "uint").signature ≠ (setter "uint256").signature ∧
      (setEvent "uint").inFull = (setEvent "uint256").inFull ∧
      ∀ data : Value,
        (setEvent "uint").reading
            { topics := some [.text (setEvent "uint").topic], data := data } =
          (setEvent "uint256").reading
            { topics := some [.text (setEvent "uint256").topic], data := data } := by
  obtain ⟨⟨hcoded, _, hsignature⟩, hread, _⟩ :=
    descriptors_interchange_iff _ _ _ _ setter_inFull setEvent_inFull
  have hother : setter "uint" ≠ setter "uint256" := by
    simp [setter]
  exact ⟨setter_inFull, hcoded, mt hsignature.mp hother, setEvent_inFull,
    fun data => hread { data := data } []⟩

/-- The hash of a signature with a short name is another one, and nothing reports it: the call
selects no function of the contract, and the event is not found in the logs of the contract. -/
theorem short_names_change_hashes :
    ((setter "uint").inFull = (setter "uint256").inFull ∧
      (setter "uint256").selector = [0x60, 0xfe, 0x47, 0xb1] ∧
      (setter "uint").selector = [0xcc, 0xcd, 0xda, 0x2c] ∧
      Abi.encodeCall (setter "uint") ≠ Abi.encodeCall (setter "uint256")) ∧
    (setEvent "uint").inFull = (setEvent "uint256").inFull ∧
      (setEvent "uint").topic ≠ (setEvent "uint256").topic ∧
      ¬∀ log, (setEvent "uint").reading log = (setEvent "uint256").reading log := by
  have hfull : (setter "uint256").selector = [0x60, 0xfe, 0x47, 0xb1] := by decide +kernel
  have hshort : (setter "uint").selector = [0xcc, 0xcd, 0xda, 0x2c] := by decide +kernel
  have hselectors : (setter "uint").selector ≠ (setter "uint256").selector := by
    rw [hfull, hshort]
    decide
  have hhashes : signatureHash (setEvent "uint").signature ≠
      signatureHash (setEvent "uint256").signature :=
    fun h => hselectors (congrArg (List.take 4) h)
  have htopic : (setEvent "uint").topic ≠ (setEvent "uint256").topic :=
    mt Abi.markedText_injective hhashes
  refine ⟨⟨setter_inFull, hfull, hshort, ?_⟩, setEvent_inFull, htopic,
    mt (Event.reading_eq_iff setEvent_inFull).mp htopic⟩
  intro hcall
  obtain ⟨bs, hbs⟩ := setter_encoded
  obtain hselector | hnone :=
    (Abi.encodeCall_of_inFull setter_inFull).mp (congrArg Outcome.classified hcall)
  · exact hselectors hselector
  · exact hnone bs hbs

end EvmClient
