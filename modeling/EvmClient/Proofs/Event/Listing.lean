import EvmClient.Proofs.Event.Shape

/-!
# The occurrences in a receipt

A receipt has one occurrence of an event for each of its logs that shows the event, in their order,
and with the values that the log has by itself. The first log that shows the event and cannot be
read decides for the whole receipt. Two events whose signatures are the same are told apart by the
number of their indexed parameters: no log shows both.
-/

set_option autoImplicit false

namespace EvmClient

def Log.HasTextTopics (log : Log) : Prop :=
  ∀ topics, log.topics = some topics → ∀ topic ∈ topics, topic.isText = true

namespace Event

/-- The log has topics. The first is that of the event, in any case of its letters, and there is one
more topic than the event has indexed parameters. -/
def IsShownBy (e : Event) (log : Log) : Prop :=
  ∃ topics first, log.topics = some topics ∧ topics.head? = some (.text first) ∧
    Text.lowered first = Text.lowered e.topic ∧ topics.length = e.indexed.length + 1

variable {e e' : Event} {log : Log} {logs : List Log} {v : EventValues} {failure : Failure}

/-! ## One log -/

theorem isTopic_text (s : String) :
    e.isTopic (.text s) = .ok (Text.lowered s == Text.lowered e.topic) := by
  have hlowered : Text.lowered e.topic = e.topic := lowered_markedText _
  rw [isTopic, hlowered]

theorem furtherTopics?_of_text {first : String} {rest : List Value}
    (h : log.topics = some (.text first :: rest)) :
    e.furtherTopics? log =
      .ok (if Text.lowered first = Text.lowered e.topic ∧ rest.length = e.indexed.length
        then some rest else none) := by
  simp only [furtherTopics?, h, isTopic_text, bind, Except.bind, beq_iff_eq]
  by_cases hfirst : Text.lowered first = Text.lowered e.topic
  · simp only [hfirst, if_true, true_and]
    rfl
  · simp only [hfirst, if_false, false_and]
    rfl

theorem furtherTopics?_of_isShownBy (h : e.IsShownBy log) :
    ∃ rest, e.furtherTopics? log = .ok (some rest) := by
  obtain ⟨topics, first, htopics, hhead, hfirst, hlength⟩ := h
  obtain ⟨rest, rfl⟩ := List.head?_eq_some_iff.mp hhead
  have hrest : rest.length = e.indexed.length := Nat.succ.inj hlength
  exact ⟨rest, by rw [furtherTopics?_of_text htopics, if_pos ⟨hfirst, hrest⟩]⟩

theorem furtherTopics?_of_not_isShownBy (htext : log.HasTextTopics) (h : ¬e.IsShownBy log) :
    e.furtherTopics? log = .ok none := by
  cases htopics : log.topics with
  | none => rw [furtherTopics?, htopics]
  | some topics =>
    cases topics with
    | nil => rw [furtherTopics?, htopics]
    | cons topic rest =>
      have htopic := htext _ htopics topic List.mem_cons_self
      cases topic with
      | text first =>
        rw [furtherTopics?_of_text htopics, if_neg]
        rintro ⟨hfirst, hrest⟩
        exact h ⟨_, first, htopics, rfl, hfirst, by rw [List.length_cons, hrest]⟩
      | _ => cases htopic

theorem isShownBy_of_furtherTopics? {rest : List Value}
    (h : e.furtherTopics? log = .ok (some rest)) : e.IsShownBy log := by
  unfold furtherTopics? at h
  split at h
  · rename_i topic rest' htopics
    obtain ⟨isFirst, htopic, h⟩ := bind_eq_ok.mp h
    cases isFirst with
    | false => cases h
    | true =>
      rw [if_pos rfl] at h
      split at h
      · rename_i hlength
        cases topic with
        | text first =>
          rw [isTopic_text, Except.ok.injEq, beq_iff_eq] at htopic
          exact ⟨_, first, htopics, rfl, htopic, by rw [List.length_cons, hlength]⟩
        | _ => cases htopic
      · cases h
  · cases h

instance (e : Event) : DecidablePred e.IsShownBy := fun log =>
  decidable_of_iff ((e.furtherTopics? log).toOption.join.isSome = true) <| by
    constructor
    · intro h
      cases hfurther : e.furtherTopics? log with
      | error d =>
        rw [hfurther] at h
        cases h
      | ok further =>
        cases further with
        | none =>
          rw [hfurther] at h
          cases h
        | some rest => exact isShownBy_of_furtherTopics? hfurther
    · intro h
      obtain ⟨rest, hrest⟩ := furtherTopics?_of_isShownBy h
      rw [hrest]
      rfl

theorem ofLog_of_not_isShownBy (htext : log.HasTextTopics) (h : ¬e.IsShownBy log) :
    e.ofLog log = .ok none := by
  rw [ofLog, furtherTopics?_of_not_isShownBy htext h]
  rfl

theorem ofLog_ne_none (h : e.IsShownBy log) : e.ofLog log ≠ .ok none := by
  obtain ⟨rest, hrest⟩ := furtherTopics?_of_isShownBy h
  intro hlog
  obtain ⟨further, hfurther, hlog⟩ := bind_eq_ok.mp hlog
  rw [Outcome.ofDefect_eq_ok, hrest] at hfurther
  cases hfurther
  obtain ⟨unindexed, _, hlog⟩ := bind_eq_ok.mp hlog
  obtain ⟨indexed, _, hlog⟩ := bind_eq_ok.mp hlog
  cases hlog

theorem length_indexed_of_isShownBy (h : e.IsShownBy log) (h' : e'.IsShownBy log) :
    e.indexed.length = e'.indexed.length := by
  obtain ⟨topics, _, htopics, _, _, hlength⟩ := h
  obtain ⟨topics', _, htopics', _, _, hlength'⟩ := h'
  have hsame : topics = topics' := Option.some.inj (htopics.symm.trans htopics')
  rw [hsame] at hlength
  omega

/-! ## All logs -/

def Reads (e : Event) (logs : List Log) : Prop :=
  ∀ log ∈ logs, e.IsShownBy log → ∃ v, e.ofLog log = .ok (some v)

/-- One entry for each log that shows the event, in the order of the logs: the log and the values it
has by itself. -/
structure Lists (e : Event) (logs : List Log) (found : List (EventValues × Log)) : Prop where
  logs : found.map Prod.snd = logs.filter fun log => e.IsShownBy log
  values : ∀ entry ∈ found, e.ofLog entry.2 = .ok (some entry.1)

/-- The first log that shows the event and cannot be read fails like this. -/
def FailsFirst (e : Event) (logs : List Log) (failure : Failure) : Prop :=
  ∃ before log after, logs = before ++ log :: after ∧ e.Reads before ∧ e.IsShownBy log ∧
    e.ofLog log = .error failure

theorem Reads.cons (hlog : e.IsShownBy log → ∃ v, e.ofLog log = .ok (some v))
    (h : e.Reads logs) : e.Reads (log :: logs) := by
  intro other hother
  obtain rfl | hother := List.mem_cons.mp hother
  · exact hlog
  · exact h other hother

theorem ofLogs_cons {found : Option EventValues} (h : e.ofLog log = .ok found) :
    e.ofLogs (log :: logs) =
      (e.ofLogs logs).map fun rest => found.toList.map (·, log) ++ rest := by
  rw [ofLogs, h]
  cases e.ofLogs logs <;> rfl

theorem ofLogs_cons_of_error (h : e.ofLog log = .error failure) :
    e.ofLogs (log :: logs) = .error failure := by
  rw [ofLogs, h]
  rfl

theorem valuesOfLogs_eq (e : Event) (logs : List Log) :
    e.valuesOfLogs logs = (e.ofLogs logs).map (List.map Prod.fst) := by
  induction logs with
  | nil => rfl
  | cons log logs ih =>
    rw [valuesOfLogs, ih]
    cases hlog : e.ofLog log with
    | error failure =>
      rw [ofLogs_cons_of_error hlog]
      rfl
    | ok found =>
      rw [ofLogs_cons hlog]
      cases e.ofLogs logs with
      | error failure => rfl
      | ok rest => cases found <;> rfl

inductive Adds (e : Event) (log : Log) : Outcome (Option EventValues) → Prop where
  | nothing (h : ¬e.IsShownBy log) : Adds e log (.ok none)
  | entry (v : EventValues) (h : e.IsShownBy log) : Adds e log (.ok (some v))
  | failure (failure : Failure) (h : e.IsShownBy log) : Adds e log (.error failure)

theorem adds_ofLog (htext : log.HasTextTopics) : e.Adds log (e.ofLog log) := by
  by_cases hshown : e.IsShownBy log
  · cases hlog : e.ofLog log with
    | error failure => exact .failure failure hshown
    | ok found =>
      cases found with
      | none => exact absurd hlog (ofLog_ne_none hshown)
      | some v => exact .entry v hshown
  · rw [ofLog_of_not_isShownBy htext hshown]
    exact .nothing hshown

theorem lists_ofLogs (htext : ∀ log ∈ logs, log.HasTextTopics) (h : e.Reads logs) :
    ∃ found, e.ofLogs logs = .ok found ∧ e.Lists logs found := by
  induction logs with
  | nil => exact ⟨[], rfl, rfl, by simp⟩
  | cons log logs ih =>
    obtain ⟨rest, hrest, hlists⟩ := ih (fun other hother => htext other (.tail log hother))
      fun other hother => h other (.tail log hother)
    have hadds := adds_ofLog (e := e) (htext log List.mem_cons_self)
    generalize hlog : e.ofLog log = found at hadds
    cases hadds with
    | nothing hshown =>
      refine ⟨rest, by rw [ofLogs_cons hlog, hrest]; rfl, ?_, hlists.values⟩
      rw [List.filter_cons_of_neg (by simpa using hshown), hlists.logs]
    | entry v hshown =>
      refine ⟨(v, log) :: rest, by rw [ofLogs_cons hlog, hrest]; rfl, ?_, ?_⟩
      · rw [List.filter_cons_of_pos (by simpa using hshown), List.map_cons, hlists.logs]
      · intro entry hentry
        obtain rfl | hentry := List.mem_cons.mp hentry
        · exact hlog
        · exact hlists.values entry hentry
    | failure failure hshown =>
      obtain ⟨v, hv⟩ := h log List.mem_cons_self hshown
      cases hlog.symm.trans hv

theorem failsFirst_ofLogs (htext : ∀ log ∈ logs, log.HasTextTopics) (h : ¬e.Reads logs) :
    ∃ failure, e.ofLogs logs = .error failure ∧ e.FailsFirst logs failure := by
  induction logs with
  | nil => exact absurd (fun _ hmem => absurd hmem List.not_mem_nil) h
  | cons log logs ih =>
    have hadds := adds_ofLog (e := e) (htext log List.mem_cons_self)
    generalize hlog : e.ofLog log = found at hadds
    -- a log that can be read, or is passed over, leaves the failure to the logs behind it
    have hlater : ∀ here, e.ofLog log = .ok here →
        (e.IsShownBy log → ∃ v, e.ofLog log = .ok (some v)) →
        ∃ failure, e.ofLogs (log :: logs) = .error failure ∧
          e.FailsFirst (log :: logs) failure := by
      intro here hhere hreads
      obtain ⟨failure, hfails, before, bad, after, hsplit, hbefore, hbad⟩ :=
        ih (fun other hother => htext other (.tail log hother)) fun hrest => h (hrest.cons hreads)
      refine ⟨failure, by rw [ofLogs_cons hhere, hfails]; rfl, ?_⟩
      exact ⟨log :: before, bad, after, by rw [hsplit]; rfl, hbefore.cons hreads, hbad⟩
    cases hadds with
    | nothing hshown => exact hlater none hlog fun hs => absurd hs hshown
    | entry v hshown => exact hlater (some v) hlog fun _ => ⟨v, hlog⟩
    | failure failure hshown =>
      refine ⟨failure, ofLogs_cons_of_error hlog, [], log, logs, rfl, ?_, hshown, hlog⟩
      exact fun _ hmem => absurd hmem List.not_mem_nil

/-- A receipt lists the logs that show the event, or it fails like the first of them that cannot be
read; and a log that shows the event shows no event with another number of indexed parameters. -/
theorem receipt_lists_shown_logs (e : Event) (r : Receipt)
    (htext : ∀ log ∈ r.logs, log.HasTextTopics) :
    (e.Reads r.logs → ∃ found, e.ofReceipt r = .ok found ∧ e.Lists r.logs found ∧
      e.valuesOfReceipt r = .ok (found.map Prod.fst)) ∧
    (¬e.Reads r.logs → ∃ failure, e.FailsFirst r.logs failure ∧
      e.ofReceipt r = .error failure ∧ e.valuesOfReceipt r = .error failure) ∧
    ∀ e' : Event, e'.signature = e.signature → e'.indexed.length ≠ e.indexed.length →
      ∀ log, ¬(e.IsShownBy log ∧ e'.IsShownBy log) ∧
        (log.HasTextTopics → e.ofLog log = .ok none ∨ e'.ofLog log = .ok none) := by
  refine ⟨fun h => ?_, fun h => ?_, fun e' _ hne log => ?_⟩
  · obtain ⟨found, hfound, hlists⟩ := lists_ofLogs htext h
    exact ⟨found, hfound, hlists, by rw [valuesOfReceipt, valuesOfLogs_eq, hfound]; rfl⟩
  · obtain ⟨failure, hfails, hfirst⟩ := failsFirst_ofLogs htext h
    exact ⟨failure, hfirst, hfails, by rw [valuesOfReceipt, valuesOfLogs_eq, hfails]; rfl⟩
  · have hapart : ¬(e.IsShownBy log ∧ e'.IsShownBy log) :=
      fun hboth => hne (length_indexed_of_isShownBy hboth.2 hboth.1)
    refine ⟨hapart, fun hlog => ?_⟩
    obtain hnot | hnot := Decidable.not_and_iff_or_not.mp hapart
    · exact .inl (ofLog_of_not_isShownBy hlog hnot)
    · exact .inr (ofLog_of_not_isShownBy hlog hnot)

/-! ## A receipt with other logs between the occurrences -/

def bareLog : Log := { topics := some [.text paidEvent.topic] }

def countedEvent : Event := ⟨"Paid", [⟨"string", true⟩, ⟨"uint256", true⟩]⟩

theorem paidLog_isShownBy (data : List UInt8) : paidEvent.IsShownBy (paidLog data) :=
  ⟨_, _, rfl, rfl, rfl, rfl⟩

theorem not_isShownBy_bareLog : ¬paidEvent.IsShownBy bareLog := by
  rintro ⟨topics, _, htopics, _, _, hlength⟩
  cases htopics
  cases hlength

theorem paidLog_hasTextTopics (data : List UInt8) : (paidLog data).HasTextTopics := by
  intro topics htopics topic htopic
  cases htopics
  simp only [List.mem_cons, List.not_mem_nil, or_false] at htopic
  obtain rfl | rfl := htopic <;> rfl

theorem bareLog_hasTextTopics : bareLog.HasTextTopics := by
  intro topics htopics topic htopic
  cases htopics
  cases List.mem_singleton.mp htopic
  rfl

def mixedReceipt : Receipt := { logs := [bareLog, paidLog [], bareLog, paidLog []] }

def brokenReceipt : Receipt := { logs := [paidLog [], bareLog, paidLog [1]] }

theorem mem_mixedReceipt (h : log ∈ mixedReceipt.logs) : log = bareLog ∨ log = paidLog [] := by
  simp only [mixedReceipt, List.mem_cons, List.not_mem_nil, or_false] at h
  obtain h | h | h | h := h
  · exact .inl h
  · exact .inr h
  · exact .inl h
  · exact .inr h

theorem mem_brokenReceipt (h : log ∈ brokenReceipt.logs) :
    log = paidLog [] ∨ log = bareLog ∨ log = paidLog [1] := by
  simpa only [brokenReceipt, List.mem_cons, List.not_mem_nil, or_false] using h

theorem paidLog_unreadable (v : EventValues) : paidEvent.ofLog (paidLog [1]) ≠ .ok (some v) := by
  intro h
  obtain ⟨_, _, hdata, _⟩ := ofLog_eq_some h
  have hbytes : Abi.dataBytes (paidLog [1]).data = .ok [1] :=
    Abi.dataBytes_of_decode? (Hex.isMarkedText_markedText _).2
  have htypes : AbiType.ofTexts (paidEvent.unindexed.map EventParameter.type) =
      .ok [.uint 256] := Abi.ofTexts_singleton ofText_uint256
  obtain ⟨⟨bs, ts, vs, hbs, hts, hvs⟩, _⟩ | ⟨_, hempty, _⟩ := Abi.decodeReturn_eq_ok hdata
  · cases hbytes.symm.trans hbs
    cases htypes.symm.trans hts
    cases hvs
  · cases hbytes.symm.trans hempty

theorem paid_receipts_listed :
    (∃ found, paidEvent.ofReceipt mixedReceipt = .ok found ∧
      found.map Prod.snd = [paidLog [], paidLog []]) ∧
    (∃ failure, paidEvent.ofReceipt brokenReceipt = .error failure ∧
      paidEvent.ofLog (paidLog [1]) = .error failure) ∧
    countedEvent.ofLog (paidLog []) = .ok none := by
  have hread : ∃ v, paidEvent.ofLog (paidLog []) = .ok (some v) :=
    ⟨_, mem_matches (@paidLog_occurs [] [] rfl) (List.mem_singleton_self _)⟩
  have hlisted := receipt_lists_shown_logs paidEvent mixedReceipt (by
    intro log hlog
    obtain rfl | rfl := mem_mixedReceipt hlog
    · exact bareLog_hasTextTopics
    · exact paidLog_hasTextTopics [])
  have hfailed := receipt_lists_shown_logs paidEvent brokenReceipt (by
    intro log hlog
    obtain rfl | rfl | rfl := mem_brokenReceipt hlog
    · exact paidLog_hasTextTopics []
    · exact bareLog_hasTextTopics
    · exact paidLog_hasTextTopics [1])
  refine ⟨?_, ?_, ?_⟩
  · obtain ⟨found, hfound, hlists, _⟩ := hlisted.1 (by
      intro log hlog hshown
      obtain rfl | rfl := mem_mixedReceipt hlog
      · exact absurd hshown not_isShownBy_bareLog
      · exact hread)
    refine ⟨found, hfound, hlists.logs.trans ?_⟩
    simp [mixedReceipt, not_isShownBy_bareLog, paidLog_isShownBy]
  · have hunread : ¬paidEvent.Reads brokenReceipt.logs := by
      intro hreads
      obtain ⟨v, hv⟩ := hreads (paidLog [1]) (by simp [brokenReceipt]) (paidLog_isShownBy [1])
      exact paidLog_unreadable v hv
    obtain ⟨failure, ⟨before, log, after, hsplit, _, hshown, hlog⟩, hfails, _⟩ :=
      hfailed.2.1 hunread
    have hmem : log ∈ brokenReceipt.logs := by simp [hsplit]
    obtain rfl | rfl | rfl := mem_brokenReceipt hmem
    · obtain ⟨v, hv⟩ := hread
      cases hlog.symm.trans hv
    · exact absurd hshown not_isShownBy_bareLog
    · exact ⟨failure, hfails, hlog⟩
  · have hapart := hlisted.2.2 countedEvent rfl (by decide) (paidLog [])
    obtain hnone | hnone := hapart.2 (paidLog_hasTextTopics [])
    · obtain ⟨v, hv⟩ := hread
      cases hnone.symm.trans hv
    · exact hnone

end Event
end EvmClient
