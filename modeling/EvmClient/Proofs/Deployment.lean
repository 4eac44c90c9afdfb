import EvmClient.Contract.Deployment
import EvmClient.Proofs.Execution.Protocol
import EvmClient.Proofs.Linking.Substitution

/-!
# Deployments of linked code

A deployment joins the code and the arguments behind one mark and checks that the whole is
hexadecimal, before it asks anything. The underscores of a placeholder that was not replaced are no
digits, so only linked code gets to an execution; the main statement is `Deployment.linked_submits`.
-/

set_option autoImplicit false

namespace EvmClient

theorem Library.Resumes.not_isMarked {cs : List Char} (h : Library.Resumes cs) :
    Hex.isMarked cs = false := by
  rw [← Bool.not_eq_true]
  intro hm
  obtain ⟨c, more, rfl, hdigit, hc⟩ := Hex.isMarked_eq_true hm
  obtain ⟨digits, rest, heq, hdigits, hrest⟩ := h
  match digits with
  | [] =>
    obtain rfl | ⟨_, _, rfl, _⟩ := hrest <;> cases heq
  | [d] =>
    obtain rfl | ⟨_, _, rfl, _⟩ := hrest
    · cases heq
    · exact hc (List.cons.inj (List.cons.inj heq).2).1
  | d :: e :: digits =>
    have he : c = e := (List.cons.inj (List.cons.inj heq).2).1
    have := hdigits e (by simp)
    rw [← he, hdigit] at this
    cases this

/-- Encoded arguments of a constructor: digits, perhaps behind a mark. -/
structure Arguments where
  isMarked : Bool
  digits : List Char
  areDigits : ∀ c ∈ digits, Hex.isDigit c = true

def Arguments.text (arguments : Arguments) : String :=
  String.ofList (Code.front arguments.isMarked ++ arguments.digits)

theorem unmarked_front {cs : List Char} (isMarked : Bool) (h : Library.Resumes cs) :
    Deployment.unmarked (.text (String.ofList (Code.front isMarked ++ cs))) =
      .ok (String.ofList cs) := by
  rw [Deployment.unmarked, Hex.unmark, String.toList_ofList]
  cases isMarked with
  | true => rfl
  | false => rw [Code.front, if_neg (by decide), List.nil_append,
      Hex.unmarkChars_of_not_isMarked h.not_isMarked]

namespace Deployment

def joined (binary arguments : String) : String := Hex.unmark binary ++ Hex.unmark arguments

theorem payload_eq_hex (binary arguments : String) :
    payload (.text binary) (.text arguments) =
      Input.hex (.text (Hex.mark (joined binary arguments))) "binary" := by
  have htext : (Value.text arguments).orElse (.text "") = .text arguments := by
    unfold Value.orElse
    by_cases ht : (Value.text arguments).isTruthy = true
    · rw [if_pos ht]
    · rw [if_neg ht]
      simp only [Value.isTruthy, Bool.not_eq_true', Bool.not_eq_false, String.isEmpty_iff] at ht
      rw [ht]
  rw [payload, htext]
  simp only [unmarked, bind, Except.bind]
  rfl

theorem payload_of_unmarked {binary arguments : String} {code rest : List Char}
    (hcode : unmarked (.text binary) = .ok (String.ofList code))
    (hrest : unmarked (.text arguments) = .ok (String.ofList rest))
    (h : Hex.isMarked (code ++ rest) = false) :
    payload (.text binary) (.text arguments) =
      Input.hex (.text ("0x" ++ String.ofList (code ++ rest))) "binary" := by
  have hjoined : joined binary arguments = String.ofList (code ++ rest) := by
    rw [joined, Except.ok.inj hcode, Except.ok.inj hrest, String.ofList_append]
  rw [payload_eq_hex, hjoined, Hex.mark, String.toList_ofList, if_neg (ne_true_of_eq_false h)]

end Deployment

/-! ## The check -/

namespace Address

theorem mem_withoutLineEnd {c : Char} {cs : List Char} (hc : c ≠ '\n') (h : c ∈ cs) :
    c ∈ withoutLineEnd cs := by
  unfold withoutLineEnd
  by_cases hend : cs.getLast? = some '\n'
  · rw [if_pos hend]
    obtain ⟨before, rfl⟩ := List.getLast?_eq_some_iff.mp hend
    rw [List.dropLast_concat]
    simpa [hc] using h
  · rwa [if_neg hend]

end Address

namespace Input

variable {cs : List Char} {field : String}

theorem hex_of_underscore (h : '_' ∈ cs) :
    hex (.text ("0x" ++ String.ofList cs)) field = fail (.validation (.hexForm field)) := by
  have hmem : '_' ∈ Address.withoutLineEnd ('0' :: 'x' :: cs) :=
    Address.mem_withoutLineEnd (by decide) (by simp [h])
  have hform : isMarkedHex (Address.withoutLineEnd ('0' :: 'x' :: cs)) = false := by
    rw [← Bool.not_eq_true]
    intro hx
    unfold isMarkedHex at hx
    split at hx
    · rename_i digits heq
      rw [heq] at hmem
      have hdigit := List.all_eq_true.mp hx '_' (by simpa using hmem)
      exact Hex.ne_underscore_of_digit hdigit rfl
    · cases hx
  simp [hex, hform]

theorem isMarkedHex_of_digits (h : ∀ c ∈ cs, Hex.isDigit c = true) :
    isMarkedHex (Address.withoutLineEnd ('0' :: 'x' :: cs)) = true := by
  rw [(Address.withoutLineEnd_eq_iff (Address.lineEnd_notMem h)).mpr (.inl rfl)]
  exact List.all_eq_true.mpr h

theorem hex_of_odd (h : ∀ c ∈ cs, Hex.isDigit c = true) (hodd : cs.length % 2 = 1) :
    hex (.text ("0x" ++ String.ofList cs)) field = fail (.validation (.hexLength field)) := by
  have hlength : (cs.length + 1 + 1) % 2 = 1 := by omega
  simp [hex, isMarkedHex_of_digits h, hlength]

theorem hex_of_even (h : ∀ c ∈ cs, Hex.isDigit c = true) (heven : cs.length % 2 = 0) :
    hex (.text ("0x" ++ String.ofList cs)) field = .ok (.text ("0x" ++ String.ofList cs)) := by
  have hlength : (cs.length + 1 + 1) % 2 ≠ 1 := by omega
  simp [hex, isMarkedHex_of_digits h, hlength]

end Input

/-! ## Linked code -/

namespace Code

variable {k : TextHash} (code : Code k) (links : List Link) (arguments : Arguments)

def creation : List Char := Segment.join (code.linkedSegments links) ++ arguments.digits

/-- Nothing is left to be linked, and the digits make whole bytes. -/
structure IsComplete : Prop where
  isLinked : ∀ t, .placeholder t ∈ code.segments → ∃ l ∈ links, l.covers k t = true
  isEven : (code.creation links arguments).length % 2 = 0

variable {code links arguments}

theorem linkedSegments_isProper : ∀ segment ∈ code.linkedSegments links, segment.IsProper := by
  intro segment h
  obtain ⟨given, hgiven, rfl⟩ := List.mem_map.mp h
  have hproper := (code.ofLibraries given hgiven).isProper
  cases given with
  | code digits => exact hproper
  | placeholder t =>
    cases hl : links.find? (Link.covers k · t) with
    | none =>
      simp only [Segment.linked, hl]
      exact hproper
    | some l =>
      simp only [Segment.linked, hl]
      exact l.isDigit_of_mem_digits

theorem creation_resumes : Library.Resumes (code.creation links arguments) := by
  have heq : code.creation links arguments =
      Segment.join (code.linkedSegments links ++ [.code arguments.digits]) := by
    simp [creation, Segment.join, Segment.text]
  rw [heq]
  refine Segment.join_resumes fun segment h => ?_
  obtain h | h := List.mem_append.mp h
  · exact linkedSegments_isProper segment h
  · obtain rfl := List.mem_singleton.mp h
    exact arguments.areDigits

theorem payload_eq :
    Deployment.payload (.text (LinkReference.link (links.map Link.reference) code.text k))
        (.text arguments.text) =
      Input.hex (.text ("0x" ++ String.ofList (code.creation links arguments))) "binary" := by
  have hcode : Deployment.unmarked (.text (String.ofList
      (front code.isMarked ++ Segment.join (code.linkedSegments links)))) =
      .ok (String.ofList (Segment.join (code.linkedSegments links))) :=
    unmarked_front code.isMarked (Segment.join_resumes linkedSegments_isProper)
  have harguments : Deployment.unmarked (.text arguments.text) =
      .ok (String.ofList arguments.digits) :=
    unmarked_front arguments.isMarked
      ⟨arguments.digits, [], by simp, arguments.areDigits, .inl rfl⟩
  rw [link_text]
  exact Deployment.payload_of_unmarked hcode harguments creation_resumes.not_isMarked

theorem isDigit_of_isLinked
    (h : ∀ t, .placeholder t ∈ code.segments → ∃ l ∈ links, l.covers k t = true) :
    ∀ c ∈ code.creation links arguments, Hex.isDigit c = true := by
  intro c hc
  obtain hc | hc := List.mem_append.mp hc
  · obtain ⟨segment, hs, hc⟩ := List.mem_flatMap.mp hc
    have hproper := linkedSegments_isProper segment hs
    obtain ⟨given, hgiven, rfl⟩ := List.mem_map.mp hs
    cases given with
    | code digits => exact hproper c hc
    | placeholder t =>
      have hfound : (links.find? (Link.covers k · t)).isSome = true :=
        List.find?_isSome.mpr (h t hgiven)
      obtain ⟨l, hl⟩ := Option.isSome_iff_exists.mp hfound
      simp only [Segment.linked, hl, Segment.text] at hc
      exact l.isDigit_of_mem_digits c hc
  · exact arguments.areDigits c hc

theorem underscore_mem_creation {t : List Char} (ht : .placeholder t ∈ code.segments)
    (h : ∀ l ∈ links, l.covers k t = false) : '_' ∈ code.creation links arguments := by
  have hnone : links.find? (Link.covers k · t) = none := by
    simpa using h
  have hmem : Segment.placeholder t ∈ code.linkedSegments links :=
    List.mem_map.mpr ⟨.placeholder t, ht, by simp [Segment.linked, hnone]⟩
  obtain ⟨b, _, heq⟩ := (code.ofLibraries _ ht).isProper
  have hunderscore : '_' ∈ t := by simp [heq, Library.padded]
  exact List.mem_append_left _ (List.mem_flatMap.mpr ⟨_, hmem, hunderscore⟩)

theorem payload_of_complete (h : code.IsComplete links arguments) :
    Deployment.payload (.text (LinkReference.link (links.map Link.reference) code.text k))
        (.text arguments.text) =
      .ok (.text ("0x" ++ String.ofList (code.creation links arguments))) := by
  rw [payload_eq]
  exact Input.hex_of_even (isDigit_of_isLinked h.isLinked) h.isEven

theorem payload_of_incomplete (h : ¬code.IsComplete links arguments) :
    ∃ cause, Deployment.payload
        (.text (LinkReference.link (links.map Link.reference) code.text k))
        (.text arguments.text) = .error (.client (.validation cause)) := by
  rw [payload_eq]
  by_cases hlinked : ∀ t, .placeholder t ∈ code.segments → ∃ l ∈ links, l.covers k t = true
  · have hodd : (code.creation links arguments).length % 2 = 1 := by
      have : (code.creation links arguments).length % 2 ≠ 0 := fun heven => h ⟨hlinked, heven⟩
      omega
    exact ⟨_, Input.hex_of_odd (isDigit_of_isLinked hlinked) hodd⟩
  · have hleft : ∃ t, .placeholder t ∈ code.segments ∧ ∀ l ∈ links, l.covers k t = false := by
      simpa using hlinked
    obtain ⟨t, ht, hnone⟩ := hleft
    exact ⟨_, Input.hex_of_underscore (underscore_mem_creation ht hnone)⟩

end Code

/-! ## Deployments -/

namespace Deployment

variable (d : Deployment) {m m' : Memory} {es : List Exchange}

def made : ContractClass := d.factory.getD d.kind

def fresh : Contract where
  kind := d.made
  manager := d.manager
  address := .text ""
  binary := d.made.binary
  strategy := some (d.strategy.getD .default)

def announcement : List Exchange := if d.factory.isSome then [.told (.construction .null)] else []

variable {d}

theorem announcement_told : ∀ e ∈ d.announcement, ∃ n, e = .told n := by
  intro e h
  unfold announcement at h
  split at h
  · exact ⟨_, List.mem_singleton.mp h⟩
  · cases h

theorem asked_notMem_announcement (q : Question) (reply : Except Failure q.Answer) :
    .asked q reply ∉ d.announcement := by
  intro h
  obtain ⟨n, heq⟩ := announcement_told _ h
  cases heq

theorem handle_path {r : Except Failure Contract} :
    d.handle.Path m es r m' ↔ es = d.announcement ∧ r = .ok d.fresh ∧ m' = m := by
  obtain ⟨kind, manager, strategy, binary, arguments, value, factory⟩ := d
  cases factory with
  | none => exact Action.path_pure
  | some factory =>
    refine Action.path_tell_bind.trans ?_
    constructor
    · intro hx
      obtain ⟨rest, rfl, h⟩ := hx
      obtain ⟨rfl, rfl, rfl⟩ := Action.path_pure.mp h
      exact ⟨rfl, rfl, rfl⟩
    · intro hx
      obtain ⟨rfl, rfl, rfl⟩ := hx
      exact ⟨[], rfl, Action.path_pure.mpr ⟨rfl, rfl, rfl⟩⟩

theorem run_path {r : Except Failure Contract} (h : d.run.Path m es r m') :
    (∃ failure, payload d.binary d.arguments = .error failure ∧ es = d.announcement ∧
      r = .error failure) ∨
    ∃ data reply m₁ rest notices, payload d.binary d.arguments = .ok data ∧
      (d.fresh.execution.run data d.value functionName true).Path m rest reply m₁ ∧
      r = reply >>= bound d.fresh ∧ es = d.announcement ++ rest ++ notices ∧
      ∀ e ∈ notices, ∃ n, e = .told n := by
  unfold run at h
  obtain ⟨failure, hh, _⟩ | ⟨c, m₁, es₁, es₂, rfl, hh, h⟩ := Action.path_bind.mp h
  · obtain ⟨_, heq, _⟩ := handle_path.mp hh
    cases heq
  obtain ⟨rfl, heq, rfl⟩ := handle_path.mp hh
  cases heq
  obtain ⟨failure, hp, rfl, rfl, rfl⟩ | ⟨data, hp, h⟩ := Action.path_ofOutcome_bind.mp h
  · exact .inl ⟨failure, hp, List.append_nil _, rfl⟩
  obtain ⟨failure, hx, rfl⟩ | ⟨receipt, m₂, es₃, es₄, rfl, hx, h⟩ := Action.path_bind.mp h
  · exact .inr ⟨data, _, m', es₂, [], hp, hx, rfl, by simp, by simp⟩
  refine .inr ⟨data, _, m₂, es₃, es₄, hp, hx, ?_⟩
  rw [List.append_assoc]
  obtain ⟨failure, hb, rfl, rfl, rfl⟩ | ⟨c, hb, h⟩ := Action.path_ofOutcome_bind.mp h
  · exact ⟨hb.symm, rfl, by simp⟩
  · obtain ⟨rest, rfl, hlast⟩ := Action.path_log_bind.mp h
    obtain ⟨rfl, rfl, rfl⟩ := Action.path_pure.mp hlast
    exact ⟨hb.symm, rfl, by simp⟩

/-- Complete code is submitted once, as a creation with nothing but the code and the arguments for
data; a fee-market submission may give way to one at a fixed price. Code that is not complete is
refused before anything is asked. -/
theorem linked_submits {k : TextHash} {code : Code k} {links : List Link}
    {arguments : Arguments} {amount limit : Int} {v : Value} {r : Except Failure Contract}
    (hbinary : d.binary = .text (LinkReference.link (links.map Link.reference) code.text k))
    (harguments : d.arguments = .text arguments.text)
    (hvalue : Input.amount d.value "value" = .ok amount)
    (hlimit : (d.strategy.getD .default).limit = .constant v) (hv : v.wholeNumber = .ok limit)
    (h : d.run.Path m es r m') :
    (code.IsComplete links arguments → ∀ sender, d.manager = .inMemory sender →
      Execution.Converses {
          sender := sender
          recipient := .null
          data := .text ("0x" ++ String.ofList (code.creation links arguments))
          value := .int amount }
        limit true (d.strategy.getD .default) (managerCalls es)) ∧
    (¬code.IsComplete links arguments →
      (∀ q reply, .asked q reply ∉ es) ∧ ∃ cause, r = .error (.client (.validation cause))) := by
  have hpayload : payload d.binary d.arguments = payload
      (.text (LinkReference.link (links.map Link.reference) code.text k))
      (.text arguments.text) := by
    rw [hbinary, harguments]
  constructor
  · intro hcomplete sender hmanager
    rw [Code.payload_of_complete hcomplete] at hpayload
    obtain ⟨_, herr, _⟩ | ⟨data, reply, m₁, rest, notices, hdata, hx, _, rfl, hnotices⟩ :=
      run_path h
    · rw [hpayload] at herr
      cases herr
    obtain rfl := Except.ok.inj (hpayload.symm.trans hdata)
    have hexecution : d.fresh.execution =
        ⟨.inMemory sender, .text "", some (d.strategy.getD .default)⟩ := by
      rw [← hmanager]
      rfl
    rw [hexecution] at hx
    rw [managerCalls_append, managerCalls_append, managerCalls_of_told announcement_told,
      managerCalls_of_told hnotices, List.nil_append, List.append_nil]
    exact Execution.run_of_constant rfl hvalue rfl hlimit hv hx
  · intro hincomplete
    obtain ⟨cause, herr⟩ := Code.payload_of_incomplete hincomplete
    obtain ⟨failure, hp, rfl, rfl⟩ | ⟨data, _, _, _, _, hdata, _⟩ := run_path h
    · refine ⟨asked_notMem_announcement, cause, ?_⟩
      rw [hpayload, herr] at hp
      cases hp
      rfl
    · rw [hpayload, herr] at hdata
      cases hdata

def mathLibrary : Library := ⟨"Math.sol", "Math"⟩

def mathLink : Link where
  reference := ⟨mathLibrary, "0x00000000000000000000000000000000000000AA"⟩
  isWellNamed := by constructor <;> decide
  isChecked := rfl

def callingCode : Code .keccak where
  isMarked := true
  segments :=
    [.code ['6', '0'], .placeholder (Library.padded ['M', 'a', 't', 'h']), .code ['0', '0']]
  ofLibraries := by
    intro segment h
    simp only [List.mem_cons, List.not_mem_nil, or_false] at h
    obtain rfl | rfl | rfl := h
    · intro c hc
      simp only [List.mem_cons, List.not_mem_nil, or_false] at hc
      obtain rfl | rfl := hc <;> decide
    · exact ⟨mathLibrary, mathLink.isWellNamed, .tail _ (.tail _ (.head _))⟩
    · intro c hc
      simp only [List.mem_cons, List.not_mem_nil, or_false] at hc
      obtain rfl | rfl := hc <;> decide

def noArguments : Arguments := ⟨false, [], by simp⟩

def callingDeployment : Deployment where
  kind := {}
  manager := .inMemory (.text "0xAA")
  strategy := none
  binary := .text (LinkReference.link ([mathLink].map Link.reference) callingCode.text)
  arguments := .text noArguments.text

theorem mathLink_covers : mathLink.covers .keccak (Library.padded ['M', 'a', 't', 'h']) = true :=
  List.contains_iff_mem.mpr (.tail _ (.tail _ (.head _)))

theorem calling_creation :
    callingCode.creation [mathLink] noArguments = '6' :: '0' :: mathLink.digits ++ ['0', '0'] := by
  simp [Code.creation, Code.linkedSegments, callingCode, Segment.linked, mathLink_covers,
    Segment.join, Segment.text, noArguments]

theorem calling_isComplete : callingCode.IsComplete [mathLink] noArguments where
  isLinked := by
    intro t ht
    refine ⟨mathLink, by simp, ?_⟩
    simp only [callingCode, List.mem_cons, reduceCtorEq, Segment.placeholder.injEq, false_or,
      List.not_mem_nil, or_false] at ht
    rw [ht]
    exact mathLink_covers
  isEven := by
    simp [calling_creation, mathLink.length_digits]

theorem calling_code_submitted :
    ∃ es r m', callingDeployment.run.Path {} es r m' ∧ Execution.Converses {
          sender := .text "0xAA"
          recipient := .null
          data := .text ("0x" ++ String.ofList ('6' :: '0' :: mathLink.digits ++ ['0', '0']))
          value := .int 0 }
        9000000 true .default (managerCalls es) := by
  obtain ⟨es, r, m', h⟩ := Action.exists_path callingDeployment.run {}
  have hbinary : callingDeployment.binary =
      .text (LinkReference.link ([mathLink].map Link.reference) callingCode.text) := rfl
  have hsubmits := (linked_submits hbinary rfl rfl rfl rfl h).1 calling_isComplete _ rfl
  rw [calling_creation] at hsubmits
  exact ⟨es, r, m', h, hsubmits⟩

end Deployment
end EvmClient
