import EvmClient.Abi.Type
import EvmClient.Proofs.Outcome

/-!
# Well-formed types

Every type that a text names is well-formed: integers have whole bytes and fit a word, fixed bytes
fit a word, and no array of fixed length and no tuple is empty. The last two come from the grammar,
in which no number begins with a zero and a tuple has a first member.
-/

set_option autoImplicit false

namespace EvmClient

namespace AbiType

/-- What holds of a tuple if it holds of its members, and of an array if of its item. -/
@[elab_as_elim]
theorem nested_induction {motive : AbiType → Prop} (uint : ∀ bits, motive (.uint bits))
    (int : ∀ bits, motive (.int bits)) (address : motive .address) (bool : motive .bool)
    (fixedBytes : ∀ n, motive (.fixedBytes n)) (bytes : motive .bytes) (string : motive .string)
    (array : ∀ item length, motive item → motive (.array item length))
    (tuple : ∀ members, (∀ t ∈ members, motive t) → motive (.tuple members)) (t : AbiType) :
    motive t :=
  AbiType.rec (motive_2 := fun ts => ∀ t ∈ ts, motive t) uint int address bool fixedBytes bytes
    string array tuple (by simp) (fun _ _ ht hts => List.forall_mem_cons.mpr ⟨ht, hts⟩) t

def IsWidth (bits : Nat) : Prop := ∃ width, bits = 8 * width ∧ 1 ≤ width ∧ width ≤ 32

inductive WellFormed : AbiType → Prop where
  | uint {bits : Nat} (h : IsWidth bits) : WellFormed (.uint bits)
  | int {bits : Nat} (h : IsWidth bits) : WellFormed (.int bits)
  | address : WellFormed .address
  | bool : WellFormed .bool
  | fixedBytes {n : Nat} (h : n ≤ 32) : WellFormed (.fixedBytes n)
  | bytes : WellFormed .bytes
  | string : WellFormed .string
  | array {item : AbiType} {length : Option Nat} (hlength : length ≠ some 0)
      (hitem : WellFormed item) : WellFormed (.array item length)
  | tuple {members : List AbiType} (hmembers : members ≠ [])
      (h : ∀ t ∈ members, WellFormed t) : WellFormed (.tuple members)

end AbiType

namespace TypeExpr

inductive IsProper : TypeExpr → Prop where
  | word {letters : String} {size : TypeSize} : IsProper (.word letters size)
  | array {item : TypeExpr} {length : Option Nat} (hlength : length ≠ some 0)
      (hitem : IsProper item) : IsProper (.array item length)
  | tuple {members : List TypeExpr} (hmembers : members ≠ [])
      (h : ∀ e ∈ members, IsProper e) : IsProper (.tuple members)

/-! ## Reading -/

theorem le_foldl_digits (acc : Nat) (cs : List Char) :
    acc ≤ cs.foldl (fun acc c => 10 * acc + (c.toNat - '0'.toNat)) acc := by
  induction cs generalizing acc with
  | nil => exact Nat.le_refl acc
  | cons c cs ih =>
    have := ih (10 * acc + (c.toNat - '0'.toNat))
    rw [List.foldl_cons]
    omega

theorem number?_pos {cs rest : List Char} {n : Nat} (h : number? cs = some (n, rest)) : n ≠ 0 := by
  unfold number? at h
  split at h
  · cases h
  · rename_i c cs
    split at h
    · rename_i hc
      simp only [Bool.and_eq_true, decide_eq_true_eq] at hc
      have hdigit : 49 ≤ c.toNat := hc.1
      have hle := le_foldl_digits (10 * 0 + (c.toNat - '0'.toNat)) (cs.takeWhile isDigit)
      have hzero : '0'.toNat = 48 := rfl
      simp only [Option.some.injEq, Prod.mk.injEq] at h
      rw [← h.1, digitsValue, List.foldl_cons]
      omega
    · cases h

theorem suffix?_ne_zero {cs rest : List Char} {length : Option Nat}
    (h : suffix? cs = some (length, rest)) : length ≠ some 0 := by
  unfold suffix? at h
  split at h
  · simp only [Option.some.injEq, Prod.mk.injEq] at h
    rw [← h.1]
    simp
  · split at h
    · rename_i hn
      simp only [Option.some.injEq, Prod.mk.injEq] at h
      rw [← h.1]
      simpa using number?_pos hn
    · cases h

def Token.IsProper : Token → Prop
  | .suffix length => length ≠ some 0
  | _ => True

theorem cons_isProper {t : Token} {o : Option (List Token)} {ts : List Token}
    (h : o.map (t :: ·) = some ts) (ht : t.IsProper)
    (ho : ∀ rest, o = some rest → ∀ t ∈ rest, t.IsProper) : ∀ t ∈ ts, t.IsProper := by
  obtain ⟨rest, hrest, rfl⟩ := Option.map_eq_some_iff.mp h
  intro u hu
  obtain rfl | hu := List.mem_cons.mp hu
  · exact ht
  · exact ho rest hrest u hu

theorem tokens?_isProper {cs : List Char} {ts : List Token} (h : tokens? cs = some ts) :
    ∀ t ∈ ts, t.IsProper := by
  fun_induction tokens? cs generalizing ts with
  | case1 =>
    cases h
    simp
  | case2 cs ih => exact cons_isProper h trivial fun _ => ih
  | case3 cs ih => exact cons_isProper h trivial fun _ => ih
  | case4 cs ih => exact cons_isProper h trivial fun _ => ih
  | case5 cs length rest hs _ ih => exact cons_isProper h (suffix?_ne_zero hs) fun _ => ih
  | case6 => cases h
  | case7 =>
    rename_i ih
    exact cons_isProper h trivial fun _ => ih
  | case8 => cases h

/-- Everything that has been read so far is proper. -/
def Sound (p : Progress) : Prop :=
  (∀ members ∈ p.1, ∀ e ∈ members, IsProper e) ∧ ∀ e, p.2 = some e → IsProper e

theorem shift_sound {p p' : Progress} {t : Token} (hp : Sound p) (ht : t.IsProper)
    (h : shift p t = some p') : Sound p' := by
  obtain ⟨hpending, hlast⟩ := hp
  unfold shift at h
  split at h
  · cases h
    refine ⟨hpending, ?_⟩
    intro e he
    cases he
    exact .word
  · cases h
    refine ⟨?_, fun e he => by cases he⟩
    intro members hm
    obtain rfl | hm := List.mem_cons.mp hm
    · simp
    · exact hpending members hm
  · cases h
    refine ⟨hpending, ?_⟩
    intro e he
    cases he
    exact .array ht (hlast _ rfl)
  · rename_i members pending e
    cases h
    refine ⟨?_, fun e he => by cases he⟩
    intro ms hm f hf
    obtain rfl | hm := List.mem_cons.mp hm
    · obtain hf | hf := List.mem_append.mp hf
      · exact hpending members (by simp) f hf
      · obtain rfl := List.mem_singleton.mp hf
        exact hlast f rfl
    · exact hpending ms (by simp [hm]) f hf
  · rename_i members pending e
    cases h
    refine ⟨fun ms hm => hpending ms (by simp [hm]), ?_⟩
    intro f hf
    cases hf
    refine .tuple (by simp) ?_
    intro f hf
    obtain hf | hf := List.mem_append.mp hf
    · exact hpending members (by simp) f hf
    · obtain rfl := List.mem_singleton.mp hf
      exact hlast f rfl
  · cases h

theorem foldlM_shift_sound {ts : List Token} {p p' : Progress} (hp : Sound p)
    (hts : ∀ t ∈ ts, t.IsProper) (h : ts.foldlM shift p = some p') : Sound p' := by
  induction ts generalizing p with
  | nil =>
    cases h
    exact hp
  | cons t ts ih =>
    rw [List.foldlM_cons] at h
    obtain ⟨p₁, hs, h⟩ := Option.bind_eq_some_iff.mp h
    exact ih (shift_sound hp (hts t (by simp)) hs) (fun t ht => hts t (by simp [ht])) h

theorem read?_isProper {s : String} {e : TypeExpr} (h : read? s = some e) : IsProper e := by
  obtain ⟨ts, hts, he⟩ := Option.bind_eq_some_iff.mp h
  unfold ofTokens? at he
  split at he
  · rename_i hfold
    cases he
    have hsound := foldlM_shift_sound (by simp [Sound]) (tokens?_isProper hts) hfold
    exact hsound.2 e rfl
  · cases he

/-! ## Types -/

theorem isWidth_of_isIntegerWidth {n : Nat} (h : isIntegerWidth n = true) :
    AbiType.IsWidth n := by
  simp only [isIntegerWidth, Bool.and_eq_true, decide_eq_true_eq, beq_iff_eq] at h
  exact ⟨n / 8, by omega, by omega, by omega⟩

theorem namedType_wellFormed {letters : String} {size : TypeSize} {t : AbiType}
    (hsize : isSizedWord letters size = true) (h : namedType letters size = .ok t) :
    t.WellFormed := by
  unfold namedType at h
  split at h <;> cases h
  · exact .uint (isWidth_of_isIntegerWidth hsize)
  · exact .int (isWidth_of_isIntegerWidth hsize)
  · exact .address
  · exact .bool
  · exact .fixedBytes (of_decide_eq_true hsize)
  · exact .bytes
  · exact .string

theorem areSized_iff {es : List TypeExpr} : areSized es = true ↔ ∀ e ∈ es, e.isSized = true := by
  induction es with
  | nil => simp [areSized]
  | cons e es ih => simp [areSized, ih]

theorem mem_denotedAll {es : List TypeExpr} {ts : List AbiType} (h : denotedAll es = .ok ts) :
    ts.length = es.length ∧ ∀ t ∈ ts, ∃ e ∈ es, e.denoted = .ok t := by
  induction es generalizing ts with
  | nil =>
    cases h
    simp
  | cons e es ih =>
    rw [denotedAll] at h
    obtain ⟨t, ht, h⟩ := bind_eq_ok.mp h
    obtain ⟨rest, hrest, h⟩ := bind_eq_ok.mp h
    cases h
    obtain ⟨hlength, hmem⟩ := ih hrest
    refine ⟨by simp [hlength], ?_⟩
    intro u hu
    obtain rfl | hu := List.mem_cons.mp hu
    · exact ⟨e, by simp, ht⟩
    · obtain ⟨f, hf, hd⟩ := hmem u hu
      exact ⟨f, by simp [hf], hd⟩

theorem denoted_wellFormed {e : TypeExpr} (he : e.IsProper) {t : AbiType}
    (hsize : e.isSized = true) (h : e.denoted = .ok t) : t.WellFormed := by
  induction he generalizing t with
  | word => exact namedType_wellFormed hsize h
  | @array item length hlength _ ih =>
    obtain ⟨u, hitem, rfl⟩ := map_eq_ok.mp h
    exact .array hlength (ih hsize hitem)
  | @tuple members hmembers _ ih =>
    obtain ⟨ts, hall, rfl⟩ := map_eq_ok.mp h
    obtain ⟨hlength, hmem⟩ := mem_denotedAll hall
    refine .tuple ?_ ?_
    · intro hnil
      rw [hnil] at hlength
      exact hmembers (List.length_eq_zero_iff.mp hlength.symm)
    · intro u hu
      obtain ⟨e, he, hd⟩ := hmem u hu
      exact ih e he (areSized_iff.mp hsize e he) hd

end TypeExpr

theorem AbiType.ofText_wellFormed {s : String} {t : AbiType} (h : ofText s = .ok t) :
    t.WellFormed := by
  unfold ofText at h
  split at h
  · rename_i e he
    split at h
    · unfold TypeExpr.resolve at h
      split at h
      · cases h
      · cases h
      · split at h
        · exact TypeExpr.denoted_wellFormed (TypeExpr.read?_isProper he) (by assumption) h
        · cases h
    · cases h
  · cases h

end EvmClient
