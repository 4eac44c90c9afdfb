import EvmClient.Text.Search

/-!
# Where a text stands in another

A pattern stands at a place if it is what the rest of the text from there begins with. Cutting at
markers goes by the first such place. One pass of replacing is described by the recursion
`Rewrites`. If patterns have some character at both ends that no replacement has, then passes do not
get in each other's way: nothing that can be searched for comes to stand anywhere, so a pass does
away with its pattern for good.
-/

set_option autoImplicit false

namespace EvmClient

namespace Text

section

variable {α : Type} {pattern cs : List α}

def OccursAt (pattern cs : List α) (i : Nat) : Prop := pattern <+: cs.drop i

instance [DecidableEq α] (pattern cs : List α) (i : Nat) : Decidable (OccursAt pattern cs i) :=
  inferInstanceAs (Decidable (pattern <+: cs.drop i))

theorem OccursAt.isInfix {i : Nat} (h : OccursAt pattern cs i) : pattern <:+: cs :=
  List.IsInfix.trans (List.IsPrefix.isInfix h) (List.drop_suffix i cs).isInfix

theorem occursIn_iff_occursAt [DecidableEq α] :
    occursIn pattern cs = true ↔ ∃ i, OccursAt pattern cs i := by
  rw [occursIn_iff]
  constructor
  · intro hx
    obtain ⟨before, after, rfl⟩ := hx
    refine ⟨before.length, ?_⟩
    rw [OccursAt, List.append_assoc, List.drop_left]
    exact List.prefix_append pattern after
  · intro hx
    obtain ⟨i, h⟩ := hx
    exact h.isInfix

/-- Where text, or a list of anything else, is cut at markers: at the first place where one of them
stands, or at the end. -/
structure IsCut (markers : List (List α)) (cs : List α) (n : Nat) : Prop where
  le : n ≤ cs.length
  before : ∀ i < n, ∀ marker ∈ markers, ¬OccursAt marker cs i
  stands : n = cs.length ∨ ∃ marker ∈ markers, OccursAt marker cs n

instance [DecidableEq α] (markers : List (List α)) (cs : List α) (n : Nat) :
    Decidable (IsCut markers cs n) :=
  decidable_of_iff
    (n ≤ cs.length ∧ (∀ i < n, ∀ marker ∈ markers, ¬OccursAt marker cs i) ∧
      (n = cs.length ∨ ∃ marker ∈ markers, OccursAt marker cs n))
    ⟨fun ⟨le, before, stands⟩ => ⟨le, before, stands⟩, fun h => ⟨h.le, h.before, h.stands⟩⟩

variable {markers : List (List α)} {m n : Nat}

theorem IsCut.le_of_stands (h : IsCut markers cs n) {i : Nat} {marker : List α}
    (hmem : marker ∈ markers) (hoccurs : OccursAt marker cs i) : n ≤ i :=
  Nat.le_of_not_lt fun hi => h.before i hi marker hmem hoccurs

theorem IsCut.unique (h : IsCut markers cs n) (h' : IsCut markers cs m) : n = m := by
  have le : ∀ {k l : Nat}, IsCut markers cs k → IsCut markers cs l → k ≤ l := by
    intro k l hk hl
    obtain rfl | ⟨marker, hmem, hoccurs⟩ := hl.stands
    · exact hk.le
    · exact hk.le_of_stands hmem hoccurs
  exact Nat.le_antisymm (le h h') (le h' h)

theorem IsCut.cons {c : α} (h : IsCut markers cs n)
    (hfirst : ∀ marker ∈ markers, ¬marker <+: c :: cs) : IsCut markers (c :: cs) (n + 1) := by
  refine ⟨Nat.succ_le_succ h.le, ?_, h.stands.imp_left (congrArg (· + 1))⟩
  intro i hi marker hmem
  cases i with
  | zero => exact hfirst marker hmem
  | succ i => exact h.before i (Nat.lt_of_succ_lt_succ hi) marker hmem

end

theorem exists_beforeMarker (markers : List (List Char)) (cs : List Char) :
    ∃ n, IsCut markers cs n ∧ beforeMarker markers cs = cs.take n := by
  induction cs with
  | nil => exact ⟨0, ⟨Nat.le_refl 0, by simp, .inl rfl⟩, rfl⟩
  | cons c cs ih =>
    by_cases hmarker : markers.any (·.isPrefixOf (c :: cs)) = true
    · obtain ⟨marker, hmem, hbegins⟩ := List.any_eq_true.mp hmarker
      have hoccurs : OccursAt marker (c :: cs) 0 := List.isPrefixOf_iff_prefix.mp hbegins
      refine ⟨0, ⟨Nat.zero_le _, by simp, .inr ⟨marker, hmem, hoccurs⟩⟩, ?_⟩
      rw [beforeMarker, if_pos hmarker, List.take_zero]
    · obtain ⟨n, hcut, heq⟩ := ih
      refine ⟨n + 1, hcut.cons fun marker hmem hbegins => hmarker ?_, ?_⟩
      · exact List.any_eq_true.mpr ⟨marker, hmem, List.isPrefixOf_iff_prefix.mpr hbegins⟩
      · rw [beforeMarker, if_neg hmarker, heq, List.take_succ_cons]

variable {pattern replacement cs ds t : List Char} {edge : Char} {width i : Nat}

def Covered (pattern cs : List Char) (i : Nat) : Prop :=
  ∃ j, j ≤ i ∧ i < j + pattern.length ∧ OccursAt pattern cs j

theorem Covered.append (before : List Char) (h : Covered pattern cs i) :
    Covered pattern (before ++ cs) (before.length + i) := by
  obtain ⟨j, hj, hi, hoccurs⟩ := h
  refine ⟨before.length + j, by omega, by omega, ?_⟩
  rwa [OccursAt, List.drop_length_add_append]

/-- The text with occurrences of the pattern replaced, taken from the left. -/
inductive Rewrites (pattern replacement : List Char) : List Char → List Char → Prop where
  | nil : Rewrites pattern replacement [] []
  | keep {cs ds : List Char} (c : Char) (h : ¬pattern <+: c :: cs)
      (rest : Rewrites pattern replacement cs ds) :
      Rewrites pattern replacement (c :: cs) (c :: ds)
  | replace {cs ds : List Char} (rest : Rewrites pattern replacement cs ds) :
      Rewrites pattern replacement (pattern ++ cs) (replacement ++ ds)

theorem rewrites_replaceFrom (hp : pattern ≠ []) (skip : Nat) (cs : List Char) :
    Rewrites pattern replacement (cs.drop skip) (replaceFrom pattern replacement skip cs) := by
  induction cs generalizing skip with
  | nil =>
    rw [List.drop_nil]
    exact .nil
  | cons c cs ih =>
    cases skip with
    | succ skip => exact ih skip
    | zero =>
      rw [List.drop_zero, replaceFrom]
      split
      · rename_i hmatch
        obtain ⟨rest, hrest⟩ := List.isPrefixOf_iff_prefix.mp hmatch
        have hdrop : cs.drop (pattern.length - 1) = rest := by
          rw [← List.drop_succ_cons (a := c), Nat.sub_add_cancel (List.length_pos_iff.mpr hp),
            ← hrest, List.drop_left]
        rw [← hrest, ← hdrop]
        exact .replace (ih _)
      · rename_i hmatch
        exact .keep c (fun hbegins => hmatch (List.isPrefixOf_iff_prefix.mpr hbegins)) (ih 0)

theorem rewrites_replaceAll (hp : pattern ≠ []) (cs : List Char) :
    Rewrites pattern replacement cs (replaceAll pattern replacement cs) := by
  rw [replaceAll, if_neg (by simpa using hp)]
  exact rewrites_replaceFrom hp 0 cs

/-- A pattern of some width between two edges. -/
structure IsEdged (edge : Char) (width : Nat) (pattern : List Char) : Prop where
  first : pattern.head? = some edge
  last : pattern.getLast? = some edge
  length : pattern.length = width

structure IsEdgeless (edge : Char) (width : Nat) (cs : List Char) : Prop where
  clean : edge ∉ cs
  length : cs.length = width

theorem IsEdged.ne_nil (h : IsEdged edge width pattern) : pattern ≠ [] := by
  rintro rfl
  cases h.first

namespace Rewrites

theorem length_eq (h : Rewrites pattern replacement cs ds)
    (hl : pattern.length = replacement.length) : ds.length = cs.length := by
  induction h with
  | nil => rfl
  | keep c _ _ ih => rw [List.length_cons, List.length_cons, ih]
  | replace _ ih => rw [List.length_append, List.length_append, ih, hl]

theorem getElem?_eq (h : Rewrites pattern replacement cs ds)
    (hl : pattern.length = replacement.length) (i : Nat) :
    ds[i]? = cs[i]? ∨ Covered pattern cs i := by
  induction h generalizing i with
  | nil => exact .inl rfl
  | @keep cs ds c _ _ ih =>
    cases i with
    | zero => exact .inl rfl
    | succ i =>
      refine (ih i).imp_right fun hcovered => ?_
      rw [Nat.add_comm]
      exact hcovered.append [c]
  | @replace cs ds _ ih =>
    by_cases hi : i < pattern.length
    · exact .inr ⟨0, Nat.zero_le i, by omega, List.prefix_append pattern cs⟩
    · obtain ⟨k, rfl⟩ := Nat.exists_eq_add_of_le (Nat.le_of_not_lt hi)
      rw [List.getElem?_append_right (by omega), List.getElem?_append_right (by omega), hl,
        Nat.add_sub_cancel_left, ← hl]
      exact (ih k).imp_right (Covered.append pattern)

theorem begins_of_begins (h : Rewrites pattern replacement cs ds)
    (hr : IsEdgeless edge width replacement) (hlast : ∀ c, t.getLast? = some c → c = edge)
    (ht : t.length ≤ width) (hbegins : t <+: ds) : t <+: cs := by
  induction h generalizing t with
  | nil => exact hbegins
  | keep c _ _ ih =>
    cases t with
    | nil => exact List.nil_prefix
    | cons a t =>
      obtain ⟨rfl, hrest⟩ := List.cons_prefix_cons.mp hbegins
      refine List.cons_prefix_cons.mpr ⟨rfl, ih ?_ (Nat.le_of_succ_le ht) hrest⟩
      intro d hd
      exact hlast d (by rw [List.getLast?_cons, hd]; rfl)
  | @replace cs ds _ ih =>
    have hinside : t <+: replacement :=
      List.prefix_of_prefix_length_le hbegins (List.prefix_append _ _) (hr.length ▸ ht)
    cases hend : t.getLast? with
    | none =>
      rw [List.getLast?_eq_none_iff.mp hend]
      exact List.nil_prefix
    | some c =>
      obtain rfl := hlast c hend
      exact absurd (hinside.subset (List.mem_of_getLast? hend)) hr.clean

theorem occursAt (h : Rewrites pattern replacement cs ds)
    (hl : pattern.length = replacement.length) (hr : IsEdgeless edge width replacement)
    (ht : IsEdged edge width t) (hoccurs : OccursAt t ds i) : OccursAt t cs i ∧ t ≠ pattern := by
  induction h generalizing i with
  | nil =>
    rw [OccursAt, List.drop_nil] at hoccurs
    exact absurd (List.prefix_nil.mp hoccurs) ht.ne_nil
  | @keep cs ds c hno rest ih =>
    cases i with
    | succ i => exact ih hoccurs
    | zero =>
      have hlast : ∀ d, t.getLast? = some d → d = edge := by
        intro d hd
        rw [ht.last] at hd
        exact (Option.some.inj hd).symm
      have hbegins : t <+: c :: cs :=
        (Rewrites.keep c hno rest).begins_of_begins hr hlast (Nat.le_of_eq ht.length) hoccurs
      refine ⟨hbegins, ?_⟩
      rintro rfl
      exact hno hbegins
  | @replace cs ds _ ih =>
    by_cases hi : i < replacement.length
    · -- The first character of what stands here would be part of the replacement.
      obtain ⟨rest, rfl⟩ := List.head?_eq_some_iff.mp ht.first
      rw [OccursAt, List.drop_append_of_le_length (Nat.le_of_lt hi), List.drop_eq_getElem_cons hi,
        List.cons_append] at hoccurs
      obtain ⟨hfirst, _⟩ := List.cons_prefix_cons.mp hoccurs
      exact absurd (hfirst ▸ List.getElem_mem hi) hr.clean
    · obtain ⟨k, rfl⟩ := Nat.exists_eq_add_of_le (Nat.le_of_not_lt hi)
      rw [OccursAt, List.drop_length_add_append] at hoccurs
      obtain ⟨hold, hne⟩ := ih hoccurs
      refine ⟨?_, hne⟩
      rwa [OccursAt, ← hl, List.drop_length_add_append]

end Rewrites

/-! ## One pass after another -/

def replaceEach (passes : List (List Char × List Char)) (cs : List Char) : List Char :=
  passes.foldl (fun cs pass => replaceAll pass.1 pass.2 cs) cs

/-- The pattern has edges and its replacement has none, at one width. -/
structure IsPass (edge : Char) (width : Nat) (pass : List Char × List Char) : Prop where
  edged : IsEdged edge width pass.1
  edgeless : IsEdgeless edge width pass.2

namespace IsPass

variable {pass : List Char × List Char} {passes : List (List Char × List Char)}

theorem rewrites (h : IsPass edge width pass) (cs : List Char) :
    Rewrites pass.1 pass.2 cs (replaceAll pass.1 pass.2 cs) :=
  rewrites_replaceAll h.edged.ne_nil cs

theorem length_eq (h : IsPass edge width pass) : pass.1.length = pass.2.length :=
  h.edged.length.trans h.edgeless.length.symm

variable (h : ∀ pass ∈ passes, IsPass edge width pass)
include h

theorem length_replaceEach (cs : List Char) : (replaceEach passes cs).length = cs.length := by
  induction passes generalizing cs with
  | nil => rfl
  | cons pass passes ih =>
    have hpass := h pass List.mem_cons_self
    have hpasses : ∀ pass ∈ passes, IsPass edge width pass :=
      fun pass hmem => h pass (List.mem_cons_of_mem _ hmem)
    exact (ih hpasses _).trans ((hpass.rewrites cs).length_eq hpass.length_eq)

/-- Nothing that has edges comes to stand anywhere, and no pattern is left. -/
theorem occursAt_replaceEach {cs : List Char} (ht : IsEdged edge width t)
    (hoccurs : OccursAt t (replaceEach passes cs) i) :
    OccursAt t cs i ∧ ∀ pass ∈ passes, t ≠ pass.1 := by
  induction passes generalizing cs with
  | nil => exact ⟨hoccurs, by simp⟩
  | cons pass passes ih =>
    have hpass := h pass List.mem_cons_self
    obtain ⟨hbefore, hothers⟩ := ih (fun pass hmem => h pass (List.mem_cons_of_mem _ hmem)) hoccurs
    obtain ⟨hold, hne⟩ :=
      (hpass.rewrites cs).occursAt hpass.length_eq hpass.edgeless ht hbefore
    exact ⟨hold, List.forall_mem_cons.mpr ⟨hne, hothers⟩⟩

theorem occursIn_replaceEach {pass : List Char × List Char} (hmem : pass ∈ passes)
    (cs : List Char) : occursIn pass.1 (replaceEach passes cs) = false := by
  rw [← Bool.not_eq_true, occursIn_iff_occursAt]
  intro hx
  obtain ⟨i, hoccurs⟩ := hx
  exact (occursAt_replaceEach h (h pass hmem).edged hoccurs).2 pass hmem rfl

theorem getElem?_replaceEach (cs : List Char) (i : Nat) :
    (replaceEach passes cs)[i]? = cs[i]? ∨ ∃ pass ∈ passes, Covered pass.1 cs i := by
  induction passes generalizing cs with
  | nil => exact .inl rfl
  | cons pass passes ih =>
    have hpass := h pass List.mem_cons_self
    have hpasses : ∀ pass ∈ passes, IsPass edge width pass :=
      fun pass hmem => h pass (List.mem_cons_of_mem _ hmem)
    obtain hsame | ⟨later, hmem, j, hj, hi, hoccurs⟩ :=
      ih hpasses (replaceAll pass.1 pass.2 cs)
    · refine ((hpass.rewrites cs).getElem?_eq hpass.length_eq i).imp hsame.trans fun hcovered => ?_
      exact ⟨pass, List.mem_cons_self, hcovered⟩
    · have hold := (hpass.rewrites cs).occursAt hpass.length_eq hpass.edgeless
        (hpasses later hmem).edged hoccurs
      exact .inr ⟨later, List.mem_cons_of_mem _ hmem, j, hj, hi, hold.1⟩

theorem replaceEach_of_absent {cs : List Char}
    (habsent : ∀ pass ∈ passes, occursIn pass.1 cs = false) : replaceEach passes cs = cs := by
  refine List.ext_getElem? fun i => (getElem?_replaceEach h cs i).resolve_right ?_
  rintro ⟨pass, hmem, j, _, _, hoccurs⟩
  have hin := occursIn_iff_occursAt.mpr ⟨j, hoccurs⟩
  rw [habsent pass hmem] at hin
  cases hin

end IsPass

end Text
end EvmClient
