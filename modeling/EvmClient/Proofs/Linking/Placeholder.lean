import EvmClient.Library
import EvmClient.Proofs.Hex

/-!
# Where a placeholder can start

In every convention a placeholder is a body between underscores. A body can be told from the
underscores around it: two underscores side by side with another character behind them are the start
of a body, or the end of one with code behind it. `IsBody.not_prefix` says that a search for one
placeholder starts nowhere within another, whatever stands behind it.
-/

set_option autoImplicit false

namespace EvmClient

namespace Text

variable {pattern replacement xs ys : List Char}

theorem replaceFrom_append_of_no_start
    (h : ∀ s, s ≠ [] → s <:+ xs → ¬pattern <+: s ++ ys) :
    replaceFrom pattern replacement 0 (xs ++ ys) =
      xs ++ replaceFrom pattern replacement 0 ys := by
  induction xs with
  | nil => rfl
  | cons x xs ih =>
    have hx : pattern.isPrefixOf (x :: (xs ++ ys)) = false := by
      rw [Bool.eq_false_iff, ne_eq, List.isPrefixOf_iff_prefix]
      exact h (x :: xs) (by simp) List.suffix_rfl
    have hxs : ∀ s, s ≠ [] → s <:+ xs → ¬pattern <+: s ++ ys :=
      fun s hs hsuffix => h s hs (hsuffix.trans (List.suffix_cons x xs))
    simp [replaceFrom, hx, ih hxs]

theorem replaceFrom_skip (xs ys : List Char) :
    replaceFrom pattern replacement xs.length (xs ++ ys) =
      replaceFrom pattern replacement 0 ys := by
  induction xs with
  | nil => rfl
  | cons x xs ih => simpa [replaceFrom] using ih

theorem replaceFrom_pattern (hp : pattern ≠ []) :
    replaceFrom pattern replacement 0 (pattern ++ ys) =
      replacement ++ replaceFrom pattern replacement 0 ys := by
  cases pattern with
  | nil => exact absurd rfl hp
  | cons p ps =>
    have h : (p :: ps).isPrefixOf (p :: (ps ++ ys)) = true := by
      rw [List.isPrefixOf_iff_prefix]
      exact List.prefix_append (p :: ps) ys
    simp only [List.cons_append, replaceFrom, h, if_true, List.length_cons, Nat.add_sub_cancel]
    rw [replaceFrom_skip]

end Text

/-! ## Bodies between underscores -/

namespace Library

/-- Every underscore is followed by another character, so that two side by side mark an end. -/
def Separable : List Char → Prop
  | [] => True
  | c :: cs => (c = '_' → ∃ d rest, cs = d :: rest ∧ d ≠ '_') ∧ Separable cs

theorem Separable.suffix {s cs : List Char} (h : Separable cs) (hs : s <:+ cs) : Separable s := by
  induction cs with
  | nil => rwa [List.suffix_nil.mp hs]
  | cons c cs ih =>
    obtain rfl | hs := List.suffix_cons_iff.mp hs
    · exact h
    · exact ih h.2 hs

theorem separable_of_no_underscore {cs : List Char} (h : '_' ∉ cs) : Separable cs := by
  induction cs with
  | nil => trivial
  | cons c cs ih =>
    rw [List.mem_cons, not_or] at h
    exact ⟨fun hc => absurd hc.symm h.1, ih h.2⟩

theorem separable_of_no_pair {cs : List Char} (h : ¬['_', '_'] <:+: cs)
    (hlast : cs.getLast? ≠ some '_') : Separable cs := by
  induction cs with
  | nil => trivial
  | cons c cs ih =>
    have hcs : ¬['_', '_'] <:+: cs := fun hpair => h (hpair.trans (List.suffix_cons c cs).isInfix)
    cases cs with
    | nil => exact ⟨fun hc => absurd (by simp [hc]) hlast, trivial⟩
    | cons d rest =>
      refine ⟨?_, ih hcs (by simpa using hlast)⟩
      rintro rfl
      refine ⟨d, rest, rfl, ?_⟩
      rintro rfl
      exact h (List.prefix_append ['_', '_'] rest).isInfix

theorem Separable.cut {xs ys us vs : List Char} (hx : Separable xs) (hy : Separable ys)
    (h : xs ++ '_' :: '_' :: us = ys ++ '_' :: '_' :: vs) : xs = ys ∧ us = vs := by
  induction xs generalizing ys with
  | nil =>
    cases ys with
    | nil => simpa using h
    | cons y ys =>
      simp only [List.nil_append, List.cons_append, List.cons.injEq] at h
      obtain ⟨d, rest, rfl, hd⟩ := hy.1 h.1.symm
      simp only [List.cons_append, List.cons.injEq] at h
      exact absurd h.2.1.symm hd
  | cons x xs ih =>
    cases ys with
    | nil =>
      simp only [List.nil_append, List.cons_append, List.cons.injEq] at h
      obtain ⟨d, rest, rfl, hd⟩ := hx.1 h.1
      simp only [List.cons_append, List.cons.injEq] at h
      exact absurd h.2.1 hd
    | cons y ys =>
      simp only [List.cons_append, List.cons.injEq] at h
      obtain ⟨rfl, h⟩ := h
      obtain ⟨rfl, hus⟩ := ih hx.2 hy.2 h
      exact ⟨rfl, hus⟩

/-- What can stand between the underscores of a placeholder. A body that leaves room for only two
underscores behind it is no code. -/
structure IsBody (b : List Char) : Prop where
  separable : Separable b
  start : ∃ c rest, b = c :: rest ∧ c ≠ '_'
  short : b.length ≤ 36
  tight : b.length = 36 → ∃ c ∈ b, Hex.isDigit c = false

theorem padded_eq {b : List Char} (h : b.length ≤ 36) :
    padded b = '_' :: '_' :: (b ++ '_' :: '_' :: List.replicate (36 - b.length) '_') := by
  have hn : placeholderLength - b.length - 2 = (36 - b.length) + 1 + 1 := by
    simp only [placeholderLength]
    omega
  rw [padded, hn, List.replicate_succ, List.replicate_succ]
  rfl

def Opens (cs : List Char) : Prop := ∃ c rest, cs = '_' :: '_' :: c :: rest ∧ c ≠ '_'

theorem IsBody.opens {b : List Char} (hb : IsBody b) (ys : List Char) :
    Opens (padded b ++ ys) := by
  obtain ⟨c, rest, rfl, hc⟩ := hb.start
  exact ⟨c, _, rfl, hc⟩

theorem Opens.extend {cs ds : List Char} (h : Opens cs) (hp : cs <+: ds) : Opens ds := by
  obtain ⟨c, rest, rfl, hc⟩ := h
  obtain ⟨more, rfl⟩ := hp
  exact ⟨c, rest ++ more, rfl, hc⟩

theorem Separable.not_opens {cs ys : List Char} (h : Separable cs) (hcs : cs ≠ []) :
    ¬Opens (cs ++ ys) := by
  intro hopens
  obtain ⟨c, rest, heq, hc⟩ := hopens
  cases cs with
  | nil => exact hcs rfl
  | cons a cs =>
    simp only [List.cons_append, List.cons.injEq] at heq
    obtain ⟨d, more, rfl, hd⟩ := h.1 heq.1
    simp only [List.cons_append, List.cons.injEq] at heq
    exact hd heq.2.1

/-- Text as it can follow a placeholder: some code, and then the end or another placeholder. -/
def Resumes (ys : List Char) : Prop :=
  ∃ digits rest, ys = digits ++ rest ∧ (∀ c ∈ digits, Hex.isDigit c = true) ∧
    (rest = [] ∨ Opens rest)

theorem Resumes.start {c : Char} {ys : List Char} (h : Resumes (c :: ys)) (hc : c = '_') :
    Opens (c :: ys) := by
  obtain ⟨digits, rest, heq, hdigits, hrest⟩ := h
  cases digits with
  | nil =>
    obtain rfl | hopens := hrest
    · cases heq
    · rw [heq]
      exact hopens
  | cons d digits =>
    obtain ⟨rfl, _⟩ := List.cons.inj heq
    exact absurd hc (Hex.ne_underscore_of_digit (hdigits c (by simp)))

theorem replicate_opens {n : Nat} {ys : List Char} (hn : n ≠ 0) (hy : Resumes ys)
    (h : Opens (List.replicate n '_' ++ ys)) : n = 2 ∧ ∃ c rest, ys = c :: rest ∧ c ≠ '_' := by
  obtain ⟨c, rest, heq, hc⟩ := h
  match n with
  | 0 => exact absurd rfl hn
  | 1 =>
    simp only [List.replicate_one, List.singleton_append, List.cons.injEq, true_and] at heq
    obtain ⟨d, more, hopens, hd⟩ := (heq ▸ hy).start rfl
    simp only [List.cons.injEq, true_and] at hopens
    exact absurd hopens.1 hc
  | 2 =>
    simp only [List.replicate, List.cons_append, List.nil_append, List.cons.injEq,
      true_and] at heq
    exact ⟨rfl, c, rest, heq, hc⟩
  | n + 3 =>
    simp only [List.replicate_succ, List.cons_append, List.cons.injEq, true_and] at heq
    exact absurd heq.1.symm hc

theorem IsBody.opens_at {b s ys : List Char} (hb : IsBody b) (hs : s ≠ [])
    (hsuffix : s <:+ padded b) (hy : Resumes ys) (h : Opens (s ++ ys)) :
    s = padded b ∨ (s = ['_', '_'] ∧ ∃ c rest, ys = c :: rest ∧ c ≠ '_') := by
  have hpadded : padded b = '_' :: '_' :: (b ++ List.replicate (38 - b.length) '_') := by
    rw [padded_eq hb.short, ← List.replicate_succ, ← List.replicate_succ]
    have := hb.short
    congr 4
    omega
  rw [hpadded] at hsuffix
  obtain rfl | hsuffix := List.suffix_cons_iff.mp hsuffix
  · exact .inl hpadded.symm
  obtain rfl | ⟨before, hsuffix⟩ := List.suffix_cons_iff.mp hsuffix
  · obtain ⟨c, rest, rfl, hc⟩ := hb.start
    obtain ⟨d, more, heq, _⟩ := h
    simp only [List.cons_append, List.cons.injEq, true_and] at heq
    exact absurd heq.1 hc
  obtain ⟨part, hpart, rfl⟩ | ⟨_, _, hrest⟩ := List.append_eq_append_iff.mp hsuffix
  · cases part with
    | nil =>
      have hn : 38 - b.length ≠ 0 := by
        have := hb.short
        omega
      obtain ⟨hn, hstart⟩ := replicate_opens hn hy h
      rw [hn]
      exact .inr ⟨rfl, hstart⟩
    | cons c part =>
      have hseparable := hb.separable.suffix ⟨before, hpart.symm⟩
      rw [List.append_assoc] at h
      exact absurd h (hseparable.not_opens (by simp))
  · have hreplicate := (List.suffix_replicate_iff.mp ⟨_, hrest.symm⟩).2
    rw [hreplicate] at h ⊢
    obtain ⟨hn, hstart⟩ := replicate_opens (by simpa using hs) hy h
    rw [hn]
    exact .inr ⟨rfl, hstart⟩

theorem IsBody.not_prefix {b q s ys : List Char} (hq : IsBody q) (hb : IsBody b) (hne : b ≠ q)
    (hy : Resumes ys) (hs : s ≠ []) (hsuffix : s <:+ padded b) : ¬padded q <+: s ++ ys := by
  intro hprefix
  have hopens : Opens (s ++ ys) :=
    (List.append_nil (padded q) ▸ hq.opens []).extend hprefix
  obtain ⟨more, heq⟩ := hprefix
  rw [padded_eq hq.short] at heq
  obtain rfl | ⟨rfl, c, rest, hc, hcne⟩ := hb.opens_at hs hsuffix hy hopens
  · rw [padded_eq hb.short] at heq
    simp only [List.cons_append, List.append_assoc, List.cons.injEq, true_and] at heq
    exact hne (hq.separable.cut hb.separable heq).1.symm
  · simp only [List.cons_append, List.append_assoc, List.nil_append, List.cons.injEq,
      true_and] at heq
    obtain ⟨digits, last, rfl, hdigits, rfl | ⟨d, after, rfl, hd⟩⟩ := hy
    · have hmem : '_' ∈ digits ++ [] := by
        rw [← heq]
        simp
      rw [List.append_nil] at hmem
      exact Hex.ne_underscore_of_digit (hdigits _ hmem) rfl
    · have hno : '_' ∉ digits := fun hmem => Hex.ne_underscore_of_digit (hdigits _ hmem) rfl
      obtain ⟨rfl, hrest⟩ := hq.separable.cut (separable_of_no_underscore hno) heq
      have hlength : q.length = 36 := by
        have hle := hq.short
        cases hk : 36 - q.length with
        | zero => omega
        | succ k =>
          rw [hk, List.replicate_succ] at hrest
          exact absurd (List.cons.inj hrest).1.symm hd
      obtain ⟨e, he, hdigit⟩ := hq.tight hlength
      exact absurd (hdigits e he) (ne_true_of_eq_false hdigit)

/-- No file or name has an underscore at its ends or two side by side, and there is room for the
underscores of a placeholder. -/
structure IsWellNamed (l : Library) : Prop where
  source : l.source ≠ ""
  name : l.name ≠ ""
  noPair : Text.occursIn ['_', '_'] l.qualifiedName.toList = false
  qualifiedStart : l.qualifiedName.toList.head? ≠ some '_'
  qualifiedEnd : l.qualifiedName.toList.getLast? ≠ some '_'
  nameStart : l.name.toList.head? ≠ some '_'
  nameEnd : l.name.toList.getLast? ≠ some '_'
  short : l.qualifiedName.toList.length ≤ 36

theorem qualifiedName_toList (l : Library) :
    l.qualifiedName.toList = l.source.toList ++ ':' :: l.name.toList := by
  simp [qualifiedName]

theorem start_of_head {cs : List Char} (hcs : cs ≠ []) (h : cs.head? ≠ some '_') :
    ∃ c rest, cs = c :: rest ∧ c ≠ '_' := by
  cases cs with
  | nil => exact absurd rfl hcs
  | cons c rest => exact ⟨c, rest, rfl, fun hc => h (by simp [hc])⟩

theorem IsWellNamed.qualified_isBody {l : Library} (h : l.IsWellNamed) :
    IsBody l.qualifiedName.toList where
  separable := by
    refine separable_of_no_pair ?_ h.qualifiedEnd
    rw [← Text.occursIn_iff, h.noPair]
    simp
  start := start_of_head (by simp [qualifiedName_toList]) h.qualifiedStart
  short := h.short
  tight := fun _ => ⟨':', by simp [qualifiedName_toList], by decide⟩

theorem IsWellNamed.name_isBody {l : Library} (h : l.IsWellNamed) : IsBody l.name.toList := by
  have hlength : l.name.toList.length ≤ 34 := by
    have hsource : l.source.toList.length ≠ 0 := by simpa using h.source
    have hshort := h.short
    rw [qualifiedName_toList, List.length_append, List.length_cons] at hshort
    omega
  refine ⟨?_, start_of_head (by simpa using h.name) h.nameStart, by omega, ?_⟩
  · refine h.qualified_isBody.separable.suffix ⟨l.source.toList ++ [':'], ?_⟩
    simp [qualifiedName_toList]
  · intro htight
    omega

def hashBody (hash : List UInt8) : List Char :=
  '$' :: ((Hex.chars hash).take hashDigits ++ ['$'])

theorem hashBody_isBody {hash : List UInt8} (h : hash.length = 32) :
    IsBody (hashBody hash) ∧ hashed hash = padded (hashBody hash) := by
  have hlength : (hashBody hash).length = 36 := by
    simp [hashBody, hashDigits, Hex.length_chars, h]
  have hno : '_' ∉ hashBody hash := by
    intro hmem
    simp only [hashBody, List.mem_cons, List.mem_append, List.not_mem_nil, or_false] at hmem
    obtain hc | hc | hc := hmem
    · exact absurd hc (by decide)
    · exact Hex.ne_underscore_of_digit (Hex.isDigit_of_mem_chars (List.mem_of_mem_take hc)) rfl
    · exact absurd hc (by decide)
  refine ⟨⟨separable_of_no_underscore hno, ⟨'$', _, rfl, by decide⟩, Nat.le_of_eq hlength, ?_⟩, ?_⟩
  · intro _
    exact ⟨'$', by simp [hashBody], by decide⟩
  · rw [padded_eq (Nat.le_of_eq hlength), hlength]
    simp [hashed, hashBody]

theorem IsWellNamed.placeholder_padded {l : Library} {k : TextHash} (h : l.IsWellNamed)
    {p : List Char} (hp : p ∈ l.placeholders k) : ∃ b, IsBody b ∧ p = padded b := by
  simp only [placeholders, List.mem_cons, List.not_mem_nil, or_false] at hp
  obtain rfl | rfl | rfl := hp
  · exact ⟨_, hashBody_isBody (k.length_hash _)⟩
  · exact ⟨_, h.qualified_isBody, rfl⟩
  · exact ⟨_, h.name_isBody, rfl⟩

end Library

end EvmClient
