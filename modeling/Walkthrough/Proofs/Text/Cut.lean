import Mathlib.Data.List.Infix
import Walkthrough.Text.Cut

/-!
# Cuts

* `OnlyAtEnd` — behind a text a mark occurs where it stands and nowhere before.
* `cut?_append`, `onlyAtEnd_iff_cut?` — a text is cut at such a mark, and only at such a one.
* `cut?_eq_none_iff` — a text is cut if and only if the mark occurs in it.
* `eq_append_of_cut?`, `cut?_append_of_disjoint` — what a text is cut into, and what is passed over.
* `Spares`, `cut?_flatMap` — ways of writing a text that have nothing to do with a mark, and leave
  it where it was.
-/

set_option autoImplicit false

namespace Walkthrough.Text

variable {mark : List Char}

/-- A mark occurs in a text with the mark behind it only at the end. -/
def OnlyAtEnd (mark s : List Char) : Prop :=
  ∀ before after, s ++ mark = before ++ mark ++ after → after = []

theorem OnlyAtEnd.of_append {s t : List Char} (h : OnlyAtEnd mark (s ++ t)) :
    OnlyAtEnd mark t := by
  intro before after ht
  apply h (s ++ before) after
  rw [List.append_assoc, ht]
  simp only [List.append_assoc]

/-- A mark whose first character is not in a text occurs nowhere before the end. -/
theorem OnlyAtEnd.of_not_mem {c : Char} {m s : List Char} (h : c ∉ s) : OnlyAtEnd (c :: m) s := by
  intro before after heq
  rw [List.append_assoc, List.append_eq_append_iff] at heq
  rcases heq with ⟨t, rfl, ht⟩ | ⟨t, rfl, ht⟩
  · have hlength := congrArg List.length ht
    simp only [List.length_append, List.length_cons] at hlength
    exact List.length_eq_zero_iff.1 (by omega)
  · cases t with
    | nil => simpa using ht
    | cons d t =>
        obtain ⟨rfl, _⟩ := List.cons.inj ht
        exact absurd (List.mem_append_right _ List.mem_cons_self) h

theorem OnlyAtEnd.not_infix {s : List Char} (hmark : mark ≠ []) (h : OnlyAtEnd mark s) :
    ¬ mark <:+: s := by
  rintro ⟨before, after, rfl⟩
  have hnil := h before (after ++ mark) (by simp only [List.append_assoc])
  exact hmark (List.append_eq_nil_iff.1 hnil).2

/-- **A text is cut at a mark that occurs nowhere before.** -/
theorem cut?_append {s : List Char} (hmark : mark ≠ []) (h : OnlyAtEnd mark s) (rest : List Char) :
    cut? mark (s ++ mark ++ rest) = some (s, rest) := by
  induction s with
  | nil =>
      obtain ⟨c, m, rfl⟩ := List.exists_cons_of_ne_nil hmark
      have hstarts : (c :: m).isPrefixOf? (c :: (m ++ rest)) = some rest :=
        List.isPrefixOf?_eq_some_iff_append_eq.2 rfl
      rw [List.nil_append, List.cons_append, cut?, hstarts]
  | cons c s ih =>
      have hstarts : mark.isPrefixOf? (c :: (s ++ mark ++ rest)) = none := by
        refine Option.eq_none_iff_forall_ne_some.2 fun u hu => ?_
        have hu := List.isPrefixOf?_eq_some_iff_append_eq.1 hu
        have hstarts : mark <+: c :: s ++ mark := by
          refine List.prefix_of_prefix_length_le ⟨u, hu⟩ ⟨rest, rfl⟩ ?_
          rw [List.length_append]
          exact Nat.le_add_left _ _
        obtain ⟨v, hv⟩ := hstarts
        have hlength := congrArg List.length hv
        rw [h [] v hv.symm, List.length_append, List.length_append, List.length_cons,
          List.length_nil] at hlength
        omega
      have hih := ih (OnlyAtEnd.of_append (s := [c]) h)
      simp only [List.cons_append, cut?, hstarts, hih, Option.map_some]

/-- No mark occurs before the one a text is cut at. -/
theorem cut?_leftmost {s before rest : List Char} (h : cut? mark s = some (before, rest))
    {before' rest' : List Char} (hs : s = before' ++ mark ++ rest') :
    before.length ≤ before'.length := by
  induction s generalizing before before' with
  | nil =>
      rw [cut?] at h
      split at h
      · cases h
        exact Nat.zero_le _
      · cases h
  | cons c s ih =>
      rw [cut?] at h
      split at h
      · cases h
        exact Nat.zero_le _
      · rename_i hnone
        obtain ⟨⟨before₀, rest₀⟩, hcut, heq⟩ := Option.map_eq_some_iff.1 h
        cases heq
        cases before' with
        | nil =>
            rw [List.nil_append] at hs
            rw [List.isPrefixOf?_eq_some_iff_append_eq.2 hs.symm] at hnone
            cases hnone
        | cons d before' =>
            exact Nat.succ_le_succ (ih hcut (List.cons.inj hs).2)

/-- Whether a mark occurs only at the end can be seen by cutting. -/
theorem onlyAtEnd_iff_cut? {s : List Char} (hmark : mark ≠ []) :
    OnlyAtEnd mark s ↔ cut? mark (s ++ mark) = some (s, []) := by
  constructor
  · intro h
    have hcut := cut?_append hmark h []
    rwa [List.append_nil] at hcut
  · intro h before after heq
    have hle := cut?_leftmost h heq
    have hlength := congrArg List.length heq
    simp only [List.length_append] at hlength
    exact List.length_eq_zero_iff.1 (by omega)

/-- A text is cut if and only if the mark occurs in it. -/
theorem cut?_eq_none_iff {s : List Char} (hmark : mark ≠ []) :
    cut? mark s = none ↔ ¬ mark <:+: s := by
  induction s with
  | nil => simp [cut?, hmark]
  | cons c s ih =>
      rw [cut?, List.infix_cons_iff, not_or, ← ih]
      split
      · rename_i rest hrest
        have hstarts : mark <+: c :: s := ⟨rest, List.isPrefixOf?_eq_some_iff_append_eq.1 hrest⟩
        simp [hstarts]
      · rename_i hnone
        have hstarts : ¬ mark <+: c :: s := by
          rintro ⟨rest, hrest⟩
          rw [List.isPrefixOf?_eq_some_iff_append_eq.2 hrest] at hnone
          cases hnone
        simp [hstarts]

/-- A text that is cut consists of its parts with the mark between them. -/
theorem eq_append_of_cut? {s before rest : List Char} (h : cut? mark s = some (before, rest)) :
    s = before ++ mark ++ rest := by
  induction s generalizing before with
  | nil =>
      rw [cut?] at h
      split at h
      · rename_i hmark
        cases h
        rw [hmark]
        rfl
      · cases h
  | cons c s ih =>
      rw [cut?] at h
      split at h
      · rename_i hstarts
        cases h
        exact (List.isPrefixOf?_eq_some_iff_append_eq.1 hstarts).symm
      · obtain ⟨⟨before', rest'⟩, hcut, heq⟩ := Option.map_eq_some_iff.1 h
        cases heq
        rw [ih hcut]
        rfl

/-- Characters that the mark does not have in it are passed over. -/
theorem cut?_append_of_disjoint {s : List Char} (hmark : mark ≠ []) (h : ∀ c ∈ s, c ∉ mark)
    (t : List Char) :
    cut? mark (s ++ t) = (cut? mark t).map fun (before, rest) => (s ++ before, rest) := by
  induction s with
  | nil => simp
  | cons c s ih =>
      have hstarts : mark.isPrefixOf? (c :: (s ++ t)) = none := by
        obtain ⟨d, m, rfl⟩ := List.exists_cons_of_ne_nil hmark
        refine Option.eq_none_iff_forall_ne_some.2 fun u hu => ?_
        have hu := List.isPrefixOf?_eq_some_iff_append_eq.1 hu
        obtain ⟨rfl, _⟩ := List.cons.inj hu
        exact h d List.mem_cons_self List.mem_cons_self
      rw [List.cons_append, cut?, hstarts, ih fun d hd => h d (List.mem_cons_of_mem _ hd)]
      simp [Function.comp_def]

/-! ## Texts written in another way -/

section

variable {g : Char → List Char}

/-- A way of writing characters that has nothing to do with a mark: each character is written as it
is, or the mark has neither it nor what is written for it. -/
def Spares (g : Char → List Char) (mark : List Char) : Prop :=
  ∀ c, g c = [c] ∨ g c ≠ [] ∧ c ∉ mark ∧ ∀ d ∈ g c, d ∉ mark

theorem Spares.tail {d : Char} (h : Spares g (d :: mark)) : Spares g mark := by
  intro c
  rcases h c with hself | ⟨hne, hc, hmark⟩
  · exact .inl hself
  · exact .inr ⟨hne, fun hmem => hc (List.mem_cons_of_mem d hmem),
      fun e he hmem => hmark e he (List.mem_cons_of_mem d hmem)⟩

theorem isPrefixOf?_flatMap (h : Spares g mark) (s : List Char) :
    mark.isPrefixOf? (s.flatMap g) = (mark.isPrefixOf? s).map (List.flatMap g) := by
  induction mark generalizing s with
  | nil => rfl
  | cons d mark ih =>
      cases s with
      | nil => rfl
      | cons c s =>
          rcases h c with hself | ⟨hne, hc, hmark⟩
          · rw [List.flatMap_cons, hself, List.singleton_append, List.isPrefixOf?,
              List.isPrefixOf?, ih h.tail]
            split <;> rfl
          · obtain ⟨e, w, hw⟩ := List.exists_cons_of_ne_nil hne
            have he : (d == e) = false := by
              refine beq_false_of_ne ?_
              rintro rfl
              exact hmark d (by simp [hw]) List.mem_cons_self
            have hd : (d == c) = false := by
              refine beq_false_of_ne ?_
              rintro rfl
              exact hc List.mem_cons_self
            rw [List.flatMap_cons, hw, List.cons_append, List.isPrefixOf?, List.isPrefixOf?, he, hd]
            rfl

/-- A text is cut where it was cut before it was written. -/
theorem cut?_flatMap (hmark : mark ≠ []) (h : Spares g mark) (s : List Char) :
    cut? mark (s.flatMap g) =
      (cut? mark s).map (Prod.map (List.flatMap g) (List.flatMap g)) := by
  induction s with
  | nil => simp [cut?, hmark]
  | cons c s ih =>
      rcases h c with hself | ⟨_, hc, hmem⟩
      · have hstarts := isPrefixOf?_flatMap h (c :: s)
        rw [List.flatMap_cons, hself, List.singleton_append] at hstarts ⊢
        rw [cut?, cut?, hstarts, ih]
        cases mark.isPrefixOf? (c :: s) with
        | some rest => rfl
        | none => simp [Function.comp_def, Prod.map, hself]
      · have hskip := cut?_append_of_disjoint (s := [c]) hmark (by simpa using hc) s
        rw [List.flatMap_cons, cut?_append_of_disjoint hmark hmem, ih, ← List.singleton_append,
          hskip]
        simp [Function.comp_def, Prod.map]

end

end Walkthrough.Text
