import Walkthrough.Proofs.Text.Trim
import Walkthrough.Document.Line

/-!
# The parts of an action line

* `Unmarked` — a text has no outline mark in it.
* `cutOutline_unmarked`, `cutOutline_marked` — a line of a name and options is cut at the mark
  behind its options, if there is one.
* `command?_word` — the name and the options of such a line.
-/

set_option autoImplicit false

namespace Walkthrough.Document

open Text

/-- A text has no outline mark in it: three colons between white space. -/
def Unmarked (s : List Char) : Prop :=
  ∀ t a b u, s = t ++ a :: ':' :: ':' :: ':' :: b :: u → isBlank a = true → isBlank b = false

theorem Unmarked.of_append {s t : List Char} (h : Unmarked (s ++ t)) : Unmarked t := by
  intro t' a b u ht ha
  exact h (s ++ t') a b u (by rw [ht, List.append_assoc]) ha

theorem Unmarked.left {s t : List Char} (h : Unmarked (s ++ t)) : Unmarked s := by
  intro s' a b u hs ha
  exact h s' a b (u ++ t) (by rw [hs, List.append_assoc]; rfl) ha

/-- A text without three colons in a row is unmarked. -/
theorem Unmarked.of_plain {s : List Char} (h : ¬ [':', ':', ':'] <:+: s) : Unmarked s := by
  intro t a b u hs _
  exact absurd ⟨t ++ [a], b :: u, by rw [hs]; simp⟩ h

/-! ## Characters of names -/

theorem isBlank_of_isWordChar {c : Char} (h : isWordChar c = true) : isBlank c = false := by
  simp only [isWordChar, Bool.or_eq_true, Bool.and_eq_true, decide_eq_true_eq] at h
  rcases h with ((⟨h₁, h₂⟩ | ⟨h₁, h₂⟩) | ⟨h₁, h₂⟩) | rfl
  · have h₁ : 'a'.toNat ≤ c.toNat := h₁
    have h₂ : c.toNat ≤ 'z'.toNat := h₂
    simp [isBlank] at h₁ h₂ ⊢
    omega
  · have h₁ : 'A'.toNat ≤ c.toNat := h₁
    have h₂ : c.toNat ≤ 'Z'.toNat := h₂
    simp [isBlank] at h₁ h₂ ⊢
    omega
  · have h₁ : '0'.toNat ≤ c.toNat := h₁
    have h₂ : c.toNat ≤ '9'.toNat := h₂
    simp [isBlank] at h₁ h₂ ⊢
    omega
  · decide

theorem ne_of_isWordChar {c d : Char} (hc : isWordChar c = true) (hd : isWordChar d = false) :
    c ≠ d := by
  rintro rfl
  rw [hc] at hd
  cases hd

/-! ## The outline mark -/

theorem outlineAt?_cons_of_ne {c : Char} (h : c ≠ ':') (s : List Char) :
    outlineAt? (c :: s) = none := by
  unfold outlineAt?
  split <;> simp_all

/-- There is no mark where no three colons stand before white space. -/
theorem outlineAt?_eq_none {s : List Char}
    (h : ∀ b u, s = ':' :: ':' :: ':' :: b :: u → isBlank b = false) :
    outlineAt? s = none := by
  unfold outlineAt?
  split
  · rename_i b u
    rw [h b u rfl]
    rfl
  · rfl

theorem cutMark?_cons_of_none {b : Bool} {c : Char} {s : List Char}
    (h : b = true → outlineAt? (c :: s) = none) :
    cutMark? b (c :: s) =
      (cutMark? (isBlank c) s).map fun (before, outline) => (c :: before, outline) := by
  have hnone : (if b = true then outlineAt? (c :: s) else none) = none := by
    split
    · rename_i hb
      exact h hb
    · rfl
  rw [cutMark?, hnone]

/-- An unmarked text is not cut; `p` is the character before it. -/
theorem cutMark?_unmarked {p : Char} {s : List Char} (h : Unmarked (p :: s)) :
    cutMark? (isBlank p) s = none := by
  induction s generalizing p with
  | nil => rfl
  | cons c s ih =>
      have hnone (hp : isBlank p = true) : outlineAt? (c :: s) = none :=
        outlineAt?_eq_none fun b u hs => h [] p b u (by rw [hs]; rfl) hp
      rw [cutMark?_cons_of_none hnone, ih (Unmarked.of_append (s := [p]) h)]
      rfl

/-- A text is cut at the mark behind it if there is none before; `p` is the character before it. -/
theorem cutMark?_marked {p : Char} {s outline : List Char} (h : Unmarked (p :: s ++ [' ']))
    (ho : trimStart outline = outline) (hne : outline ≠ []) :
    cutMark? (isBlank p) (s ++ [' ', ':', ':', ':', ' '] ++ outline) =
      some (s ++ [' '], outline) := by
  induction s generalizing p with
  | nil =>
      have hmark : outlineAt? (':' :: ':' :: ':' :: ' ' :: outline) = some outline := by
        simp [outlineAt?, ho, hne, show isBlank ' ' = true from rfl]
      have hblank : isBlank ' ' = true := rfl
      rw [List.nil_append, List.cons_append,
        cutMark?_cons_of_none fun _ => outlineAt?_cons_of_ne (by decide) _, hblank,
        List.cons_append, cutMark?]
      simp only [List.cons_append, List.nil_append, hmark, ↓reduceIte, Option.map_some]
  | cons c s ih =>
      -- white space comes before the mark, so a mark that begins earlier lies within `s ++ [' ']`
      have hnone (hp : isBlank p = true) :
          outlineAt? (c :: (s ++ [' ', ':', ':', ':', ' '] ++ outline)) = none := by
        refine outlineAt?_eq_none fun b u hs => ?_
        rcases s with _ | ⟨c₁, _ | ⟨c₂, _ | ⟨c₃, s⟩⟩⟩
        all_goals simp only [List.cons_append, List.nil_append, List.cons.injEq, Char.reduceEq,
          false_and, and_false] at hs
        · obtain ⟨rfl, rfl, rfl, rfl, _⟩ := hs
          exact h [] p ' ' [] rfl hp
        · obtain ⟨rfl, rfl, rfl, rfl, _⟩ := hs
          exact h [] p c₃ (s ++ [' ']) rfl hp
      rw [List.cons_append, List.cons_append, cutMark?_cons_of_none hnone,
        ih (Unmarked.of_append (s := [p]) h)]
      rfl

/-- Where no white space comes before it, a text without white space is passed over. -/
theorem cutMark?_append {w : List Char} (hw : ∀ c ∈ w, isBlank c = false) (s : List Char) :
    cutMark? false (w ++ s) =
      (cutMark? false s).map fun (before, outline) => (w ++ before, outline) := by
  induction w with
  | nil => simp
  | cons c w ih =>
      rw [List.cons_append, cutMark?_cons_of_none (b := false) nofun, hw c List.mem_cons_self,
        ih fun d hd => hw d (List.mem_cons_of_mem _ hd), Option.map_map]
      rfl

/-- A name and its colon are passed over. -/
theorem cutMark?_word {w : List Char} (hw : ∀ c ∈ w, isWordChar c = true) (s : List Char) :
    cutMark? false (w ++ ':' :: ' ' :: s) =
      (cutMark? true s).map fun (before, outline) => (w ++ ':' :: ' ' :: before, outline) := by
  have hcolon : isBlank ':' = false := rfl
  have hblank : isBlank ' ' = true := rfl
  rw [cutMark?_append fun c hc => isBlank_of_isWordChar (hw c hc),
    cutMark?_cons_of_none (b := false) nofun, hcolon, cutMark?_cons_of_none (b := false) nofun,
    hblank, Option.map_map, Option.map_map]
  rfl

/-! ## Lines -/

variable {w s : List Char}

theorem trim_of_isWordChar (hw : ∀ c ∈ w, isWordChar c = true) : trim w = w :=
  trim_eq_self_of_not_blank fun c hc => isBlank_of_isWordChar (hw c hc)

theorem trim_word (hw : ∀ c ∈ w, isWordChar c = true) (hne : w ≠ []) (hs : trim s = s)
    (hne' : s ≠ []) :
    trim (w ++ ':' :: ' ' :: s) = w ++ ':' :: ' ' :: s := by
  have hline : w ++ ':' :: ' ' :: s = w ++ [':', ' '] ++ s := by simp
  rw [hline]
  exact trim_trimmed_append (trim_of_isWordChar hw) hs hne hne'

theorem cutOutline_unmarked (hw : ∀ c ∈ w, isWordChar c = true) (hs : Unmarked (' ' :: s)) :
    cutOutline (w ++ ':' :: ' ' :: s) = (w ++ ':' :: ' ' :: s, none) := by
  have hcut : cutMark? true s = none := cutMark?_unmarked hs
  rw [cutOutline, cutMark?_word hw, hcut]
  rfl

theorem cutOutline_marked {outline : List Char} (hw : ∀ c ∈ w, isWordChar c = true) (hne : w ≠ [])
    (hs : Unmarked (' ' :: s ++ [' '])) (hends : trim s = s) (hne' : s ≠ [])
    (ho : trim outline = outline) (hne'' : outline ≠ []) :
    cutOutline (w ++ ':' :: ' ' :: s ++ [' ', ':', ':', ':', ' '] ++ outline) =
      (w ++ ':' :: ' ' :: s, some outline) := by
  have hcut : cutMark? true (s ++ [' ', ':', ':', ':', ' '] ++ outline) =
      some (s ++ [' '], outline) :=
    cutMark?_marked hs (trimStart_eq_self_iff.2 (trim_eq_self_iff.1 ho).1) hne''
  have hline : w ++ ':' :: ' ' :: s ++ [' ', ':', ':', ':', ' '] ++ outline =
      w ++ ':' :: ' ' :: (s ++ [' ', ':', ':', ':', ' '] ++ outline) := by simp
  have hbefore : w ++ ':' :: ' ' :: (s ++ [' ']) = w ++ ':' :: ' ' :: s ++ [' '] := by simp
  have hself : trimEnd (w ++ ':' :: ' ' :: s) = w ++ ':' :: ' ' :: s :=
    trimEnd_eq_self_iff.2 (trim_eq_self_iff.1 (trim_word hw hne hends hne')).2
  rw [hline, cutOutline, cutMark?_word hw, hcut, Option.map_some]
  simp only [hbefore]
  rw [trimEnd_append_of_blank (List.all_eq_true.1 (by decide)), hself]

/-- The name and the options of a line. -/
theorem command?_word (hw : ∀ c ∈ w, isWordChar c = true) (hne : w ≠ []) (hs : trim s = s)
    (hne' : s ≠ []) :
    command? (w ++ ':' :: ' ' :: s) = some (w, s) := by
  have hcolon : isWordChar ':' = false := rfl
  have hname : (w ++ ':' :: ' ' :: s).takeWhile isWordChar = w := by
    rw [List.takeWhile_append_of_pos hw, List.takeWhile_cons_of_neg (by simp [hcolon]),
      List.append_nil]
  have hrest : (w ++ ':' :: ' ' :: s).dropWhile isWordChar = ':' :: ' ' :: s := by
    rw [List.dropWhile_append_of_pos hw, List.dropWhile_cons_of_neg (by simp [hcolon])]
  have hoptions : trimStart (' ' :: s) = s := trimStart_eq_self_iff.2 (trim_eq_self_iff.1 hs).1
  have hstart : trimStart (':' :: ' ' :: s) = ':' :: ' ' :: s := rfl
  obtain ⟨c, w, rfl⟩ := List.exists_cons_of_ne_nil hne
  simp only [command?, hname, hrest, hstart, hoptions, if_neg hne']

end Walkthrough.Document
