import Walkthrough.Proofs.Text.Trim
import Walkthrough.Text.Entity

/-!
# Entities

* `decode_encode` — a text comes back from its written form.
* `encode_eq_self_iff` — the texts that are their own written form.
* `mem_decode`, `decode_eq_nil_iff` — decoding brings in no other characters than those of entities,
  and loses no text.
* `trim_encode` — white space at the ends of a text is white space at the ends of its written form.
* `encode_eq_append_cons` — a character that no entity has in it parts the written form of a text
  where it parts the text.
-/

set_option autoImplicit false

namespace Walkthrough.Text.Entity

/-- The characters that entities are made of. -/
def inEntity (c : Char) : Bool := c ∈ ['&', 'a', 'm', 'p', 'l', 't', 'g', ';']

theorem isBlank_of_inEntity {c : Char} (h : inEntity c = true) : isBlank c = false := by
  simp only [inEntity, List.mem_cons, List.not_mem_nil, or_false, decide_eq_true_eq] at h
  rcases h with rfl | rfl | rfl | rfl | rfl | rfl | rfl | rfl <;> decide

@[simp] theorem encode_nil : encode [] = [] := rfl

@[simp] theorem encode_cons (c : Char) (s : List Char) :
    encode (c :: s) = encodeChar c ++ encode s := rfl

@[simp] theorem encode_append (s t : List Char) : encode (s ++ t) = encode s ++ encode t :=
    List.flatMap_append

/-! ## Characters -/

/-- A character is written as it is or as an entity. -/
theorem encodeChar_cases (c : Char) :
    encodeChar c = [c] ∨ (c = '&' ∨ c = '<' ∨ c = '>') ∧ ∀ d ∈ encodeChar c, inEntity d = true := by
  unfold encodeChar
  split
  · rename_i h
    exact .inr ⟨.inl h, List.all_eq_true.1 (by decide)⟩
  · split
    · rename_i h
      exact .inr ⟨.inr (.inl h), List.all_eq_true.1 (by decide)⟩
    · split
      · rename_i h
        exact .inr ⟨.inr (.inr h), List.all_eq_true.1 (by decide)⟩
      · exact .inl rfl

theorem encodeChar_begins (c : Char) : encodeChar c = [c] ∨ ∃ w, encodeChar c = '&' :: w := by
  unfold encodeChar
  split
  · exact .inr ⟨_, rfl⟩
  · split
    · exact .inr ⟨_, rfl⟩
    · split
      · exact .inr ⟨_, rfl⟩
      · exact .inl rfl

theorem encodeChar_eq_self_iff {c : Char} :
    encodeChar c = [c] ↔ c ≠ '&' ∧ c ≠ '<' ∧ c ≠ '>' := by
  constructor
  · intro h
    refine ⟨?_, ?_, ?_⟩ <;> rintro rfl <;> cases h
  · rintro ⟨hamp, hlt, hgt⟩
    rw [encodeChar, if_neg hamp, if_neg hlt, if_neg hgt]

theorem encodeChar_ne_nil (c : Char) : encodeChar c ≠ [] := by
  unfold encodeChar
  split <;> (try split) <;> (try split) <;> exact List.cons_ne_nil _ _

theorem isBlank_of_mem_encodeChar {c d : Char} (h : d ∈ encodeChar c) : isBlank d = isBlank c := by
  rcases encodeChar_cases c with hc | ⟨hc, hd⟩
  · rw [hc, List.mem_singleton] at h
    rw [h]
  · rw [isBlank_of_inEntity (hd d h)]
    rcases hc with rfl | rfl | rfl <;> rfl

/-- White space is written as it is. -/
theorem encodeChar_of_isBlank {c : Char} (h : isBlank c = true) : encodeChar c = [c] := by
  rcases encodeChar_cases c with hself | ⟨rfl | rfl | rfl, _⟩
  · exact hself
  all_goals cases h

theorem decode_cons {c : Char} (h : c ≠ '&') (s : List Char) : decode (c :: s) = c :: decode s := by
  rw [decode.eq_def]
  split <;> simp_all

theorem decode_encodeChar_append (c : Char) (s : List Char) :
    decode (encodeChar c ++ s) = c :: decode s := by
  unfold encodeChar
  split
  · rename_i h
    rw [h]
    rfl
  · split
    · rename_i h
      rw [h]
      rfl
    · split
      · rename_i h
        rw [h]
        rfl
      · rename_i h _ _
        exact decode_cons h s

/-! ## Texts -/

/-- **A text comes back from its written form.** -/
theorem decode_encode (s : List Char) : decode (encode s) = s := by
  induction s with
  | nil => rfl
  | cons c s ih => rw [encode_cons, decode_encodeChar_append, ih]

theorem mem_encode {s : List Char} {d : Char} (h : d ∈ encode s) : inEntity d = true ∨ d ∈ s := by
  obtain ⟨c, hc, hd⟩ := List.mem_flatMap.1 h
  rcases encodeChar_cases c with h | ⟨_, h⟩
  · rw [h, List.mem_singleton] at hd
    exact .inr (hd ▸ hc)
  · exact .inl (h d hd)

theorem encode_eq_nil_iff {s : List Char} : encode s = [] ↔ s = [] := by
  constructor
  · intro h
    have hs := decode_encode s
    rw [h] at hs
    exact hs.symm
  · rintro rfl
    rfl

theorem length_le_encode (s : List Char) : s.length ≤ (encode s).length := by
  induction s with
  | nil => exact Nat.le_refl _
  | cons c s ih =>
      have hc := List.length_pos_iff.2 (encodeChar_ne_nil c)
      rw [encode_cons, List.length_append, List.length_cons]
      omega

/-- The texts that are written as they are. -/
theorem encode_eq_self_iff {s : List Char} :
    encode s = s ↔ ∀ c ∈ s, c ≠ '&' ∧ c ≠ '<' ∧ c ≠ '>' := by
  simp only [← encodeChar_eq_self_iff]
  induction s with
  | nil => simp
  | cons c s ih =>
      rw [encode_cons, List.forall_mem_cons, ← ih]
      constructor
      · intro h
        -- Nothing is written shorter than it is, so the first character is written as one.
        have hle := length_le_encode s
        have hlength := congrArg List.length h
        rw [List.length_append, List.length_cons] at hlength
        have hc := List.length_pos_iff.2 (encodeChar_ne_nil c)
        exact List.append_inj h (by rw [List.length_singleton]; omega)
      · rintro ⟨hself, hs⟩
        rw [hself, hs, List.singleton_append]

/-- Decoding brings in nothing but what entities stand for. -/
theorem mem_decode {s : List Char} {d : Char} (h : d ∈ decode s) : d ∈ s ∨ d = '<' ∨ d = '>' := by
  fun_induction decode s <;> grind

theorem decode_eq_nil_iff {s : List Char} : decode s = [] ↔ s = [] := by
  fun_cases decode s <;> simp

/-- White space at the ends of a text is white space at the ends of its written form. -/
theorem trim_encode (s : List Char) : trim (encode s) = encode (trim s) :=
  trim_flatMap encodeChar_ne_nil (fun _ _ => isBlank_of_mem_encodeChar) s

/-- A character that no entity has in it parts the written form of a text where it parts the
text. -/
theorem encode_eq_append_cons {s t u : List Char} {d : Char} (hd : inEntity d = false)
    (h : encode s = t ++ d :: u) :
    ∃ s₁ s₂, s = s₁ ++ d :: s₂ ∧ encode s₁ = t ∧ encode s₂ = u := by
  induction s generalizing t with
  | nil => cases t <;> cases h
  | cons c s ih =>
      rw [encode_cons, List.append_eq_append_iff] at h
      rcases h with ⟨v, rfl, hv⟩ | ⟨v, hc, hv⟩
      · obtain ⟨s₁, s₂, rfl, rfl, rfl⟩ := ih hv
        exact ⟨c :: s₁, s₂, rfl, rfl, rfl⟩
      · cases v with
        | nil =>
            obtain ⟨s₁, s₂, rfl, h₁, rfl⟩ := ih (t := []) hv.symm
            refine ⟨c :: s₁, s₂, rfl, ?_, rfl⟩
            rw [encode_cons, h₁, hc, List.append_nil, List.append_nil]
        | cons e v =>
            obtain ⟨rfl, rfl⟩ := List.cons.inj hv
            rcases encodeChar_cases c with hself | ⟨_, hentity⟩
            · rw [hself] at hc
              obtain ⟨rfl, hc⟩ | ⟨_, _, hc⟩ := List.singleton_eq_append_iff.1 hc
              all_goals cases hc
              exact ⟨[], s, rfl, rfl, rfl⟩
            · rw [hentity d (hc ▸ List.mem_append_right _ List.mem_cons_self)] at hd
              cases hd

theorem encode_eq_cons {s u : List Char} {d : Char} (hd : inEntity d = false)
    (h : encode s = d :: u) :
    ∃ s', s = d :: s' ∧ encode s' = u := by
  obtain ⟨s₁, s₂, rfl, h₁, h₂⟩ := encode_eq_append_cons (t := []) hd h
  rw [encode_eq_nil_iff.1 h₁]
  exact ⟨s₂, rfl, h₂⟩

end Walkthrough.Text.Entity
