import Walkthrough.Proofs.Text.Entity

/-!
# Decoding in passes and in pieces

Entities are decoded in one pass. Three passes over the whole text, one for each entity, come to the
same if the ampersands come last: what a pass puts in does not complete an entity for a later one.
And a text can be decoded in pieces, wherever it is cut, unless the cut goes through an entity.

* `replaceAll` — replaces the occurrences of a mark, in one pass.
* `Entity.induction` — a text is empty, or begins with an entity or with a character by itself.
* `isPrefix_of_replaceAll` — a word that comes to stand at the beginning of a text stood there
  before.
* `decode_eq_replaceAll`, `decodeEntities_eq_replaceAll` — decoding as three passes.
* `Entity.Straddles` — an entity begins in a text and ends in the next one.
* `decode_append`, `decode_append_ne`, `decodeEntities_pieces` — the texts that can be decoded in
  pieces.
-/

set_option autoImplicit false

namespace Walkthrough.Text

/-! ## Replacing -/

/-- Replaces the occurrences of a mark, in one pass from left to right. What is put in is not looked
at again. -/
def replaceAll (mark replacement : List Char) : List Char → List Char
  | [] => []
  | c :: s =>
    if mark ≠ [] ∧ mark <+: c :: s then
      replacement ++ replaceAll mark replacement ((c :: s).drop mark.length)
    else c :: replaceAll mark replacement s
termination_by s => s.length
decreasing_by
  · rename_i h
    have hmark := List.length_pos_iff.2 h.1
    rw [List.length_drop, List.length_cons]
    omega
  · exact Nat.lt_succ_self _

variable {mark r s : List Char}

theorem replaceAll_mark_append (hmark : mark ≠ []) (r s : List Char) :
    replaceAll mark r (mark ++ s) = r ++ replaceAll mark r s := by
  obtain ⟨c, m, rfl⟩ := List.exists_cons_of_ne_nil hmark
  have hstarts : c :: m ≠ [] ∧ c :: m <+: c :: (m ++ s) := ⟨hmark, s, rfl⟩
  rw [List.cons_append, replaceAll, if_pos hstarts, ← List.cons_append, List.drop_left]

theorem replaceAll_cons {c : Char} (h : ¬ mark <+: c :: s) (r : List Char) :
    replaceAll mark r (c :: s) = c :: replaceAll mark r s := by
  rw [replaceAll, if_neg fun hstarts => h hstarts.2]

/-- A text without the first character of a mark is passed over. -/
theorem replaceAll_append_of_not_mem {d : Char} {w : List Char} (h : d ∉ w) (m r s : List Char) :
    replaceAll (d :: m) r (w ++ s) = w ++ replaceAll (d :: m) r s := by
  induction w with
  | nil => rfl
  | cons c w ih =>
      rw [List.mem_cons, not_or] at h
      have hstarts : ¬ d :: m <+: c :: (w ++ s) := fun hp => h.1 (List.cons_prefix_cons.1 hp).1
      rw [List.cons_append, replaceAll_cons hstarts, ih h.2, List.cons_append]

/-- A word without what was put in, which has come to stand at the beginning of a text, stood there
before. -/
theorem isPrefix_of_replaceAll {d : Char} {w s : List Char} (hd : d ∉ w)
    (h : w <+: replaceAll mark [d] s) : w <+: s := by
  induction w generalizing s with
  | nil => exact List.nil_prefix
  | cons e w ih =>
      rw [List.mem_cons, not_or] at hd
      cases s with
      | nil =>
          rw [replaceAll] at h
          exact h
      | cons c s =>
          rw [replaceAll] at h
          split at h
          · exact absurd (List.cons_prefix_cons.1 h).1.symm hd.1
          · obtain ⟨hc, hw⟩ := List.cons_prefix_cons.1 h
            exact List.cons_prefix_cons.2 ⟨hc, ih hd.2 hw⟩

namespace Entity

/-! ## Entities -/

/-- The characters that have an entity. -/
def named : List Char := ['<', '>', '&']

theorem mem_named {d : Char} : d ∈ named ↔ d = '<' ∨ d = '>' ∨ d = '&' := by
  simp only [named, List.mem_cons, List.not_mem_nil, or_false]

/-- An entity is an ampersand with other characters behind it. -/
theorem encodeChar_eq_cons {d : Char} (h : d ∈ named) :
    ∃ w, encodeChar d = '&' :: w ∧ w.length ≥ 3 ∧ '&' ∉ w ∧ '<' ∉ w ∧ '>' ∉ w := by
  rcases mem_named.1 h with rfl | rfl | rfl
  · exact ⟨['l', 't', ';'], rfl, by decide⟩
  · exact ⟨['g', 't', ';'], rfl, by decide⟩
  · exact ⟨['a', 'm', 'p', ';'], rfl, by decide⟩

/-- No entity is the beginning of another one. -/
theorem eq_of_encodeChar_isPrefix {d e : Char} (hd : d ∈ named) (he : e ∈ named)
    (h : encodeChar d <+: encodeChar e) : d = e := by
  have hall : ∀ d ∈ named, ∀ e ∈ named, encodeChar d <+: encodeChar e → d = e := by
    simp [named, encodeChar, List.cons_prefix_cons]
  exact hall d hd e he h

/-- A text begins no entity. -/
def Plain (s : List Char) : Prop := ∀ d ∈ named, ¬ encodeChar d <+: s

theorem Plain.of_ne {c : Char} (h : c ≠ '&') (s : List Char) : Plain (c :: s) := by
  intro d hd hstarts
  obtain ⟨w, hw, _⟩ := encodeChar_eq_cons hd
  rw [hw] at hstarts
  exact h (List.cons_prefix_cons.1 hstarts).1.symm

/-- A text is empty, or begins with an entity, or begins with a character but with no entity. -/
@[elab_as_elim]
theorem induction {P : List Char → Prop} (s : List Char) (nil : P [])
    (entity : ∀ d ∈ named, ∀ s, P s → P (encodeChar d ++ s))
    (cons : ∀ c s, Plain (c :: s) → P s → P (c :: s)) : P s := by
  fun_induction decode s with
  | case1 => exact nil
  | case2 s ih => exact entity '<' (by decide) s ih
  | case3 s ih => exact entity '>' (by decide) s ih
  | case4 s ih => exact entity '&' (by decide) s ih
  | case5 c s hlt hgt hamp ih =>
      refine cons c s ?_ ih
      rintro d hd ⟨t, ht⟩
      rcases mem_named.1 hd with rfl | rfl | rfl <;> cases ht
      · exact hlt t rfl rfl
      · exact hgt t rfl rfl
      · exact hamp t rfl rfl

theorem decode_of_plain {c : Char} {s : List Char} (h : Plain (c :: s)) :
    decode (c :: s) = c :: decode s := by
  rw [decode.eq_def]
  split
  · rename_i heq
    cases heq
  · rename_i t heq
    exact absurd ⟨t, heq.symm⟩ (h '<' (by decide))
  · rename_i t heq
    exact absurd ⟨t, heq.symm⟩ (h '>' (by decide))
  · rename_i t heq
    exact absurd ⟨t, heq.symm⟩ (h '&' (by decide))
  · rename_i heq
    cases heq
    rfl

/-! ## Three passes -/

/-- Replaces the entity of a character by the character. -/
def replaceEntity (d : Char) (s : List Char) : List Char := replaceAll (encodeChar d) [d] s

theorem replaceEntity_self (d : Char) (s : List Char) :
    replaceEntity d (encodeChar d ++ s) = d :: replaceEntity d s :=
  replaceAll_mark_append (encodeChar_ne_nil d) [d] s

/-- A pass leaves other entities alone. -/
theorem replaceEntity_other {d e : Char} (hd : d ∈ named) (he : e ∈ named) (h : d ≠ e)
    (s : List Char) : replaceEntity d (encodeChar e ++ s) = encodeChar e ++ replaceEntity d s := by
  have hstarts : ¬ encodeChar d <+: encodeChar e ++ s := by
    intro hp
    rcases List.prefix_or_prefix_of_prefix hp (List.prefix_append _ s) with hp | hp
    · exact h (eq_of_encodeChar_isPrefix hd he hp)
    · exact h (eq_of_encodeChar_isPrefix he hd hp).symm
  obtain ⟨m, hm, _⟩ := encodeChar_eq_cons hd
  obtain ⟨w, hw, _, hamp, _⟩ := encodeChar_eq_cons he
  rw [hw, List.cons_append] at hstarts ⊢
  rw [replaceEntity, replaceAll_cons hstarts, hm, replaceAll_append_of_not_mem hamp, ← hm]
  rfl

theorem replaceEntity_cons {c d : Char} {s : List Char} (h : ¬ encodeChar d <+: c :: s) :
    replaceEntity d (c :: s) = c :: replaceEntity d s :=
  replaceAll_cons h [d]

/-- A pass does not complete an entity that the next pass would replace. -/
theorem prefix_of_replaceEntity {d e : Char} (hd : d ≠ '&') (hd' : d ∈ named) (he : e ∈ named)
    {s : List Char} (h : encodeChar e <+: replaceEntity d s) : encodeChar e <+: s := by
  refine isPrefix_of_replaceAll ?_ h
  obtain ⟨w, hw, _, _, hlt, hgt⟩ := encodeChar_eq_cons he
  rw [hw, List.mem_cons, not_or]
  refine ⟨hd, ?_⟩
  rcases mem_named.1 hd' with rfl | rfl | rfl
  · exact hlt
  · exact hgt
  · exact absurd rfl hd

/-- **Decoding is three passes over the text**, the last one for ampersands. -/
theorem decode_eq_replaceEntity (s : List Char) :
    decode s = replaceEntity '&' (replaceEntity '>' (replaceEntity '<' s)) := by
  have hlt : '<' ∈ named := by decide
  have hgt : '>' ∈ named := by decide
  have hamp : '&' ∈ named := by decide
  induction s using Entity.induction with
  | nil => simp only [replaceEntity, replaceAll, decode]
  | entity d hd s ih =>
      rw [decode_encodeChar_append, ih]
      rcases mem_named.1 hd with rfl | rfl | rfl
      · rw [replaceEntity_self, replaceEntity_cons (Plain.of_ne (by decide) _ _ hgt),
          replaceEntity_cons (Plain.of_ne (by decide) _ _ hamp)]
      · rw [replaceEntity_other hlt hgt (by decide), replaceEntity_self,
          replaceEntity_cons (Plain.of_ne (by decide) _ _ hamp)]
      · rw [replaceEntity_other hlt hamp (by decide), replaceEntity_other hgt hamp (by decide),
          replaceEntity_self]
  | cons c s h ih =>
      -- No entity begins here, and none begins here after a pass either.
      have hfirst := replaceEntity_cons (h '<' hlt)
      have hsecond : replaceEntity '>' (c :: replaceEntity '<' s) =
          c :: replaceEntity '>' (replaceEntity '<' s) := by
        refine replaceEntity_cons fun hp => h '>' hgt ?_
        rw [← hfirst] at hp
        exact prefix_of_replaceEntity (by decide) hlt hgt hp
      have hthird : ¬ encodeChar '&' <+: c :: replaceEntity '>' (replaceEntity '<' s) := by
        intro hp
        rw [← hsecond, ← hfirst] at hp
        have hp := prefix_of_replaceEntity (by decide) hgt hamp hp
        exact h '&' hamp (prefix_of_replaceEntity (by decide) hlt hamp hp)
      rw [decode_of_plain h, ih, hfirst, hsecond, replaceEntity_cons hthird]

/-! ## Pieces -/

/-- An entity of a text that consists of two parts begins in the first and ends in the second. -/
def Straddles (a b : List Char) : Prop :=
  ∃ d ∈ named, ∃ p q, p ≠ [] ∧ q ≠ [] ∧ p ++ q = encodeChar d ∧ p <:+ a ∧ q <+: b

theorem Straddles.of_append {a b x : List Char} (h : Straddles a b) : Straddles (x ++ a) b := by
  obtain ⟨d, hd, p, q, hp, hq, hpq, ha, hb⟩ := h
  exact ⟨d, hd, p, q, hp, hq, hpq, ha.trans (List.suffix_append x a), hb⟩

/-- Where no entity straddles, none begins behind which begins none before the cut. -/
theorem Plain.append {a b : List Char} (h : Plain a) (hne : a ≠ []) (hcut : ¬ Straddles a b) :
    Plain (a ++ b) := by
  rintro d hd ⟨t, ht⟩
  rcases List.append_eq_append_iff.1 ht with ⟨u, hu, _⟩ | ⟨q, hq, rfl⟩
  · exact h d hd ⟨u, hu.symm⟩
  · have hq' : q ≠ [] := by
      rintro rfl
      rw [List.append_nil] at hq
      exact h d hd (hq ▸ List.prefix_refl _)
    exact hcut ⟨d, hd, a, q, hne, hq', hq.symm, List.suffix_refl a, t, rfl⟩

/-- **A text that is not cut through an entity can be decoded in pieces.** -/
theorem decode_append {a b : List Char} (h : ¬ Straddles a b) :
    decode (a ++ b) = decode a ++ decode b := by
  induction a using Entity.induction with
  | nil => rfl
  | entity d hd s ih =>
      rw [List.append_assoc, decode_encodeChar_append, decode_encodeChar_append,
        ih fun hs => h hs.of_append, List.cons_append]
  | cons c s hplain ih =>
      have hplain' : Plain (c :: (s ++ b)) := hplain.append (List.cons_ne_nil c s) h
      rw [List.cons_append, decode_of_plain hplain', decode_of_plain hplain,
        ih fun hs => h (hs.of_append (x := [c])), List.cons_append]

/-- No entity straddles where the second part begins with an ampersand. -/
theorem not_straddles_ampersand (a b : List Char) : ¬ Straddles a ('&' :: b) := by
  rintro ⟨d, hd, p, q, hp, hq, hpq, -, hb⟩
  obtain ⟨w, hw, _, hamp, _⟩ := encodeChar_eq_cons hd
  obtain ⟨c, p, rfl⟩ := List.exists_cons_of_ne_nil hp
  obtain ⟨e, q, rfl⟩ := List.exists_cons_of_ne_nil hq
  obtain ⟨rfl, _⟩ := List.cons_prefix_cons.1 hb
  rw [hw, List.cons_append, List.cons.injEq] at hpq
  rw [← hpq.2] at hamp
  exact hamp (List.mem_append_right p List.mem_cons_self)

theorem decode_append_of_not_mem {w : List Char} (h : '&' ∉ w) (s : List Char) :
    decode (w ++ s) = w ++ decode s := by
  induction w with
  | nil => rfl
  | cons c w ih =>
      rw [List.mem_cons, not_or] at h
      rw [List.cons_append, decode_cons (Ne.symm h.1), ih h.2, List.cons_append]

/-- An entity that is not complete stands for itself. -/
theorem decode_incomplete {d : Char} {p q : List Char} (hd : d ∈ named)
    (hpq : p ++ q = encodeChar d) (hp : p ≠ []) (hq : q ≠ []) : decode p = p := by
  have hplain : Plain p := by
    intro e he hstarts
    -- The entity at the beginning of `p` would be the whole one, and nothing would be left for `q`.
    obtain rfl := eq_of_encodeChar_isPrefix he hd (hpq ▸ hstarts.trans (List.prefix_append p q))
    have hle := hstarts.length_le
    have hpos := List.length_pos_iff.2 hq
    rw [← hpq, List.length_append] at hle
    omega
  obtain ⟨w, hw, _, hamp, _⟩ := encodeChar_eq_cons hd
  obtain ⟨c, p, rfl⟩ := List.exists_cons_of_ne_nil hp
  rw [hw, List.cons_append, List.cons.injEq] at hpq
  have hp : '&' ∉ p := fun hmem => hamp (hpq.2 ▸ List.mem_append_left q hmem)
  have hrest := decode_append_of_not_mem hp []
  rw [List.append_nil] at hrest
  rw [decode_of_plain hplain, hrest, decode, List.append_nil]

/-- A text that is cut through an entity comes out longer in pieces. -/
theorem decode_append_ne {a b : List Char} (h : Straddles a b) :
    decode (a ++ b) ≠ decode a ++ decode b := by
  obtain ⟨d, hd, p, q, hp, hq, hpq, ⟨a, rfl⟩, ⟨b, rfl⟩⟩ := h
  obtain ⟨w, hw, hlong, hamp, _⟩ := encodeChar_eq_cons hd
  obtain ⟨c, p', rfl⟩ := List.exists_cons_of_ne_nil hp
  obtain ⟨rfl, hpq'⟩ : c = '&' ∧ p' ++ q = w := List.cons.inj (hpq.trans hw)
  have hq' : '&' ∉ q := fun hmem => hamp (hpq' ▸ List.mem_append_right p' hmem)
  have hwhole : decode (a ++ '&' :: p' ++ (q ++ b)) = decode a ++ d :: decode b := by
    have hsplit : a ++ '&' :: p' ++ (q ++ b) = a ++ (encodeChar d ++ b) := by
      rw [← hpq]
      simp only [List.append_assoc]
    have hcut : ¬ Straddles a (encodeChar d ++ b) := by
      rw [hw]
      exact not_straddles_ampersand a _
    rw [hsplit, decode_append hcut, decode_encodeChar_append]
  have hfirst : decode (a ++ '&' :: p') = decode a ++ '&' :: p' := by
    rw [decode_append (not_straddles_ampersand a p'), decode_incomplete hd hpq hp hq]
  rw [hwhole, hfirst, decode_append_of_not_mem hq']
  intro heq
  have hlength := congrArg List.length heq
  have htail := congrArg List.length hpq'
  simp only [List.length_append, List.length_cons] at hlength htail
  omega

end Entity

end Walkthrough.Text

namespace Walkthrough

open Text

/-- Replaces the occurrences of a mark in a text, in one pass from left to right. -/
def replaceAll (mark replacement text : String) : String :=
  String.ofList (Text.replaceAll mark.toList replacement.toList text.toList)

/-- **Entities can be decoded one after the other**: first those of `<`, then those of `>`, and
those of `&` in the end, each in a pass over what the passes before have left. -/
theorem decodeEntities_eq_replaceAll (text : String) :
    decodeEntities text =
      replaceAll "&amp;" "&" (replaceAll "&gt;" ">" (replaceAll "&lt;" "<" text)) := by
  simp only [decodeEntities, replaceAll, String.toList_ofList, Entity.decode_eq_replaceEntity]
  rfl

/-- **Decoding undoes encoding, and goes piece by piece.** A text comes back from its written form.
Two texts are decoded together as they are one by one, if and only if no entity begins in the first
and ends in the second. -/
theorem decodeEntities_pieces :
    (∀ text, decodeEntities (encodeEntities text) = text) ∧
      ∀ a b : String, decodeEntities (a ++ b) = decodeEntities a ++ decodeEntities b ↔
        ¬ Entity.Straddles a.toList b.toList := by
  constructor
  · intro text
    rw [decodeEntities, encodeEntities, String.toList_ofList, Entity.decode_encode,
      String.ofList_toList]
  · intro a b
    have hlists : decodeEntities (a ++ b) = decodeEntities a ++ decodeEntities b ↔
        Entity.decode (a.toList ++ b.toList) =
          Entity.decode a.toList ++ Entity.decode b.toList := by
      simp only [decodeEntities, ← String.toList_inj, String.toList_append, String.toList_ofList]
    rw [hlists]
    exact ⟨fun h hcut => Entity.decode_append_ne hcut h, Entity.decode_append⟩

end Walkthrough
