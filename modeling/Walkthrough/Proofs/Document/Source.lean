import Walkthrough.Proofs.Document.WellFormed
import Walkthrough.Proofs.Text.Decoding

/-!
# The source of a document

The body of a text is trimmed and decoded. The order of the two does not matter: no entity has white
space in it or stands for any, so what decoding finds at the ends of a text is what it leaves there.

* `trim_eq_iff` — trimming leaves the part of a text that has only white space around it and none at
  its own ends.
* `decode_blanks_append`, `decode_append_blanks` — decoding leaves white space before and behind a
  text alone.
* `decode_trim` — a text is decoded and trimmed in either order.
* `Document.parseDecodingFirst` — the reader that decodes the body before it trims it.
* `source_either_order` — it reads the same documents.
-/

set_option autoImplicit false

namespace Walkthrough

open Text

/-- A text without the white space at its two ends. -/
def trimmed (text : String) : String := String.ofList (trim text.toList)

namespace Document

/-! ## Trimming -/

theorem trim_padded {w s w' : List Char} (hw : Blanks w) (hs : Tidy s) (hw' : Blanks w') :
    trim (w ++ s ++ w') = s := by
  cases s with
  | nil =>
      refine trim_eq_nil_of_blank fun c hc => ?_
      rw [List.append_nil] at hc
      exact (List.mem_append.1 hc).elim (hw c) (hw' c)
  | cons c s =>
      have hopened : Opened (c :: s ++ w') := hs.opened
      rw [trim, List.append_assoc, trimStart_blanks_append hw hopened,
        trimEnd_append_of_closed hs.closed hw']

/-- What a text is trimmed to is a part of it that has only white space around it. -/
theorem exists_blanks_trim (s : List Char) :
    ∃ w w', Blanks w ∧ Blanks w' ∧ s = w ++ trim s ++ w' := by
  obtain ⟨w, hw, hs⟩ := blanks_append_trimStart s
  obtain ⟨w', hw', hstart⟩ := trimEnd_append_blanks (trimStart s)
  refine ⟨w, w', hw, hw', ?_⟩
  rw [trim, List.append_assoc, ← hstart, ← hs]

/-- **Trimming takes the white space off both ends of a text, and nothing else.** -/
theorem trim_eq_iff {s t : List Char} :
    trim s = t ↔ Tidy t ∧ ∃ w w', Blanks w ∧ Blanks w' ∧ s = w ++ t ++ w' := by
  constructor
  · rintro rfl
    exact ⟨trim_tidy s, exists_blanks_trim s⟩
  · rintro ⟨ht, w, w', hw, hw', rfl⟩
    exact trim_padded hw ht hw'

/-! ## Decoding between white space -/

theorem Blanks.ampersand_not_mem {w : List Char} (hw : Blanks w) : '&' ∉ w := fun h => by
  cases hw '&' h

/-- No entity begins before white space and ends in it. -/
theorem Blanks.not_straddles {w : List Char} (hw : Blanks w) (s : List Char) :
    ¬ Entity.Straddles s w := by
  rintro ⟨d, hd, p, q, -, hq, hpq, -, hbegins⟩
  obtain ⟨c, q, rfl⟩ := List.exists_cons_of_ne_nil hq
  have hc : c ∈ Entity.encodeChar d := hpq ▸ List.mem_append_right p List.mem_cons_self
  have hblank := hw c (hbegins.subset List.mem_cons_self)
  rw [Entity.isBlank_of_mem_encodeChar hc] at hblank
  rcases Entity.mem_named.1 hd with rfl | rfl | rfl <;> cases hblank

theorem decode_blanks_append {w : List Char} (hw : Blanks w) (s : List Char) :
    Entity.decode (w ++ s) = w ++ Entity.decode s :=
  Entity.decode_append_of_not_mem hw.ampersand_not_mem s

theorem decode_append_blanks {w : List Char} (s : List Char) (hw : Blanks w) :
    Entity.decode (s ++ w) = Entity.decode s ++ w := by
  have hself : Entity.decode w = w := by simpa [Entity.decode] using decode_blanks_append hw []
  rw [Entity.decode_append (hw.not_straddles s), hself]

/-- **A text is decoded and trimmed in either order.** -/
theorem decode_trim (s : List Char) : Entity.decode (trim s) = trim (Entity.decode s) := by
  obtain ⟨w, w', hw, hw', hs⟩ := exists_blanks_trim s
  have hdecode : Entity.decode s = w ++ Entity.decode (trim s) ++ w' := by
    rw [hs, decode_append_blanks _ hw', decode_blanks_append hw, ← hs]
  rw [hdecode, trim_padded hw (trim_tidy s).decode hw']

/-! ## Documents -/

/-- The document of a text whose body is decoded first and trimmed afterwards. -/
def parseDecodingFirst (separator text : String) : Except Fault Document :=
  if separator.toList = [] then .error .emptySeparator
  else
    let (body, script) := sections separator.toList text.toList
    (readScript Entity.decode script).map fun actions =>
      ⟨trimmed (decodeEntities (String.ofList body)), actions⟩

/-- **The source of a document is its body, trimmed and decoded in either order.** A text is decoded
and trimmed in either order, where trimming takes off all white space at its two ends and nothing
else. So a text has the same document, or the same fault, whether its body is trimmed first or
decoded first. -/
theorem source_either_order :
    (∀ text : String, decodeEntities (trimmed text) = trimmed (decodeEntities text)) ∧
      (∀ text core : String, trimmed text = core ↔
        Tidy core.toList ∧
          ∃ w w', Blanks w ∧ Blanks w' ∧ text.toList = w ++ core.toList ++ w') ∧
      ∀ separator text : String, parse separator text = parseDecodingFirst separator text := by
  refine ⟨?_, ?_, ?_⟩
  · intro text
    simp only [decodeEntities, trimmed, String.toList_ofList, decode_trim]
  · intro text core
    rw [trimmed, ← String.toList_inj, String.toList_ofList, trim_eq_iff]
  · intro separator text
    simp only [parse, readSections, parseDecodingFirst, trimmed, decodeEntities,
      String.toList_ofList, decode_trim]

end Document

end Walkthrough
