import Hypernote.Sdk.MimeBundles
/-!
# What shortening keeps

A shortened preview is a prefix of the normalized text with an ellipsis, and a longer limit keeps
the longer prefix.  A shortened MIME bundle has the first characters of each payload, and nothing
else of it changes.
-/

namespace Hypernote

open Foundation

namespace Sdk

/-! ## Previews -/

/-- The limit does not apply to the text. -/
def ShownWhole (normalized : Chars) (full : Bool) (limit : Int) : Prop :=
  full = true ∨ limit ≤ 0 ∨ normalized.length ≤ limit

/-- What is kept, with an ellipsis for the rest. -/
def ellipsized (kept : Chars) : Chars := if kept = [] then [] else kept ++ ['…']

/-- What `_truncate_text` keeps of a text that is too long. -/
def keptOf (normalized : Chars) (limit : Int) : Chars :=
  PyText.rstrip (normalized.take (limit - 1).toNat)

variable {normalized : Chars} {full : Bool} {limit limit' : Int}

theorem not_shownWhole_iff :
    ¬ ShownWhole normalized full limit ↔ full = false ∧ 0 < limit ∧ limit < normalized.length := by
  rw [ShownWhole, not_or, not_or, not_le, not_le, Bool.not_eq_true]

theorem keptOf_prefix : keptOf normalized limit <+: normalized :=
  (List.rdropWhile_prefix _ _).trans (List.take_prefix _ _)

theorem keptOf_mono (h : limit ≤ limit') :
    keptOf normalized limit <+: keptOf normalized limit' := by
  apply PyText.rstrip_prefix_rstrip
  have hle : (limit - 1).toNat ≤ (limit' - 1).toNat := by omega
  exact List.take_prefix_take_left hle

theorem length_keptOf_lt (h : ¬ ShownWhole normalized full limit) :
    ((keptOf normalized limit).length : Int) < limit ∧
      (keptOf normalized limit).length < normalized.length := by
  obtain ⟨-, hpos, hlong⟩ := not_shownWhole_iff.mp h
  have hkept := PyText.length_rstrip_le (normalized.take (limit - 1).toNat)
  rw [List.length_take] at hkept
  unfold keptOf
  omega

theorem length_ellipsized_le (kept : Chars) : (ellipsized kept).length ≤ kept.length + 1 := by
  unfold ellipsized
  split <;> simp

theorem renderTextPreview_of_shownWhole {value : Chars} {preserveLines : Bool}
    (h : ShownWhole (normalizePreviewText value preserveLines) full limit) :
    renderTextPreview (some value) limit full preserveLines =
      ⟨some (normalizePreviewText value preserveLines), none⟩ :=
  if_pos h

theorem renderTextPreview_of_not_shownWhole {value : Chars} {preserveLines : Bool}
    (h : ¬ ShownWhole (normalizePreviewText value preserveLines) full limit) :
    renderTextPreview (some value) limit full preserveLines =
      ⟨some (ellipsized (keptOf (normalizePreviewText value preserveLines) limit)),
        some (normalizePreviewText value preserveLines).length⟩ := by
  have hlonger := (length_keptOf_lt h).2
  have hcut : renderTextPreview (some value) limit full preserveLines = _ := if_neg h
  rw [hcut, ellipsized, keptOf]
  by_cases hnil :
      PyText.rstrip ((normalizePreviewText value preserveLines).take (limit - 1).toNat) = []
  · rw [if_neg fun h => h.1 hnil, if_pos hnil, hnil]
  · rw [if_pos ⟨hnil, hlonger⟩, if_neg hnil]

/-- A preview is the whole normalized text, unflagged, or is flagged with its length and shows a
prefix of it.  The prefix has no white space at its end and grows with the limit; an ellipsis
follows unless it is empty, and all of it keeps within the limit. -/
theorem preview_contract (value : Chars) (full preserveLines : Bool) :
    let normalized := normalizePreviewText value preserveLines
    (∀ limit, ShownWhole normalized full limit →
        renderTextPreview (some value) limit full preserveLines = ⟨some normalized, none⟩) ∧
      ∃ kept : Int → Chars,
        (∀ limit, ¬ ShownWhole normalized full limit →
          renderTextPreview (some value) limit full preserveLines =
              ⟨some (ellipsized (kept limit)), some normalized.length⟩ ∧
            kept limit <+: normalized ∧
            (∀ c ∈ (kept limit).getLast?, PyText.isSpace c = false) ∧
            ((ellipsized (kept limit)).length : Int) ≤ limit) ∧
        ∀ limit limit', limit ≤ limit' → ¬ ShownWhole normalized full limit →
          ¬ ShownWhole normalized full limit' → kept limit <+: kept limit' := by
  intro normalized
  refine ⟨fun limit hwhole => renderTextPreview_of_shownWhole hwhole, keptOf normalized,
    fun limit hcut => ⟨renderTextPreview_of_not_shownWhole hcut, keptOf_prefix,
      PyText.not_isSpace_getLast?_rstrip _, ?_⟩, fun limit limit' hle _ _ => keptOf_mono hle⟩
  have hkept := (length_keptOf_lt hcut).1
  have hshown := length_ellipsized_le (keptOf normalized limit)
  omega

example : renderTextPreview (some "ab  cd".toList) 4 false false =
    ⟨some "ab…".toList, some 5⟩ := by
  decide

/-! ## MIME bundles -/

/-- A payload that is a string loses all but its first characters. -/
def CutContent (limit : Int) (whole cut : Json) : Prop :=
  match whole with
  | .str s => cut = .str (String.ofList (s.toList.take limit.toNat))
  | whole => cut = whole

/-- The second bundle is the first one with its payloads cut. -/
structure CutTo (limit : Int) (whole cut : MimeBundle) : Prop where
  output_type : cut.outputType = whole.outputType
  metadata : cut.metadata = whole.metadata
  mime_types : cut.data.map Prod.fst = whole.data.map Prod.fst
  data : List.Forall₂ (fun entry entry' => CutContent limit entry.2 entry'.2) whole.data cut.data
  truncated_types : (cut.dataTruncated.map Prod.fst).Sublist (whole.data.map Prod.fst)
  mem_dataTruncated : ∀ mimeType total, (mimeType, total) ∈ cut.dataTruncated ↔
    ∃ s : String, (mimeType, .str s) ∈ whole.data ∧ limit < s.length ∧ total = s.length

theorem take_eq_self {s : String} (h : (s.length : Int) ≤ limit) :
    String.ofList (s.toList.take limit.toNat) = s := by
  rw [List.take_of_length_le, String.ofList_toList]
  rw [String.length_toList]
  omega

theorem cutContent_fst (limit : Int) (content : Json) :
    CutContent limit content (cutContent limit content).1 := by
  cases content with
  | str s =>
      rw [CutContent, cutContent]
      split
      · rfl
      · rename_i hshort
        rw [take_eq_self (not_lt.mp hshort)]
  | _ => rfl

theorem cutContent_snd_eq_some {content : Json} {total : Nat} :
    (cutContent limit content).2 = some total ↔
      ∃ s : String, content = .str s ∧ limit < s.length ∧ total = s.length := by
  unfold cutContent
  split
  · rename_i s
    split
    · rename_i hlong
      rw [Option.some.injEq]
      constructor
      · rintro rfl
        exact ⟨s, rfl, hlong, rfl⟩
      · rintro ⟨s', hs, -, rfl⟩
        rw [Json.str.injEq] at hs
        rw [hs]
    · rename_i hshort
      refine iff_of_false (fun h => by cases h) ?_
      rintro ⟨s', hs, hlong, -⟩
      rw [Json.str.injEq] at hs
      exact hshort (hs ▸ hlong)
  · rename_i hother
    refine iff_of_false (fun h => by cases h) ?_
    rintro ⟨s, hs, -⟩
    exact hother s hs

theorem cutTo_cutBundle (hlimit : 0 < limit) (outputType : Json)
    (data metadata : List (String × Json)) :
    CutTo limit (cutBundle none outputType data metadata)
      (cutBundle (some limit) outputType data metadata) := by
  have hcut : cutBundle (some limit) outputType data metadata = _ := if_pos hlimit
  rw [hcut]
  refine ⟨rfl, rfl, ?_, ?_, ?_, fun mimeType total => ?_⟩
  · rw [cutBundle, List.map_map]
    rfl
  · rw [List.forall₂_map_right_iff]
    exact List.forall₂_same.mpr fun entry _ => cutContent_fst limit entry.2
  · apply map_filterMap_sublist
    intro entry truncated htruncated
    obtain ⟨total, -, rfl⟩ := Option.map_eq_some_iff.mp htruncated
    rfl
  · rw [List.mem_filterMap]
    constructor
    · rintro ⟨⟨key, content⟩, hmem, hentry⟩
      obtain ⟨total', htotal, heq⟩ := Option.map_eq_some_iff.mp hentry
      obtain ⟨s, rfl, hlong, rfl⟩ := cutContent_snd_eq_some.mp htotal
      cases heq
      exact ⟨s, hmem, hlong, rfl⟩
    · rintro ⟨s, hmem, hlong, rfl⟩
      refine ⟨_, hmem, Option.map_eq_some_iff.mpr ⟨s.length, ?_, rfl⟩⟩
      exact cutContent_snd_eq_some.mpr ⟨s, rfl, hlong, rfl⟩

/-- The limit matters only after the bundle has been put together. -/
theorem exists_cutBundle (printable : Char → Bool) (output : OutputDict) :
    ∃ outputType data metadata, ∀ maxContentChars,
      outputMimeBundle printable output maxContentChars =
        cutBundle maxContentChars outputType data metadata := by
  unfold outputMimeBundle
  dsimp only
  split
  · exact ⟨_, _, _, fun _ => rfl⟩
  · split <;> exact ⟨_, _, _, fun _ => rfl⟩

/-- A positive limit cuts the payloads of a bundle and changes nothing else, and any other limit
leaves the bundle whole. -/
theorem limited_bundle (printable : Char → Bool) (output : OutputDict) (limit : Int) :
    let whole := outputMimeBundle printable output none
    let limited := outputMimeBundle printable output (some limit)
    whole.dataTruncated = [] ∧ (0 < limit → CutTo limit whole limited) ∧
      (limit ≤ 0 → limited = whole) := by
  intro whole limited
  obtain ⟨outputType, data, metadata, hbundle⟩ := exists_cutBundle printable output
  rw [show whole = _ from hbundle none, show limited = _ from hbundle (some limit)]
  exact ⟨rfl, fun hlimit => cutTo_cutBundle hlimit outputType data metadata,
    fun hlimit => if_neg (not_lt.mpr hlimit)⟩

end Sdk

end Hypernote
